import ThemedCss.Text.Quoted

/-! Bytes, and text as UTF-8. -/
namespace ThemedCss.Text

abbrev Bytes := List UInt8

def encode (s : String) : Bytes :=
  s.toList.flatMap String.utf8EncodeChar

def slice (bytes : Bytes) (start stop : Nat) : Bytes :=
  (bytes.drop start).take (stop - start)

inductive Utf8Cause where
  | invalidStart
  | invalidContinuation
  | unexpectedEnd
deriving DecidableEq, Repr

/-- The bytes from `start` up to `stop`, the first of which is `byte`, are not UTF-8. -/
structure Utf8Fault where
  cause : Utf8Cause
  byte : UInt8
  start : Nat
  stop : Nat
deriving DecidableEq, Repr

def Utf8Cause.message : Utf8Cause → String
  | invalidStart => "invalid start byte"
  | invalidContinuation => "invalid continuation byte"
  | unexpectedEnd => "unexpected end of data"

def Utf8Fault.message (f : Utf8Fault) : String :=
  let place :=
    if f.stop == f.start + 1 then s!"byte 0x{hexDigits 2 f.byte.toNat} in position {f.start}"
    else s!"bytes in position {f.start}-{f.stop - 1}"
  s!"'utf-8' codec can't decode {place}: {f.cause.message}"

/-- What a first byte asks of the bytes after it: how many there are, and the range of the first of
them. -/
structure Utf8Lead where
  more : Nat
  low : Nat
  high : Nat

def utf8Lead? (b : UInt8) : Option Utf8Lead :=
  let n := b.toNat
  if n < 0x80 then some ⟨0, 0, 0⟩
  else if n < 0xC2 then none
  else if n < 0xE0 then some ⟨1, 0x80, 0xBF⟩
  else if n == 0xE0 then some ⟨2, 0xA0, 0xBF⟩
  else if n == 0xED then some ⟨2, 0x80, 0x9F⟩
  else if n < 0xF0 then some ⟨2, 0x80, 0xBF⟩
  else if n == 0xF0 then some ⟨3, 0x90, 0xBF⟩
  else if n < 0xF4 then some ⟨3, 0x80, 0xBF⟩
  else if n == 0xF4 then some ⟨3, 0x80, 0x8F⟩
  else none

def isContinuation (b : UInt8) : Bool :=
  0x80 ≤ b.toNat && b.toNat ≤ 0xBF

/-- The first character of `first :: rest`, or the cause and the number of bytes at fault. -/
def decodeFirst (first : UInt8) (rest : Bytes) : Except (Utf8Cause × Nat) (Char × Nat) :=
  let low6 (b : UInt8) : Nat := b.toNat % 0x40
  match utf8Lead? first with
  | none => .error (.invalidStart, 1)
  | some lead =>
    let inFirst (b : UInt8) : Bool := lead.low ≤ b.toNat && b.toNat ≤ lead.high
    match lead.more, rest with
    | 0, _ => .ok (Char.ofNat first.toNat, 0)
    | 1, b :: _ =>
      if inFirst b then .ok (Char.ofNat (first.toNat % 0x20 * 0x40 + low6 b), 1)
      else .error (.invalidContinuation, 1)
    | 2, b :: c :: _ =>
      if !inFirst b then .error (.invalidContinuation, 1)
      else if !isContinuation c then .error (.invalidContinuation, 2)
      else .ok (Char.ofNat ((first.toNat % 0x10 * 0x40 + low6 b) * 0x40 + low6 c), 2)
    | 3, b :: c :: d :: _ =>
      if !inFirst b then .error (.invalidContinuation, 1)
      else if !isContinuation c then .error (.invalidContinuation, 2)
      else if !isContinuation d then .error (.invalidContinuation, 3)
      else .ok (Char.ofNat (((first.toNat % 8 * 0x40 + low6 b) * 0x40 + low6 c) * 0x40 + low6 d), 3)
    | _, [] => .error (.unexpectedEnd, 1)
    | _, b :: rest =>
      if !inFirst b then .error (.invalidContinuation, 1)
      else
        match rest with
        | c :: _ =>
          if isContinuation c then .error (.unexpectedEnd, rest.length + 2)
          else .error (.invalidContinuation, 2)
        | [] => .error (.unexpectedEnd, 2)

/-- Decode from byte `pos` on; the first `skip` bytes belong to a character already read. -/
def decodeFrom (pos : Nat) : Nat → Bytes → Except Utf8Fault (List Char)
  | _, [] => .ok []
  | skip + 1, _ :: rest => decodeFrom (pos + 1) skip rest
  | 0, b :: rest =>
    match decodeFirst b rest with
    | .error (cause, width) => .error ⟨cause, b, pos, pos + width⟩
    | .ok (c, width) => (decodeFrom (pos + 1) width rest).map (c :: ·)

/-- The characters of UTF-8 bytes, or the first fault. -/
def decode (bytes : Bytes) : Except Utf8Fault (List Char) :=
  decodeFrom 0 0 bytes

/-- The characters of bytes, where a part that is not UTF-8 reads as what `faulty` gives for its
number of bytes. The first `skip` bytes belong to what has been read. -/
def decodeWith (faulty : Nat → List Char) : Nat → Bytes → List Char
  | _, [] => []
  | skip + 1, _ :: rest => decodeWith faulty skip rest
  | 0, b :: rest =>
    match decodeFirst b rest with
    | .error (_, width) => faulty width ++ decodeWith faulty (width - 1) rest
    | .ok (c, width) => c :: decodeWith faulty width rest

/-- One replacement character stands for each faulty part. -/
def decodeReplacing (bytes : Bytes) : List Char :=
  decodeWith (fun _ => [Char.ofNat 0xFFFD]) 0 bytes

/-- A letter stands for each faulty byte, so what comes after it keeps its position. -/
def decodeMasking (bytes : Bytes) : List Char :=
  decodeWith (List.replicate · 'x') 0 bytes

/-- The text of bytes that are known to be UTF-8. -/
def decodeText (bytes : Bytes) : String :=
  String.ofList (decodeReplacing bytes)

end ThemedCss.Text
