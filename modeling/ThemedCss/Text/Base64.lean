import ThemedCss.Text.Utf8

/-! Bytes as text of 64 characters. -/
namespace ThemedCss.Text.Base64

def alphabet : List Char :=
  "ABCDEFGHIJKLMNOPQRSTUVWXYZabcdefghijklmnopqrstuvwxyz0123456789+/".toList

def valueOf? (c : Char) : Option Nat :=
  alphabet.idxOf? c

/-- The bytes in a list of six-bit values; bits left over at the end are dropped. -/
def pack : List Nat → Bytes
  | a :: b :: c :: d :: rest =>
    UInt8.ofNat (a * 4 + b / 16) :: UInt8.ofNat (b % 16 * 16 + c / 4) ::
      UInt8.ofNat (c % 4 * 64 + d) :: pack rest
  | [a, b, c] => [UInt8.ofNat (a * 4 + b / 16), UInt8.ofNat (b % 16 * 16 + c / 4)]
  | [a, b] => [UInt8.ofNat (a * 4 + b / 16)]
  | _ => []

/-- The six-bit values of a text, where characters outside the alphabet do not count, and whether it
ended with the padding it needs. `pads` counts the padding signs in a row. -/
def looseValues : Nat → Nat → List Char → List Nat × Bool
  | count, _, [] => ([], count % 4 == 0)
  | count, pads, c :: rest =>
    if c == '=' then
      if 2 ≤ count % 4 && 4 ≤ count % 4 + pads + 1 then ([], true)
      else looseValues count (pads + 1) rest
    else
      match valueOf? c with
      | some v =>
        let (vs, complete) := looseValues (count + 1) 0 rest
        (v :: vs, complete)
      | none => looseValues count pads rest

/-- Decode a text in which other characters may stand. -/
def decodeLoose? (cs : List Char) : Option Bytes :=
  let (vs, complete) := looseValues 0 0 cs
  if complete then some (pack vs) else none

/-- The six-bit values of a text in which nothing else may stand. Padding may only end it; `padding`
tells that it has begun, and `pads` counts the signs that fill up four characters. -/
def strictValues? : Nat → Bool → Nat → List Char → Option (List Nat)
  | count, _, _, [] => if count % 4 == 0 then some [] else none
  | count, padding, pads, c :: rest =>
    if c == '=' then
      if count % 4 < 2 then strictValues? count true pads rest
      else if count % 4 + pads + 1 < 4 then strictValues? count true (pads + 1) rest
      else if rest.isEmpty then some []
      else none
    else if padding then none
    else
      match valueOf? c with
      | some v => (strictValues? (count + 1) false 0 rest).map (v :: ·)
      | none => none

/-- Decode a text that holds nothing but the alphabet and its padding. -/
def decodeStrict? (cs : List Char) : Option Bytes :=
  if cs.head? == some '=' then none else (strictValues? 0 false 0 cs).map pack

/-- The characters for the first six-bit values of some bytes. -/
def charOf (n : Nat) : Char :=
  (alphabet.drop (n % 64)).headD 'A'

def encodeChars : Bytes → List Char
  | a :: b :: c :: rest =>
    let n := (a.toNat * 256 + b.toNat) * 256 + c.toNat
    charOf (n / 262144) :: charOf (n / 4096) :: charOf (n / 64) :: charOf n :: encodeChars rest
  | [a, b] =>
    let n := (a.toNat * 256 + b.toNat) * 256
    [charOf (n / 262144), charOf (n / 4096), charOf (n / 64), '=']
  | [a] =>
    let n := a.toNat * 65536
    [charOf (n / 262144), charOf (n / 4096), '=', '=']
  | [] => []

end ThemedCss.Text.Base64
