import ThemedCss.Text.Basic

/-! Numbers in text. -/
namespace ThemedCss.Text

/-- No numeral is longer. -/
def numeralLimit : Nat :=
  4300

/-- The digits of a text that has single lines between some of them. -/
def grouped? (cs : List Char) : Option (List Char) :=
  if ((String.ofList cs).splitOn "_").all fun p => !p.isEmpty && p.toList.all Char.isDigit then
    some (cs.filter Char.isDigit)
  else none

def decimal (ds : List Char) : Nat :=
  ds.foldl (fun n c => 10 * n + (c.toNat - 48)) 0

/-- The number written by digits with single lines between them. -/
def digits? (s : String) : Option Nat :=
  match grouped? s.toList with
  | some ds => if ds.length ≤ numeralLimit then some (decimal ds) else none
  | none => none

/-- The decimal digits of all scripts stand in runs of ten; these are the zeros. -/
def zeros : List Nat :=
  [0x30, 0x660, 0x6f0, 0x7c0, 0x966, 0x9e6, 0xa66, 0xae6, 0xb66, 0xbe6, 0xc66, 0xce6, 0xd66, 0xde6,
   0xe50, 0xed0, 0xf20, 0x1040, 0x1090, 0x17e0, 0x1810, 0x1946, 0x19d0, 0x1a80, 0x1a90, 0x1b50,
   0x1bb0, 0x1c40, 0x1c50, 0xa620, 0xa8d0, 0xa900, 0xa9d0, 0xa9f0, 0xaa50, 0xabf0, 0xff10, 0x104a0,
   0x10d30, 0x11066, 0x110f0, 0x11136, 0x111d0, 0x112f0, 0x11450, 0x114d0, 0x11650, 0x116c0,
   0x11730, 0x118e0, 0x11950, 0x11c50, 0x11d50, 0x11da0, 0x16a60, 0x16ac0, 0x16b50, 0x1d7ce,
   0x1d7d8, 0x1d7e2, 0x1d7ec, 0x1d7f6, 0x1e140, 0x1e2f0, 0x1e950, 0x1fbf0]

/-- The ASCII digit for a decimal digit of any script; other characters stay. -/
def plainDigit (c : Char) : Char :=
  if c.toNat < 128 then c
  else
    match zeros.find? fun z => z ≤ c.toNat && c.toNat < z + 10 with
    | some z => Char.ofNat (48 + (c.toNat - z))
    | none => c

/-- A text without the blanks around it, with plain digits. -/
def numeralCore (cs : List Char) : List Char :=
  trim (cs.map plainDigit)

/-- Split off a sign; true means minus. -/
def splitSign : List Char → Bool × List Char
  | '-' :: rest => (true, rest)
  | '+' :: rest => (false, rest)
  | cs => (false, cs)

/-- What a letter or a digit counts in a number to a base up to 36. -/
def digitValue? (c : Char) : Option Nat :=
  if c.isDigit then some (c.toNat - 48)
  else if 'a' ≤ c && c ≤ 'z' then some (c.toNat - 87)
  else if 'A' ≤ c && c ≤ 'Z' then some (c.toNat - 55)
  else none

/-- The number that digits write to a base. To a base that is no power of two, numerals have a
limit. -/
def natural? (base : Nat) (cs : List Char) : Option Nat :=
  let ds := cs.filterMap digitValue?
  if cs.isEmpty || ds.length < cs.length || ds.any (base ≤ ·) ||
    (base == 10 && numeralLimit < ds.length) then none
  else some (ds.foldl (fun n d => base * n + d) 0)

/-- The letter that may follow a zero before the digits of a number to a base. -/
def baseLetter? : Nat → Option Char
  | 2 => some 'b'
  | 8 => some 'o'
  | 16 => some 'x'
  | _ => none

/-- The integer a text writes to a base: blanks around it, a sign, and the letter of the base after
a zero are allowed. -/
def integer? (base : Nat) (cs : List Char) : Option Int :=
  let (negative, body) := splitSign (numeralCore cs)
  let digits :=
    match body with
    | '0' :: c :: rest => if some c.toLower == baseLetter? base then rest else body
    | _ => body
  (natural? base digits).map fun n => if negative then -(n : Int) else n

end ThemedCss.Text
