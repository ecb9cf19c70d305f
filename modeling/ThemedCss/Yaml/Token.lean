/-! Tokens of YAML text. -/
namespace ThemedCss.Yaml

inductive Fault where
  /-- The text is not well-formed, or uses a tag that is not known. -/
  | malformed
  /-- A number or a date is out of range, or no number at all. -/
  | outOfRange
  /-- A character code is past the greatest machine integer. -/
  | overflow
  /-- A text marked as a number is empty. -/
  | emptyNumber
  /-- A text marked as a truth value is none. -/
  | notBoolean
  /-- A text marked as a point in time is none. -/
  | notTime
  /-- A collection contains itself. -/
  | endless
deriving DecidableEq, Repr

inductive Directive where
  | version (major : Nat)
  | tag (handle uri : String)
  | other
deriving DecidableEq, Repr

inductive Token where
  | directive (d : Directive)
  | documentStart
  | documentEnd
  | streamEnd
  | blockSequence
  | blockMapping
  | blockEnd
  | flowSequence
  | flowSequenceEnd
  | flowMapping
  | flowMappingEnd
  | blockEntry
  | flowEntry
  | key
  | value
  | reference (name : String)
  | anchor (name : String)
  | tag (handle : Option String) (name : String)
  | scalar (text : String) (plain : Bool)
deriving DecidableEq, Repr

/-- Line ends. Carriage returns have been turned into line feeds before. -/
def isBreak (c : Char) : Bool :=
  c == '\n' || c.toNat == 0x85 || c.toNat == 0x2028 || c.toNat == 0x2029

/-- A blank, a line end, or the end of the text. -/
def isGap : Option Char → Bool
  | none => true
  | some c => c == ' ' || c == '\t' || isBreak c

def isLineEnd : Option Char → Bool
  | none => true
  | some c => isBreak c

/-- Characters that may stand in a text; all others make it malformed. -/
def isAllowed (c : Char) : Bool :=
  let n := c.toNat
  n == 9 || n == 10 || n == 13 || (0x20 ≤ n && n ≤ 0x7E) || n == 0x85 || (0xA0 ≤ n && n ≤ 0xD7FF) ||
    (0xE000 ≤ n && n ≤ 0xFFFD) || 0x10000 ≤ n

def isWordChar (c : Char) : Bool :=
  c.isAlphanum || c == '-' || c == '_'

def isUriChar (c : Char) : Bool :=
  c.isAlphanum || "-;/?:@&=+$,_.!~*'()[]%".toList.contains c

end ThemedCss.Yaml
