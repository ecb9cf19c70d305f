import ThemedCss.Text.Utf8

/-! Query strings of resource requests. -/
namespace ThemedCss.Text.Query

def hexValue? (c : Char) : Option Nat :=
  if '0' ≤ c ∧ c ≤ '9' then some (c.toNat - 48)
  else if 'a' ≤ c ∧ c ≤ 'f' then some (c.toNat - 87)
  else if 'A' ≤ c ∧ c ≤ 'F' then some (c.toNat - 55)
  else none

/-- The bytes of a run of ASCII characters: a percent sign and two hexadecimal digits are one byte.
The first `skip` characters are already read. -/
def runBytes : Nat → List Char → Bytes
  | _, [] => []
  | skip + 1, _ :: rest => runBytes skip rest
  | 0, c :: rest =>
    if c == '%' then
      match rest.head?.bind hexValue?, (rest.drop 1).head?.bind hexValue? with
      | some high, some low => UInt8.ofNat (16 * high + low) :: runBytes 2 rest
      | _, _ => 37 :: runBytes 0 rest
    else UInt8.ofNat c.toNat :: runBytes 0 rest

/-- The text of a run; faulty bytes become replacement characters. -/
def runText (run : List Char) : List Char :=
  decodeReplacing (runBytes 0 run)

/-- Undo percent signs. Each run of ASCII characters, held in `run` in reverse order, is decoded on
its own. -/
def unescape : List Char → List Char → List Char
  | run, [] => runText run.reverse
  | run, c :: rest =>
    if c.toNat < 128 then unescape (c :: run) rest
    else runText run.reverse ++ c :: unescape [] rest

/-- A name or value as it was meant: plus signs stand for blanks. -/
def decodePart (cs : List Char) : List Char :=
  unescape [] (cs.map fun c => if c == '+' then ' ' else c)

def splitAt (separator : Char) : List Char → List (List Char)
  | [] => [[]]
  | c :: rest =>
    match splitAt separator rest with
    | [] => [[c]]
    | part :: parts => if c == separator then [] :: part :: parts else (c :: part) :: parts

/-- The name and the value of a parameter, if it has both; an empty value does not count. -/
def parameter? (part : List Char) : Option (List Char × List Char) :=
  let name := part.takeWhile (· != '=')
  match part.drop name.length with
  | _ :: c :: value => some (decodePart name, decodePart (c :: value))
  | _ => none

def parameters (query : List Char) : List (List Char × List Char) :=
  (splitAt '&' query).filterMap parameter?

/-- The query of a resource: what follows its first question mark, or all of it. -/
def ofResource (resource : List Char) : List Char :=
  if resource.contains '?' then (resource.dropWhile (· != '?')).drop 1 else resource

end ThemedCss.Text.Query
