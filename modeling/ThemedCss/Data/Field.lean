import ThemedCss.Data.Value
import ThemedCss.Text.Basic
import ThemedCss.Text.Numeral

/-! Records with named fields, read from data. All fields are read, and all faults are kept in their
order. -/
namespace ThemedCss.Data
open ThemedCss.Text

inductive FieldCause where
  | missing
  | notText
  | notUtf8
  | notList
  | notInteger
  /-- A text that is no number. -/
  | notNumeral
  /-- A number with a fraction. -/
  | notWhole
  | notFinite
  | tooLarge
deriving DecidableEq, Repr

structure FieldFault where
  place : List String
  cause : FieldCause
deriving DecidableEq, Repr

abbrev Fields (α : Type) := Except (List FieldFault) α

namespace Fields

variable {α β γ : Type}

def fail (cause : FieldCause) : Fields α :=
  .error [⟨[], cause⟩]

def within (name : String) : Fields α → Fields α
  | .ok a => .ok a
  | .error faults => .error (faults.map fun f => { f with place := name :: f.place })

/-- Both outcomes, or the faults of both. -/
def both : Fields α → Fields β → Fields (α × β)
  | .ok a, .ok b => .ok (a, b)
  | .ok _, .error faults => .error faults
  | .error faults, .ok _ => .error faults
  | .error first, .error second => .error (first ++ second)

def required (read : Value → Fields α) (name : String) (entries : List (Value × Value)) :
    Fields α :=
  within name (match Value.find? (.text name) entries with
    | some v => read v
    | none => fail .missing)

def optional (default : α) (read : Value → Fields α) (name : String)
    (entries : List (Value × Value)) : Fields α :=
  match Value.find? (.text name) entries with
  | some v => within name (read v)
  | none => .ok default

end Fields

namespace Value

/-- Text; bytes are read as text. -/
def asText : Value → Fields String
  | .text s => .ok s
  | .bytes b =>
    match decode b with
    | .ok cs => .ok (String.ofList cs)
    | .error _ => Fields.fail .notUtf8
  | _ => Fields.fail .notText

def asText? : Value → Fields (Option String)
  | .null => .ok none
  | v => v.asText.map some

/-- Texts in a row; the faults are at their positions. -/
def asTextsFrom (pos : Nat) : List Value → Fields (List String)
  | [] => .ok []
  | v :: rest =>
    (Fields.both (Fields.within (toString pos) v.asText) (asTextsFrom (pos + 1) rest)).map
      fun (s, ss) => s :: ss

def asTexts : Value → Fields (List String)
  | .list items | .set items => asTextsFrom 0 items
  | .pair a b => asTextsFrom 0 [a, b]
  | _ => Fields.fail .notList

/-- A number in a text: a sign, digits, and a fraction of zeros. -/
def numeral (s : String) : Fields Int :=
  let (negative, body) := splitSign (trim s.toList)
  let whole := body.takeWhile (· != '.')
  let zeros := (body.drop whole.length).drop 1
  if zeros.all (· == '0') &&
    (zeros.length + whole.length + 1 == body.length && !zeros.isEmpty || whole == body) then
    match grouped? whole with
    | none => Fields.fail .notNumeral
    | some ds =>
      let written := ds.dropWhile (· == '0')
      if numeralLimit < written.length + (if negative then 1 else 0) then Fields.fail .tooLarge
      else
        let n : Int := decimal written
        .ok (if negative then -n else n)
  else Fields.fail .notNumeral

/-- Whole numbers from here on, of either sign, are not taken. -/
def wholeLimit : Nat :=
  Nat.pow 2 63

/-- An integer; truth values, whole numbers and numerals are taken too. -/
def asInt : Value → Fields Int
  | .int n => .ok n
  | .bool b => .ok (if b then 1 else 0)
  | .float x =>
    match x with
    | .finite .. =>
      match x.toInt? with
      | some n => if n.natAbs < wholeLimit then .ok n else Fields.fail .tooLarge
      | none => Fields.fail .notWhole
    | _ => Fields.fail .notFinite
  | .text s => numeral s
  | _ => Fields.fail .notInteger

end Value
end ThemedCss.Data
