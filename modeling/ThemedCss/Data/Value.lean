import ThemedCss.Data.Calendar
import ThemedCss.Number.Shortest
import ThemedCss.Text.Utf8

/-! Structured data: what themes and preferences are made of. -/
namespace ThemedCss.Data
open ThemedCss.Number ThemedCss.Text

/-- The entries of a mapping keep their order. No two keys are the same. Where a collection holds
itself, `enclosing` stands for it; it tells whether the collection is a mapping. -/
inductive Value where
  | null
  | bool (b : Bool)
  | int (n : Int)
  | float (x : Double)
  | text (s : String)
  | bytes (b : Bytes)
  | date (d : Date)
  | moment (t : Moment)
  | list (items : List Value)
  | pair (first second : Value)
  | set (members : List Value)
  | map (entries : List (Value × Value))
  | enclosing (isMap : Bool)
deriving Repr

namespace Value

instance : Inhabited Value := ⟨.null⟩

/-- Truth values count as the integers 0 and 1. -/
def int? : Value → Option Int
  | .int n => some n
  | .bool b => some (if b then 1 else 0)
  | _ => none

/-- Whether two scalars are the same key. Numbers are compared by value, whatever their kind. -/
def sameKey (a b : Value) : Bool :=
  match a.int?, b.int?, a, b with
  | some m, some n, _, _ => m == n
  | some m, none, _, .float x => x.isInt m
  | none, some n, .float x, _ => x.isInt n
  | _, _, .float x, .float y => x.same y
  | _, _, .null, .null => true
  | _, _, .text s, .text t => s == t
  | _, _, .bytes s, .bytes t => s == t
  | _, _, .date d, .date e => d == e
  | _, _, .moment t, .moment u => t.same u
  | _, _, _, _ => false

/-- Set the value of a key. A key that is there keeps its place and its form. -/
def insert (k v : Value) : List (Value × Value) → List (Value × Value)
  | [] => [(k, v)]
  | (k', v') :: rest => if sameKey k' k then (k', v) :: rest else (k', v') :: insert k v rest

def find? (k : Value) : List (Value × Value) → Option Value
  | [] => none
  | (k', v) :: rest => if sameKey k' k then some v else find? k rest

/-- Values that may be keys. -/
def isKey : Value → Bool
  | .list _ | .set _ | .map _ | .enclosing _ => false
  | _ => true

/-- Empty and zero values count as missing. -/
def isEmpty : Value → Bool
  | .null => true
  | .bool b => !b
  | .int n => n == 0
  | .float x => x.isZero
  | .text s => s.isEmpty
  | .bytes b => List.isEmpty b
  | .list items => List.isEmpty items
  | .set members => List.isEmpty members
  | .map entries => List.isEmpty entries
  | .date _ | .moment _ | .pair .. | .enclosing _ => false

def byteText (quote : Char) (b : UInt8) : String :=
  let c := Char.ofNat b.toNat
  if c == quote || c == '\\' then String.ofList ['\\', c]
  else if c == '\n' then "\\n"
  else if c == '\r' then "\\r"
  else if c == '\t' then "\\t"
  else if 0x20 ≤ b.toNat && b.toNat < 0x7F then c.toString
  else "\\x" ++ hexDigits 2 b.toNat

def bytesText (bs : Bytes) : String :=
  let quote := if bs.contains 39 && !bs.contains 34 then '"' else '\''
  "b" ++ quote.toString ++ String.join (bs.map (byteText quote)) ++ quote.toString

def offsetTerm (o : Int) : String :=
  if o = 0 then "datetime.timezone.utc"
  else
    let days := o / 1440
    let seconds := o % 1440 * 60
    let parts := (if days = 0 then [] else [s!"days={days}"]) ++
      (if seconds = 0 then [] else [s!"seconds={seconds}"])
    "datetime.timezone(datetime.timedelta(" ++ ", ".intercalate parts ++ "))"

def momentTerm (t : Moment) : String :=
  let d := t.date
  let tail := if t.micro ≠ 0 then [t.second, t.micro] else if t.second ≠ 0 then [t.second] else []
  let fields := [d.year, d.month, d.day, t.hour, t.minute] ++ tail
  let zone := match t.offset with
    | some o => [s!"tzinfo={offsetTerm o}"]
    | none => []
  "datetime.datetime(" ++ ", ".intercalate (fields.map toString ++ zone) ++ ")"

mutual
/-- A value as it is shown inside another one. -/
def term : Value → String
  | .null => "None"
  | .bool b => if b then "True" else "False"
  | .int n => toString n
  | .float x => x.text
  | .text s => quoted s
  | .bytes b => bytesText b
  | .date d => s!"datetime.date({d.year}, {d.month}, {d.day})"
  | .moment t => momentTerm t
  | .list items => "[" ++ ", ".intercalate (terms items) ++ "]"
  | .pair a b => "(" ++ a.term ++ ", " ++ b.term ++ ")"
  | .set members =>
    if List.isEmpty members then "set()" else "\x7b" ++ ", ".intercalate (terms members) ++ "\x7d"
  | .map entries => "\x7b" ++ ", ".intercalate (entryTerms entries) ++ "\x7d"
  | .enclosing isMap => if isMap then "\x7b...\x7d" else "[...]"

def terms : List Value → List String
  | [] => []
  | v :: vs => v.term :: terms vs

def entryTerms : List (Value × Value) → List String
  | [] => []
  | (k, v) :: rest => (k.term ++ ": " ++ v.term) :: entryTerms rest
end

mutual
/-- Whether a collection somewhere in a value holds itself. -/
def isEndless : Value → Bool
  | .enclosing _ => true
  | .list items | .set items => anyEndless items
  | .pair a b => a.isEndless || b.isEndless
  | .map entries => anyEntryEndless entries
  | _ => false

def anyEndless : List Value → Bool
  | [] => false
  | v :: vs => v.isEndless || anyEndless vs

def anyEntryEndless : List (Value × Value) → Bool
  | [] => false
  | (k, v) :: rest => k.isEndless || v.isEndless || anyEntryEndless rest
end

/-- A value as it is shown alone. -/
def shown : Value → String
  | .text s => s
  | .date d => d.text
  | .moment t => t.text " "
  | v => v.term

def entries? : Value → Option (List (Value × Value))
  | .map m => some m
  | _ => none

end Value
end ThemedCss.Data
