import ThemedCss.Data.Value
import ThemedCss.Text.Numeral
import ThemedCss.Yaml.Node

/-! Plain scalars that stand for truth values, numbers and points in time. -/
namespace ThemedCss.Yaml.Literal
open ThemedCss.Data ThemedCss.Number ThemedCss.Text

def nullWords : List String :=
  ["", "~", "null", "Null", "NULL"]

def boolWords : List String :=
  ["yes", "Yes", "YES", "no", "No", "NO", "true", "True", "TRUE", "false", "False", "FALSE", "on",
   "On", "ON", "off", "Off", "OFF"]

def isDigitOrLine (c : Char) : Bool :=
  c.isDigit || c == '_'

/-- Parts of a number to the base 60, after the first: one digit, or two of which the first is at
most 5. -/
def isSixtieth : List Char → Bool
  | [a] => a.isDigit
  | [a, b] => '0' ≤ a && a ≤ '5' && b.isDigit
  | _ => false

def splitColons : List Char → List (List Char)
  | [] => [[]]
  | ':' :: rest => [] :: splitColons rest
  | c :: rest =>
    match splitColons rest with
    | part :: parts => (c :: part) :: parts
    | [] => [[c]]

def isInt (cs : List Char) : Bool :=
  let body := (splitSign cs).2
  match body with
  | ['0'] => true
  | '0' :: 'b' :: ds => !ds.isEmpty && ds.all fun c => c == '0' || c == '1' || c == '_'
  | '0' :: 'x' :: ds => !ds.isEmpty && ds.all fun c => (Lexer.hexValue? c).isSome || c == '_'
  | '0' :: ds => !ds.isEmpty && ds.all fun c => ('0' ≤ c && c ≤ '7') || c == '_'
  | d :: _ =>
    d.isDigit &&
      match splitColons body with
      | first :: more => first.all isDigitOrLine && more.all isSixtieth
      | [] => false
  | [] => false

def isExponent : List Char → Bool
  | [] => true
  | e :: s :: ds =>
    (e == 'e' || e == 'E') && (s == '-' || s == '+') && !ds.isEmpty && ds.all Char.isDigit
  | _ => false

/-- Digits after the point, and perhaps an exponent. -/
def isFraction (cs : List Char) : Bool :=
  isExponent (cs.dropWhile isDigitOrLine)

def infinityWords : List String :=
  [".inf", ".Inf", ".INF"]

def nanWords : List String :=
  [".nan", ".NaN", ".NAN"]

def isFloat (cs : List Char) : Bool :=
  let body := (splitSign cs).2
  let whole := body.takeWhile (· != '.')
  let after := body.drop (whole.length + 1)
  let hasPoint := whole.length < body.length
  nanWords.contains (String.ofList cs) || infinityWords.contains (String.ofList body) ||
    match whole, cs with
    | [], '.' :: d :: rest => d.isDigit && isFraction rest
    | d :: _, _ =>
      hasPoint && d.isDigit &&
        match splitColons whole with
        | [first] => first.all isDigitOrLine && isFraction after
        | first :: more => first.all isDigitOrLine && more.all isSixtieth && after.all isDigitOrLine
        | [] => false
    | _, _ => false

structure TimeParts where
  date : Date
  /-- Hour, minute, second, digits of the fraction, and the zone. -/
  clock : Option (Nat × Nat × Nat × List Char × Option Int)

def natOf (cs : List Char) : Nat :=
  cs.foldl (fun n c => 10 * n + (c.toNat - 48)) 0

/-- Between `least` and `most` digits, and what follows them. -/
def digitRun? (least most : Nat) (cs : List Char) : Option (Nat × List Char) :=
  let ds := (cs.takeWhile Char.isDigit).take most
  if ds.length < least then none else some (natOf ds, cs.drop ds.length)

def expect? (c : Char) : List Char → Option (List Char)
  | d :: rest => if d == c then some rest else none
  | [] => none

/-- The zone at the end of a time: the offset in minutes. -/
def zone? (cs : List Char) : Option (Option Int) :=
  match cs with
  | [] => some none
  | _ =>
    match cs.dropWhile fun c => c == ' ' || c == '\t' with
    | ['Z'] => some (some 0)
    | s :: rest =>
      if s == '+' || s == '-' then do
        let (hours, rest) ← digitRun? 1 2 rest
        let minutes ←
          match rest with
          | [] => some 0
          | _ => do
            let (m, rest) ← digitRun? 2 2 (← expect? ':' rest)
            if rest.isEmpty then some m else none
        let offset : Int := 60 * hours + minutes
        return some (if s == '-' then -offset else offset)
      else none
    | [] => none

def clock? (cs : List Char) : Option (Nat × Nat × Nat × List Char × Option Int) := do
  let cs ←
    match cs with
    | 'T' :: rest | 't' :: rest => some rest
    | c :: _ =>
      if c == ' ' || c == '\t' then some (cs.dropWhile fun c => c == ' ' || c == '\t') else none
    | [] => none
  let (hour, cs) ← digitRun? 1 2 cs
  let (minute, cs) ← digitRun? 2 2 (← expect? ':' cs)
  let (second, cs) ← digitRun? 2 2 (← expect? ':' cs)
  let (fraction, cs) :=
    match cs with
    | '.' :: rest => (rest.takeWhile Char.isDigit, rest.dropWhile Char.isDigit)
    | _ => ([], cs)
  let zone ← zone? cs
  return (hour, minute, second, fraction, zone)

/-- A date, or a date with a time. -/
def time? (cs : List Char) : Option TimeParts := do
  let (year, cs) ← digitRun? 4 4 cs
  let (month, cs) ← digitRun? 1 2 (← expect? '-' cs)
  let (day, cs) ← digitRun? 1 2 (← expect? '-' cs)
  let clock ← if cs.isEmpty then some none else (clock? cs).map some
  return ⟨⟨year, month, day⟩, clock⟩

/-- Whether a point in time is written here. A date alone has two digits for month and day. -/
def isTime (cs : List Char) : Bool :=
  match time? cs with
  | some parts => parts.clock.isSome || cs.length == 10
  | none => false

/-- A text without the line end it closes with, unless it is nothing else. -/
def withoutLineEnd (cs : List Char) : List Char :=
  if cs.getLast? == some '\n' && 1 < cs.length then cs.dropLast else cs

/-- What a plain scalar stands for. A line end after it does not count. -/
def tagOf (s : String) : Tag :=
  let cs := withoutLineEnd s.toList
  let s := String.ofList cs
  if boolWords.contains s then .bool
  else if isFloat cs then .float
  else if isInt cs then .int
  else if s == "<<" then .merge
  else if nullWords.contains s then .null
  else if isTime cs then .time
  else if s == "=" then .value
  else .text

def int (s : String) : Except Fault Int := do
  let cs := s.toList.filter (· != '_')
  if cs.isEmpty then throw .emptyNumber
  let (negative, body) := splitSign cs
  let n? : Option Int :=
    match body with
    | '0' :: 'b' :: ds => integer? 2 ds
    | '0' :: 'x' :: ds => integer? 16 ds
    | ['0'] => some 0
    | '0' :: _ => integer? 8 body
    | _ =>
      if body.contains ':' then do
        let parts ← (splitColons body).mapM (integer? 10)
        return parts.foldl (fun n d => 60 * n + d) 0
      else integer? 10 body
  if body.isEmpty then throw .emptyNumber
  match n? with
  | some n => return if negative then -n else n
  | none => throw .outOfRange

/-- A decimal with an optional point and an optional exponent. -/
def decimal? (cs : List Char) : Option Double := do
  let whole := cs.takeWhile Char.isDigit
  let cs := cs.drop whole.length
  let (fraction, cs) :=
    match cs with
    | '.' :: rest => (rest.takeWhile Char.isDigit, rest.dropWhile Char.isDigit)
    | _ => ([], cs)
  if whole.isEmpty && fraction.isEmpty then none
  let exponent ←
    match cs with
    | [] => some (0 : Int)
    | e :: rest =>
      if e == 'e' || e == 'E' then
        let (negative, ds) := splitSign rest
        if ds.isEmpty || !ds.all Char.isDigit then none
        else some (if negative then -(natOf ds : Int) else natOf ds)
      else none
  return .ofDecimal false (natOf (whole ++ fraction)) (exponent - fraction.length)

/-- The number a text in small letters writes: blanks around it and a sign are allowed. -/
def number? (cs : List Char) : Option Double :=
  let (negative, body) := splitSign (numeralCore cs)
  let x? :=
    match String.ofList body with
    | "inf" | "infinity" => some (Double.infinite false)
    | "nan" => some .nan
    | _ => decimal? body
  x?.map fun x => if negative then x.negate else x

/-- The sum of parts, each of which counts sixty times the next. -/
def sexagesimal (parts : List Double) : Double :=
  (parts.reverse.foldl
    (fun ((sum, base) : Double × Nat) d => (sum.add (d.mul (.ofInt base)), 60 * base))
    (Double.zero false, 1)).1

def float (s : String) : Except Fault Double := do
  let cs := (s.toList.filter (· != '_')).map Char.toLower
  if cs.isEmpty then throw .emptyNumber
  let (negative, body) := splitSign cs
  let x? : Option Double :=
    match String.ofList body with
    | ".inf" => some (.infinite false)
    | ".nan" => some .nan
    | _ =>
      if body.contains ':' then ((splitColons body).mapM number?).map sexagesimal else number? body
  match x? with
  | some x => return if negative then x.negate else x
  | none => throw .outOfRange

/-- Whether a text that is marked as a number with a point is the name for no number. Other ways to
write it give a value of their own each time. -/
def isNanName (s : String) : Bool :=
  let cs := (s.toList.filter (· != '_')).map Char.toLower
  String.ofList (splitSign cs).2 == ".nan"

def bool (s : String) : Except Fault Bool :=
  match s.toLower with
  | "yes" | "true" | "on" => .ok true
  | "no" | "false" | "off" => .ok false
  | _ => .error .notBoolean

def time (s : String) : Except Fault Value := do
  match time? (withoutLineEnd s.toList) with
  | none => throw .notTime
  | some parts =>
    match parts.clock with
    | none => if parts.date.isValid then return .date parts.date else throw .outOfRange
    | some (hour, minute, second, fraction, offset) =>
      let micro := natOf ((fraction ++ List.replicate 6 '0').take 6)
      let t : Moment := ⟨parts.date, hour, minute, second, micro, offset⟩
      if t.isValid then return .moment t else throw .outOfRange

end ThemedCss.Yaml.Literal
