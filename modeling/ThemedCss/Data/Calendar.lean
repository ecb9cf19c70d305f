/-! Dates and times of day. -/
namespace ThemedCss.Data

structure Date where
  year : Nat
  month : Nat
  day : Nat
deriving DecidableEq, Repr

/-- A date with a time of day. `offset` is the distance from universal time in minutes, where it is
known. -/
structure Moment where
  date : Date
  hour : Nat
  minute : Nat
  second : Nat
  micro : Nat
  offset : Option Int
deriving DecidableEq, Repr

/-- At least `width` decimal digits. -/
def digits (width n : Nat) : String :=
  let ds := Nat.toDigits 10 n
  String.ofList (List.replicate (width - ds.length) '0' ++ ds)

namespace Date

def isLeap (year : Nat) : Bool :=
  year % 4 == 0 && (year % 100 != 0 || year % 400 == 0)

def daysIn (year month : Nat) : Nat :=
  match month with
  | 4 | 6 | 9 | 11 => 30
  | 2 => if isLeap year then 29 else 28
  | _ => 31

/-- Years have four digits and start at 1. -/
def isValid (d : Date) : Bool :=
  1 ≤ d.year && d.year ≤ 9999 && 1 ≤ d.month && d.month ≤ 12 && 1 ≤ d.day &&
    d.day ≤ daysIn d.year d.month

/-- The number of days up to a date, counted from the first day of the year 1. -/
def ordinal (d : Date) : Nat :=
  let y := d.year - 1
  let months := (List.range (d.month - 1)).map fun m => daysIn d.year (m + 1)
  365 * y + y / 4 - y / 100 + y / 400 + months.foldr (· + ·) 0 + d.day

def text (d : Date) : String :=
  s!"{digits 4 d.year}-{digits 2 d.month}-{digits 2 d.day}"

end Date

namespace Moment

/-- An offset is less than a day. -/
def isValid (t : Moment) : Bool :=
  t.date.isValid && t.hour < 24 && t.minute < 60 && t.second < 60 &&
    match t.offset with
    | some o => o.natAbs < 1440
    | none => true

/-- The microseconds up to a moment in universal time, or, where the offset is not known, on the
clock. -/
def instant (t : Moment) : Int :=
  let minutes : Int := (1440 * t.date.ordinal + 60 * t.hour + t.minute : Nat) - t.offset.getD 0
  60000000 * minutes + (1000000 * t.second + t.micro : Nat)

/-- Moments are the same if they name the same time, whatever their offset. One without offset is
never the same as one with. -/
def same (t u : Moment) : Bool :=
  t.offset.isSome == u.offset.isSome && t.instant == u.instant

def offsetText (o : Int) : String :=
  let sign := if o < 0 then "-" else "+"
  s!"{sign}{digits 2 (o.natAbs / 60)}:{digits 2 (o.natAbs % 60)}"

/-- `separator` stands between the date and the time. -/
def text (separator : String) (t : Moment) : String :=
  let fraction := if t.micro = 0 then "" else "." ++ digits 6 t.micro
  let zone := (t.offset.map offsetText).getD ""
  s!"{t.date.text}{separator}{digits 2 t.hour}:{digits 2 t.minute}:{digits 2 t.second}{fraction}{zone}"

end Moment
end ThemedCss.Data
