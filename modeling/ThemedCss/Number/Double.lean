/-! Binary floating-point numbers of 64 bits, as exact data. -/
namespace ThemedCss.Number

/-- A finite number is `mantissa · 2 ^ exponent`. The mantissa has 53 bits unless the exponent is
the least one. -/
inductive Double where
  | finite (negative : Bool) (mantissa : Nat) (exponent : Int)
  | infinite (negative : Bool)
  | nan
deriving DecidableEq, Repr

namespace Double

def leastExponent : Int := -1074

def greatestExponent : Int := 971

def zero (negative : Bool) : Double :=
  .finite negative 0 leastExponent

/-- The quotient rounded to the nearest natural number; a half goes to the even one. -/
def roundQuotient (num den : Nat) : Nat :=
  let q := num / den
  let twice := 2 * (num % den)
  if twice < den then q else if den < twice then q + 1 else q + q % 2

/-- `num / den` in units of `2 ^ e`, as a fraction. -/
def inUnits (num den : Nat) (e : Int) : Nat × Nat :=
  if 0 ≤ e then (num, den * Nat.pow 2 e.toNat) else (num * Nat.pow 2 (-e).toNat, den)

/-- The number nearest to a fraction; a half goes to the even mantissa. -/
def ofFraction (negative : Bool) (num den : Nat) : Double :=
  if num = 0 ∨ den = 0 then zero negative
  else
    let guess : Int := num.log2 - den.log2 - 53
    let (n, d) := inUnits num den guess
    let e := max leastExponent (if n / d < Nat.pow 2 53 then guess else guess + 1)
    let (n, d) := inUnits num den e
    let m := roundQuotient n d
    let (m, e) := if m = Nat.pow 2 53 then (Nat.pow 2 52, e + 1) else (m, e)
    if greatestExponent < e then .infinite negative else .finite negative m e

/-- The number nearest to `digits · 10 ^ exponent`. Exponents far out of range are not multiplied
out. -/
def ofDecimal (negative : Bool) (digits : Nat) (exponent : Int) : Double :=
  let length : Int := (Nat.toDigits 10 digits).length
  if digits = 0 then zero negative
  else if 400 < exponent + length then .infinite negative
  else if exponent + length < -400 then zero negative
  else if 0 ≤ exponent then ofFraction negative (digits * Nat.pow 10 exponent.toNat) 1
  else ofFraction negative digits (Nat.pow 10 (-exponent).toNat)

def ofInt (n : Int) : Double :=
  ofFraction (n < 0) n.natAbs 1

/-- The fraction a finite number stands for, without its sign. -/
def magnitude (m : Nat) (e : Int) : Nat × Nat :=
  if 0 ≤ e then (m * Nat.pow 2 e.toNat, 1) else (m, Nat.pow 2 (-e).toNat)

def isInt (x : Double) (n : Int) : Bool :=
  match x with
  | .finite negative m e =>
    let (num, den) := magnitude m e
    n.natAbs * den == num && (num == 0 || negative == (n < 0))
  | _ => false

def toInt? : Double → Option Int
  | .finite negative m e =>
    let (num, den) := magnitude m e
    if num % den = 0 then
      let n : Int := (num / den : Nat)
      some (if negative then -n else n)
    else none
  | _ => none

/-- Zeros are equal whatever their sign. Two that are no numbers count as equal too. -/
def same : Double → Double → Bool
  | .finite s m e, .finite s' m' e' => m == m' && (m == 0 || (s == s' && e == e'))
  | .infinite s, .infinite s' => s == s'
  | .nan, .nan => true
  | _, _ => false

def isZero : Double → Bool
  | .finite _ m _ => m == 0
  | _ => false

def negate : Double → Double
  | .finite s m e => .finite (!s) m e
  | .infinite s => .infinite (!s)
  | .nan => .nan

/-- The integer numerator of a finite number over `2 ^ k`, where the exponent is at least `-k`. -/
def numerator (negative : Bool) (m : Nat) (e : Int) (k : Nat) : Int :=
  let n : Int := (m * Nat.pow 2 (e + k).toNat : Nat)
  if negative then -n else n

/-- The sum, rounded once. A sum of zero is negative only if both numbers are. -/
def add : Double → Double → Double
  | .finite s m e, .finite s' m' e' =>
    let k := (max 0 (max (-e) (-e'))).toNat
    let sum := numerator s m e k + numerator s' m' e' k
    if sum = 0 then zero (s && s') else ofFraction (sum < 0) sum.natAbs (Nat.pow 2 k)
  | .infinite s, .infinite s' => if s == s' then .infinite s else .nan
  | .nan, _ | _, .nan => .nan
  | .infinite s, _ | _, .infinite s => .infinite s

def mul : Double → Double → Double
  | .finite s m e, .finite s' m' e' =>
    let (a, b) := magnitude m e
    let (c, d) := magnitude m' e'
    ofFraction (s != s') (a * c) (b * d)
  | .nan, _ | _, .nan => .nan
  | .infinite s, .infinite s' => .infinite (s != s')
  | .infinite s, .finite s' m _ | .finite s' m _, .infinite s =>
    if m = 0 then .nan else .infinite (s != s')

/-- Order of two numbers; false if one of them is no number. -/
def less : Double → Double → Bool
  | .finite s m e, .finite s' m' e' =>
    let (a, b) := magnitude m e
    let (c, d) := magnitude m' e'
    let x : Int := (a * d : Nat)
    let y : Int := (c * b : Nat)
    (if s then -x else x) < (if s' then -y else y)
  | .infinite s, .infinite s' => s && !s'
  | .infinite s, .finite .. => s
  | .finite .., .infinite s => !s
  | _, _ => false

end Double
end ThemedCss.Number
