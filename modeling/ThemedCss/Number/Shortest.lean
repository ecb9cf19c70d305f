import ThemedCss.Number.Double

/-! The shortest decimal that reads back as a given number. -/
namespace ThemedCss.Number.Double

/-- The decimals between which everything is read as the number `m · 2 ^ e`: two numerators over one
denominator, and the number itself over the same. Below a power of two the gap is half as wide. -/
def readRange (m : Nat) (e : Int) : Nat × Nat × Nat × Nat :=
  let narrow := m = Nat.pow 2 52 ∧ leastExponent < e
  let (low, mid, high) :=
    if narrow then (4 * m - 1, 4 * m, 4 * m + 2) else (4 * m - 2, 4 * m, 4 * m + 2)
  if 0 ≤ e then (low * Nat.pow 2 e.toNat, mid * Nat.pow 2 e.toNat, high * Nat.pow 2 e.toNat, 4)
  else (low, mid, high, 4 * Nat.pow 2 (-e).toNat)

/-- `num / den` in units of `10 ^ p`, as a fraction. -/
def inDecimalUnits (num den : Nat) (p : Int) : Nat × Nat :=
  if 0 ≤ p then (num, den * Nat.pow 10 p.toNat) else (num * Nat.pow 10 (-p).toNat, den)

/-- The multiple of `10 ^ p` that is read as the number and lies nearest to it, if one is. Of two
that are equally near the even one is taken. -/
def decimalAt? (m : Nat) (e p : Int) : Option Nat :=
  let (low, mid, high, den) := readRange m e
  let inside (k : Nat) : Bool :=
    let (l, d) := inDecimalUnits low den p
    let (h, _) := inDecimalUnits high den p
    if m % 2 = 0 then l ≤ k * d && k * d ≤ h else l < k * d && k * d < h
  let (n, d) := inDecimalUnits mid den p
  let nearest := roundQuotient n d
  let other := if nearest * d ≤ n then nearest + 1 else nearest - 1
  if inside nearest then some nearest
  else if inside other then some other
  else none

/-- The number of digits before the point: the least `k` with `num / den < 10 ^ k`, counted from
`guess` upwards. -/
def decimalPlace (num den : Nat) : Nat → Int → Int
  | 0, guess => guess
  | steps + 1, guess =>
    let (n, d) := inDecimalUnits num den guess
    if n < d then guess else decimalPlace num den steps (guess + 1)

/-- Try ever finer decimal grids, from one digit on. -/
def searchDecimal (m : Nat) (e place : Int) : Nat → Nat → Nat × Int
  | 0, _ => (0, 0)
  | steps + 1, digits =>
    let p := place - digits
    match decimalAt? m e p with
    | some k => if k = 0 then searchDecimal m e place steps (digits + 1) else (k, p)
    | none => searchDecimal m e place steps (digits + 1)

/-- Digits and exponent of the shortest decimal for `m · 2 ^ e`; 17 digits always suffice. -/
def shortest (m : Nat) (e : Int) : Nat × Int :=
  let (num, den) := magnitude m e
  let guess : Int := (((num.log2 : Int) - den.log2 - 1) * 30103) / 100000 - 1
  searchDecimal m e (decimalPlace num den 6 guess) 18 1

def trimZeros : Nat → Nat → Int → Nat × Int
  | 0, digits, p => (digits, p)
  | steps + 1, digits, p =>
    if digits % 10 = 0 ∧ digits ≠ 0 then trimZeros steps (digits / 10) (p + 1) else (digits, p)

/-- The text of a number: positional if the point stands at most four places left of the digits or
sixteen right of their start, else with an exponent of at least two digits. -/
def text : Double → String
  | .nan => "nan"
  | .infinite negative => if negative then "-inf" else "inf"
  | .finite negative m e =>
    let sign := if negative then "-" else ""
    if m = 0 then sign ++ "0.0"
    else
      let (digits, p) := shortest m e
      let (digits, p) := trimZeros 20 digits p
      let ds := Nat.toDigits 10 digits
      let place : Int := p + ds.length
      let body :=
        if -4 < place ∧ place ≤ 16 then
          if place ≤ 0 then "0." ++ String.ofList (List.replicate (-place).toNat '0' ++ ds)
          else if ds.length ≤ place.toNat then
            String.ofList (ds ++ List.replicate (place.toNat - ds.length) '0') ++ ".0"
          else String.ofList (ds.take place.toNat ++ '.' :: ds.drop place.toNat)
        else
          let x := place - 1
          let mark := if x < 0 then "e-" else "e+"
          let xs := Nat.toDigits 10 x.natAbs
          let fraction := match ds.drop 1 with
            | [] => []
            | more => '.' :: more
          String.ofList (ds.take 1 ++ fraction) ++ mark ++
            String.ofList (List.replicate (2 - xs.length) '0' ++ xs)
      sign ++ body

end ThemedCss.Number.Double
