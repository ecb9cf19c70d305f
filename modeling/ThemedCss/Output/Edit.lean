import ThemedCss.Text.Utf8

/-! Edits of byte ranges. -/
namespace ThemedCss.Output
open ThemedCss.Text

/-- Put `text` in place of the bytes from `start` up to `stop`. Negative positions count from the
end. -/
structure Edit where
  start : Int
  stop : Int
  text : Bytes
deriving DecidableEq, Repr

/-- Later edits come first; equal ranges keep their order. -/
def Edit.notBefore (a b : Edit) : Bool :=
  b.start < a.start || (b.start == a.start && b.stop ≤ a.stop)

/-- The number of bytes before a position. -/
def place (bytes : Bytes) (pos : Int) : Nat :=
  if pos < 0 then (bytes.length + pos).toNat else pos.toNat

/-- Apply edits from the last one to the first. `limit` is where the edit before started; an edit
that ends after it overlaps, and its start is the error. -/
def applySorted : Int → Bytes → List Edit → Except Int Bytes
  | _, bytes, [] => .ok bytes
  | limit, bytes, e :: rest =>
    if limit < e.stop then .error e.start
    else applySorted e.start (bytes.take (place bytes e.start) ++ e.text ++
      bytes.drop (place bytes e.stop)) rest

/-- Apply edits in any order. Fails with a byte position if two of them overlap. -/
def apply (source : Bytes) (edits : List Edit) : Except Int Bytes :=
  applySorted (source.length + 1) source (edits.mergeSort Edit.notBefore)

def overlapMessage (pos : Int) : String :=
  s!"overlapping edits at byte {pos}"

end ThemedCss.Output
