/-! Tables that keep the order in which their keys first came. -/
namespace ThemedCss

/-- Entries in order; the first entry of a key counts. -/
abbrev Table (κ α : Type) := List (κ × α)

namespace Table

variable {κ α : Type} [DecidableEq κ]

/-- Set the value of a key. A new key goes to the end, a known one keeps its place. -/
def insert (k : κ) (a : α) : Table κ α → Table κ α
  | [] => [(k, a)]
  | (k', a') :: rest => if k' = k then (k', a) :: rest else (k', a') :: insert k a rest

def get? (t : Table κ α) (k : κ) : Option α :=
  match t with
  | [] => none
  | (k', a) :: rest => if k' = k then some a else get? rest k

def has (t : Table κ α) (k : κ) : Bool :=
  (t.get? k).isSome

def keys (t : Table κ α) : List κ :=
  t.map (·.1)

def insertAll (entries : List (κ × α)) (t : Table κ α) : Table κ α :=
  entries.foldl (fun t (k, a) => t.insert k a) t

/-- Add the given keys that are new, each with its value, then the keys that these values name, and
so on for at most `rounds` rounds. -/
def grow (value : κ → α) (names : α → List κ) : Nat → List κ → Table κ α → Table κ α
  | 0, _, t => t
  | rounds + 1, ks, t =>
    match (ks.filter fun k => !t.has k).eraseDups with
    | [] => t
    | new =>
      let added := new.map fun k => (k, value k)
      grow value names rounds (added.flatMap fun (_, a) => names a) (t ++ added)

end Table
end ThemedCss
