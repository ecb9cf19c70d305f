import ThemedCss.Data.Value
import ThemedCss.Path

/-! Themes, and the chains of members they have. -/
namespace ThemedCss.Theme
open ThemedCss.Data

mutual
/-- The ways to all parts of a mapping, below `way`; true marks those that lead to something other
than a mapping. A mapping that holds itself has no end of them. -/
def waysOf? (way : List String) : Value → Option (List (List String × Bool))
  | .map entries => waysOfEntries? way entries
  | .enclosing true => none
  | _ => some []

def waysOfEntries? (way : List String) : List (Value × Value) → Option (List (List String × Bool))
  | [] => some []
  | (k, v) :: rest => do
    let here := way ++ [k.shown]
    let leaf := match v with
      | .map _ => false
      | _ => true
    return (here, leaf) :: (← waysOf? here v) ++ (← waysOfEntries? way rest)
end

/-- A theme. `paths` are the accessors that lead somewhere, `leaves` those behind which nothing is
known. -/
structure Environment where
  path : Path
  data : List (Value × Value)
  paths : List (List String)
  leaves : List (List String)

/-- A key of the root of a theme that is not text. -/
structure ForeignKey where
  key : Value
  /-- Bytes stand for text, but not these. -/
  notUtf8 : Bool
deriving Repr

/-- Where a foreign key is reported; truth values are reported as numbers. -/
def ForeignKey.place (k : ForeignKey) : String :=
  match k.key with
  | .bool b => if b then "1" else "0"
  | v => v.term

/-- The keys of the root have to be text; bytes are read as text. -/
def textKeys : List (Value × Value) → List (Value × Value) × List ForeignKey
  | [] => ([], [])
  | (k, v) :: rest =>
    let (entries, foreign) := textKeys rest
    match k with
    | .text s => ((.text s, v) :: entries, foreign)
    | .bytes b =>
      match Text.decode b with
      | .ok cs => ((.text (String.ofList cs), v) :: entries, foreign)
      | .error _ => (entries, ⟨k, true⟩ :: foreign)
    | _ => (entries, ⟨k, false⟩ :: foreign)

inductive DataFault where
  /-- A mapping holds itself. -/
  | endless
  | foreignKeys (keys : List ForeignKey)

namespace Environment

/-- The theme in a mapping, unless its root has foreign keys. -/
def ofData (path : Path) (data : List (Value × Value)) : Except DataFault Environment :=
  match waysOfEntries? [] data, textKeys data with
  | none, _ => .error .endless
  | some ways, (entries, []) =>
    .ok
      { path
        data := entries.foldl (fun m (k, v) => Value.insert k v m) []
        paths := (ways.map (·.1)).eraseDups
        leaves := ((ways.filter (·.2)).map (·.1)).eraseDups }
  | some _, (_, foreign) => .error (.foreignKeys foreign)

/-- Follow a chain from `way`: past a leaf anything goes, an unknown part before one does not. -/
def allowsFrom (e : Environment) (way : List String) : List String → Bool
  | [] => true
  | segment :: rest =>
    let here := way ++ [segment]
    if e.leaves.contains here then true
    else if e.paths.contains here then allowsFrom e here rest
    else false

/-- Whether a chain of members of the theme stays on what is known. -/
def allows (e : Environment) (chain : List String) : Bool :=
  e.allowsFrom [] chain

end Environment
end ThemedCss.Theme
