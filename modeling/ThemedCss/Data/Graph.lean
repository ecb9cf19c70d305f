import ThemedCss.Data.Value

/-! Data whose parts may stand in several places, and even inside themselves. -/
namespace ThemedCss.Data

/-- A part of a graph: a value that stands for itself, or the cell at a place. -/
inductive Part where
  | plain (v : Value)
  | cell (place : Nat)
deriving Repr, Inhabited

/-- What a graph keeps at a place. A lone value is not a collection, but one that may stand in
several places. -/
inductive Cell where
  | lone (v : Value)
  | list (items : List Part)
  | pair (first second : Part)
  | set (members : List Part)
  | map (entries : List (Part × Part))
deriving Repr, Inhabited

/-- The same part if its cell stands behind `n` others. -/
def Part.moved (n : Nat) : Part → Part
  | plain v => .plain v
  | cell place => .cell (n + place)

namespace Cell

/-- The same cell if all others stand behind `n` more. -/
def moved (n : Nat) : Cell → Cell
  | lone v => lone v
  | list items => list (items.map (·.moved n))
  | pair a b => pair (a.moved n) (b.moved n)
  | set members => set (members.map (·.moved n))
  | map entries => map (entries.map fun e => (e.1.moved n, e.2.moved n))

def value (inner : Part → Value) : Cell → Value
  | lone v => v
  | list items => .list (items.map inner)
  | pair a b => .pair (inner a) (inner b)
  | set members => .set (members.map inner)
  | map entries => .map (entries.map fun e => (inner e.1, inner e.2))

/-- What stands for a cell inside itself. -/
def enclosed : Cell → Value
  | lone v => v
  | map _ => .enclosing true
  | _ => .enclosing false

end Cell

/-- All cells, and the part that everything hangs on. -/
structure Graph where
  cells : Array Cell
  root : Part
deriving Repr

namespace Graph

def empty : Graph :=
  ⟨#[.map []], .cell 0⟩

/-- The graph with its cells behind others, which belong to no part of it. -/
def behind (cells : Array Cell) (g : Graph) : Graph :=
  ⟨(cells.toList ++ g.cells.toList.map (·.moved cells.size)).toArray, g.root.moved cells.size⟩

def cell? (cells : Array Cell) : Part → Option Cell
  | .plain _ => none
  | .cell p => cells[p]?

/-- The value of a part that is not a collection. -/
def lone? (cells : Array Cell) : Part → Option Value
  | .plain v => some v
  | .cell p =>
    match cells[p]? with
    | some (.lone v) => some v
    | _ => none

def entries? (cells : Array Cell) (part : Part) : Option (List (Part × Part)) :=
  match cell? cells part with
  | some (.map entries) => some entries
  | _ => none

/-- Whether two parts are the same key. A cell that holds no number is the same as itself only. -/
def sameKey (cells : Array Cell) (a b : Part) : Bool :=
  let unequal : Option Value → Bool
    | some (.float .nan) => true
    | _ => false
  match a, b with
  | .cell p, .cell q =>
    p == q || (!unequal (lone? cells a) &&
      ((lone? cells a).bind fun v => (lone? cells b).map v.sameKey).getD false)
  | .plain v, .plain w => v.sameKey w
  | .plain v, .cell _ => !unequal (lone? cells b) && ((lone? cells b).map v.sameKey).getD false
  | .cell _, .plain w => !unequal (lone? cells a) && ((lone? cells a).map (·.sameKey w)).getD false

/-- Set the value of a key. A key that is there keeps its place and its form. -/
def insert (cells : Array Cell) (k v : Part) : List (Part × Part) → List (Part × Part)
  | [] => [(k, v)]
  | (k', v') :: rest =>
    if sameKey cells k' k then (k', v) :: rest else (k', v') :: insert cells k v rest

def find? (cells : Array Cell) (k : Part) : List (Part × Part) → Option Part
  | [] => none
  | (k', v) :: rest => if sameKey cells k' k then some v else find? cells k rest

/-- The value of a part. `around` are the places of the collections it stands in, and `bound` more
may follow. -/
def valueOf (cells : Array Cell) : Nat → List Nat → Part → Value
  | _, _, .plain v => v
  | 0, _, .cell _ => .null
  | bound + 1, around, .cell p =>
    match cells[p]? with
    | none => .null
    | some c =>
      if around.contains p then c.enclosed else c.value (valueOf cells bound (p :: around))

/-- A place occurs once at most among the collections around a part. -/
def value (g : Graph) (part : Part) : Value :=
  valueOf g.cells (g.cells.size + 1) [] part

def toValue (g : Graph) : Value :=
  g.value g.root

def push (cells : Array Cell) (c : Cell) : Array Cell × Part :=
  (cells.push c, .cell cells.size)

mutual
/-- Add a value, with cells of its own. -/
def add (cells : Array Cell) : Value → Array Cell × Part
  | .list items =>
    let (cells, items) := addAll cells items
    push cells (.list items)
  | .set members =>
    let (cells, members) := addAll cells members
    push cells (.set members)
  | .map entries =>
    let (cells, entries) := addEntries cells entries
    push cells (.map entries)
  | .pair a b =>
    let (cells, a) := add cells a
    let (cells, b) := add cells b
    push cells (.pair a b)
  | .date d => push cells (.lone (.date d))
  | .moment t => push cells (.lone (.moment t))
  | v => (cells, .plain v)

def addAll (cells : Array Cell) : List Value → Array Cell × List Part
  | [] => (cells, [])
  | v :: rest =>
    let (cells, part) := add cells v
    let (cells, parts) := addAll cells rest
    (cells, part :: parts)

def addEntries (cells : Array Cell) : List (Value × Value) → Array Cell × List (Part × Part)
  | [] => (cells, [])
  | (k, v) :: rest =>
    let (cells, k) := add cells k
    let (cells, v) := add cells v
    let (cells, entries) := addEntries cells rest
    (cells, (k, v) :: entries)
end

end Graph

/-- What callers hand over and get: data of their own, or a part that is in the graph. -/
inductive Given where
  | new (v : Value)
  | live (part : Part)
deriving Repr

namespace Given

/-- Data of a caller get cells, parts have theirs. -/
def place (cells : Array Cell) : Given → Array Cell × Part
  | new v => Graph.add cells v
  | live part => (cells, part)

def value (g : Graph) : Given → Value
  | new v => v
  | live part => g.value part

def isMapping (g : Graph) : Given → Bool
  | new v => v.entries?.isSome
  | live part => (Graph.entries? g.cells part).isSome

end Given

namespace Graph

inductive AccessFault where
  /-- Collections are no keys. -/
  | notKey
  | outOfRange
  /-- What is no collection has no members. -/
  | noMembers
deriving DecidableEq, Repr

/-- The part behind a chain of keys of mappings, if there is one. -/
def get? (g : Graph) : Part → List Value → Except AccessFault (Option Part)
  | part, [] => .ok (some part)
  | part, k :: rest =>
    match entries? g.cells part with
    | none => .ok none
    | some entries =>
      if !k.isKey then .error .notKey
      else
        match find? g.cells (.plain k) entries with
        | some next => g.get? next rest
        | none => .ok none

/-- The position that an integer names in a list of a length; negative ones count from the end. -/
def position? (length : Nat) (n : Int) : Option Nat :=
  let i := if n < 0 then n + length else n
  if 0 ≤ i && i < length then some i.toNat else none

/-- Set the member of a collection. A list has members at the integers. -/
def assign (g : Graph) (target : Part) (k : Value) (v : Part) : Except AccessFault Graph :=
  match target, cell? g.cells target with
  | .cell p, some (.map entries) =>
    if k.isKey then
      .ok { g with cells := g.cells.setIfInBounds p (.map (insert g.cells (.plain k) v entries)) }
    else .error .notKey
  | .cell p, some (.list items) =>
    match k.int? with
    | none => .error .notKey
    | some n =>
      match position? items.length n with
      | some i => .ok { g with cells := g.cells.setIfInBounds p (.list (items.set i v)) }
      | none => .error .outOfRange
  | _, _ => .error .noMembers

/-- The mapping that is a member of a collection, if it is one. A list is asked only if it holds the
key as an item. -/
def member? (g : Graph) (target : Part) (k : Value) : Except AccessFault (Option Part) := do
  let isMapping (part : Part) : Option Part := (entries? g.cells part).map fun _ => part
  match cell? g.cells target with
  | some (.map entries) =>
    if k.isKey then return (find? g.cells (.plain k) entries).bind isMapping else throw .notKey
  | some (.list items) =>
    match k.int? with
    | none => throw .notKey
    | some n =>
      if items.any (sameKey g.cells (.plain k)) then
        match position? items.length n with
        | some i => return (items[i]?).bind isMapping
        | none => throw .outOfRange
      else return none
  | _ => throw .noMembers

/-- Set what stands behind a chain of keys. What stands in the way and is no mapping becomes one.
What was changed before a fault stays changed. -/
def set (g : Graph) (target : Part) (k : Value) (v : Given) :
    List Value → Graph × Option AccessFault
  | [] =>
    let (cells, part) := v.place g.cells
    match assign { g with cells } target k part with
    | .ok g => (g, none)
    | .error f => (g, some f)
  | next :: rest =>
    match g.member? target k with
    | .error f => (g, some f)
    | .ok (some inner) => set g inner next v rest
    | .ok none =>
      let (cells, inner) := push g.cells (.map [])
      match assign { g with cells } target k inner with
      | .ok g => set g inner next v rest
      | .error f => (g, some f)

end Graph
end ThemedCss.Data
