import ThemedCss.Data.Graph
import ThemedCss.Text.Base64
import ThemedCss.Yaml.Literal

/-! The data in a YAML text. -/
namespace ThemedCss.Yaml
open ThemedCss.Data ThemedCss.Text

def scalarValue (tag : Tag) (text : String) : Except Fault Value :=
  match tag with
  | .null => .ok .null
  | .bool => (Literal.bool text).map .bool
  | .int => (Literal.int text).map .int
  | .float => (Literal.float text).map .float
  | .text => .ok (.text text)
  | .time => Literal.time text
  | .binary =>
    if text.toList.all (·.toNat < 128) then
      match Base64.decodeLoose? text.toList with
      | some b => .ok (.bytes b)
      | none => .error .malformed
    else .error .malformed
  | _ => .error .malformed

/-- The part of a graph that each node became, once it is known, the cells so far, and the
collections that are not filled yet, the last one first: their nodes with the places of their
cells. -/
structure BuildState where
  nodes : Array Node
  parts : Array (Option Part)
  cells : Array Cell
  pending : List (Nat × Nat)
  /-- How many entries ask for the entries of other mappings at the most. -/
  merges : Nat

/-- Every node becomes one part. Collections begin empty and are filled in turns, those of a turn in
the order in which they began. -/
abbrev Builder := StateT BuildState (Except Fault)

namespace Builder

def nodeAt (n : Nat) : Builder Node := return (← get).nodes.getD n default

def setNode (n : Nat) (node : Node) : Builder Unit :=
  modify fun s => { s with nodes := s.nodes.setIfInBounds n node }

def newCell (c : Cell) : Builder Nat := do
  let s ← get
  set { s with cells := s.cells.push c }
  return s.cells.size

/-- The text of a scalar; a mapping may name it under an equals sign. At most `bound` mappings are
looked into. -/
def scalarText : Nat → Nat → Builder String
  | 0, _ => throw .endless
  | bound + 1, n => do
    match ← nodeAt n with
    | .scalar _ text => return text
    | .sequence .. => throw .malformed
    | .mapping _ entries =>
      let nodes := (← get).nodes
      match entries.find? fun (k, _) => (nodes.getD k default).tag == .value with
      | some (_, v) => scalarText bound v
      | none => throw .malformed

/-- The part of a scalar. Points in time, and what is no number without its usual name, are told
apart from others that look the same. -/
def scalarPart (n : Nat) (tag : Tag) : Builder Part := do
  let text ← scalarText ((← get).nodes.size + 1) n
  let v ← scalarValue tag text
  match v with
  | .date _ | .moment _ => return .cell (← newCell (.lone v))
  | .float .nan =>
    if Literal.isNanName text then return .plain v else return .cell (← newCell (.lone v))
  | _ => return .plain v

/-- The part a node becomes. A collection is filled later. -/
def part (n : Nat) : Builder Part := do
  match (← get).parts.getD n none with
  | some p => return p
  | none =>
    let empty : Option Cell → Builder Part
      | none => do scalarPart n (← nodeAt n).tag
      | some c => do
        let place ← newCell c
        modify fun s => { s with pending := (n, place) :: s.pending }
        return .cell place
    let p ← empty <|
      match (← nodeAt n).tag with
      | .map => some (.map [])
      | .set => some (.set [])
      | .list | .omap | .pairs => some (.list [])
      | _ => none
    modify fun s => { s with parts := s.parts.setIfInBounds n (some p) }
    return p

def entriesOf (n : Nat) : Builder (List (Nat × Nat)) := do
  match ← nodeAt n with
  | .mapping _ entries => return entries
  | _ => throw .malformed

def setEntries (n : Nat) (entries : List (Nat × Nat)) : Builder Unit := do
  setNode n (.mapping (← nodeAt n).tag entries)

/-- The first of some entries that asks for the entries of other mappings, with its position. On the
way there an equals sign as a key becomes text. -/
def nextMerge (i : Nat) : List (Nat × Nat) → Builder (Option (Nat × Nat))
  | [] => return none
  | (k, v) :: rest => do
    let node ← nodeAt k
    match node.tag with
    | .merge => return some (i, v)
    | .value =>
      setNode k (node.withTag .text)
      nextMerge (i + 1) rest
    | _ => nextMerge (i + 1) rest

/-- Take the entries of other mappings into one, before its own; the entries that ask for them go.
Those before `index` do not ask, `taken` have been taken already, and no more than `merges` in the
document still ask. -/
def flatten : Nat → Nat → Nat → List (Nat × Nat) → Builder Unit
  | 0, _, _, _ => return
  | merges + 1, n, index, taken => do
    let entries ← entriesOf n
    match ← nextMerge index (entries.drop index) with
    | none => unless taken.isEmpty do setEntries n (taken ++ entries)
    | some (i, v) =>
      setEntries n (entries.eraseIdx i)
      let whole (m : Nat) : Builder (List (Nat × Nat)) := do
        let _ ← entriesOf m
        flatten merges m 0 []
        entriesOf m
      let more ←
        match ← nodeAt v with
        | .mapping .. => whole v
        | .sequence _ items => pure (← items.mapM whole).reverse.flatten
        | .scalar .. => throw .malformed
      flatten merges n i (taken ++ more)

def mappingParts (n : Nat) : Builder (List (Part × Part)) := do
  flatten ((← get).merges + 1) n 0 []
  (← entriesOf n).foldlM (fun entries (k, v) => do
    let k ← part k
    match Graph.lone? (← get).cells k with
    | some _ => pure ()
    | none => throw .malformed
    let v ← part v
    return Graph.insert (← get).cells k v entries) []

def pairPart (n : Nat) : Builder Part := do
  match ← entriesOf n with
  | [(k, v)] =>
    let k ← part k
    let v ← part v
    return .cell (← newCell (.pair k v))
  | _ => throw .malformed

def fill (n place : Nat) : Builder Unit := do
  let node ← nodeAt n
  let c ←
    match node.tag, node with
    | .map, _ => pure (Cell.map (← mappingParts n))
    | .set, _ => pure (Cell.set ((← mappingParts n).map (·.1)))
    | .list, .sequence _ items => pure (Cell.list (← items.mapM part))
    | .omap, .sequence _ items | .pairs, .sequence _ items =>
      pure (Cell.list (← items.mapM pairPart))
    | _, _ => throw .malformed
  modify fun s => { s with cells := s.cells.setIfInBounds place c }

/-- Fill collections until none is left. Each node begins one collection at most. -/
def fillAll : Nat → Builder Unit
  | 0 => return
  | turns + 1 => do
    let waiting := (← get).pending.reverse
    unless waiting.isEmpty do
      modify fun s => { s with pending := [] }
      waiting.forM fun (n, place) => fill n place
      fillAll turns

end Builder

/-- The number of entries of a document that ask for the entries of other mappings. -/
def Document.mergeCount (d : Document) : Nat :=
  (d.nodes.toList.map fun
    | .mapping _ entries => entries.countP fun (k, _) => (d.nodes.getD k default).tag == .merge
    | _ => 0).foldr (· + ·) 0

def Document.graph (d : Document) : Except Fault Graph := do
  let build : Builder Part := do
    let root ← Builder.part d.root
    Builder.fillAll (d.nodes.size + 1)
    return root
  let (root, s) ← StateT.run build
    ⟨d.nodes, Array.replicate d.nodes.size none, #[], [], d.mergeCount⟩
  return ⟨s.cells, root⟩

def unifyLineEnds : List Char → List Char
  | [] => []
  | '\r' :: '\n' :: rest => '\n' :: unifyLineEnds rest
  | '\r' :: rest => '\n' :: unifyLineEnds rest
  | c :: rest => c :: unifyLineEnds rest

/-- The data of a text; an empty one holds nothing. -/
def read (cs : List Char) : Except Fault Graph := do
  let tokens ← tokenize (unifyLineEnds cs)
  match ← Document.ofTokens? Literal.tagOf tokens with
  | none => return ⟨#[], .plain .null⟩
  | some d => d.graph

end ThemedCss.Yaml
