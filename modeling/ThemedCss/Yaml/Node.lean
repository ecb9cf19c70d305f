import ThemedCss.Yaml.Lexer

/-! The nodes of a YAML document. -/
namespace ThemedCss.Yaml

inductive Tag where
  | null | bool | int | float | text | binary | time | merge | value
  | list | map | set | omap | pairs
  | other (name : String)
deriving DecidableEq, Repr

def Tag.core : List (String × Tag) :=
  [("null", .null), ("bool", .bool), ("int", .int), ("float", .float), ("str", .text),
   ("binary", .binary), ("timestamp", .time), ("merge", .merge), ("value", .value), ("seq", .list),
   ("map", .map), ("set", .set), ("omap", .omap), ("pairs", .pairs)]

/-- The names of the core tags start like this. -/
def Tag.corePrefix : String :=
  "tag:yaml.org,2002:"

def Tag.ofName (name : String) : Tag :=
  if name.startsWith corePrefix then
    (core.lookup (name.drop corePrefix.length).toString).getD (.other name)
  else .other name

/-- A node of a document. Collections name their parts by their positions among all nodes of the
document, so that a reference names the very node it stands for, even from inside of it. -/
inductive Node where
  | scalar (tag : Tag) (text : String)
  | sequence (tag : Tag) (items : List Nat)
  | mapping (tag : Tag) (entries : List (Nat × Nat))
deriving Repr

instance : Inhabited Node := ⟨.scalar .null ""⟩

def Node.tag : Node → Tag
  | .scalar tag _ | .sequence tag _ | .mapping tag _ => tag

def Node.withTag (tag : Tag) : Node → Node
  | .scalar _ text => .scalar tag text
  | .sequence _ items => .sequence tag items
  | .mapping _ entries => .mapping tag entries

structure DocState where
  tokens : List Token
  nodes : Array Node
  anchors : List (String × Nat)
  handles : List (String × String)

abbrev DocReader := StateT DocState (Except Fault)

namespace DocReader

def malformed {α : Type} : DocReader α :=
  throw .malformed

def peek : DocReader Token := return (← get).tokens.headD .streamEnd

def advance : DocReader Unit :=
  modify fun s => { s with tokens := s.tokens.tail }

/-- The place a node stands in tells which collections may start there. -/
inductive Place where
  | block
  /-- A value of a mapping: a sequence need not be deeper than its key. -/
  | value
  | flow
deriving DecidableEq

abbrev Rules := Place → DocReader Nat

def fresh (n : Node) : DocReader Nat := do
  let s ← get
  set { s with nodes := s.nodes.push n }
  return s.nodes.size

def absent : DocReader Nat :=
  fresh (.scalar .null "")

def nodeUnless (rules : Rules) (place : Place) (stops : List Token) : DocReader Nat := do
  if stops.contains (← peek) then absent else rules place

def blockItems (rules : Rules) : Nat → DocReader (List Nat)
  | 0 => malformed
  | bound + 1 => do
    match ← peek with
    | .blockEntry =>
      advance
      let item ← nodeUnless rules .block [.blockEntry, .blockEnd]
      return item :: (← blockItems rules bound)
    | .blockEnd =>
      advance
      return []
    | _ => malformed

/-- A sequence that is not deeper than the key before it ends where no dash follows. -/
def looseItems (rules : Rules) : Nat → DocReader (List Nat)
  | 0 => malformed
  | bound + 1 => do
    match ← peek with
    | .blockEntry =>
      advance
      let item ← nodeUnless rules .block [.blockEntry, .key, .value, .blockEnd]
      return item :: (← looseItems rules bound)
    | _ => return []

def valueAfterColon (rules : Rules) (place : Place) (stops : List Token) : DocReader Nat := do
  if (← peek) == .value then
    advance
    nodeUnless rules place stops
  else absent

def blockEntries (rules : Rules) : Nat → DocReader (List (Nat × Nat))
  | 0 => malformed
  | bound + 1 => do
    let stops := [Token.key, .value, .blockEnd]
    match ← peek with
    | .key =>
      advance
      let k ← nodeUnless rules .value stops
      let v ← valueAfterColon rules .value stops
      return (k, v) :: (← blockEntries rules bound)
    | .blockEnd =>
      advance
      return []
    | _ => malformed

def separator (first : Bool) : DocReader Unit := do
  unless first do
    unless (← peek) == .flowEntry do malformed
    advance

def flowItems (rules : Rules) : Nat → Bool → DocReader (List Nat)
  | 0, _ => malformed
  | bound + 1, first => do
    if (← peek) == .flowSequenceEnd then
      advance
      return []
    separator first
    match ← peek with
    | .flowSequenceEnd =>
      advance
      return []
    | .key =>
      advance
      let k ← nodeUnless rules .flow [.value, .flowEntry, .flowSequenceEnd]
      let v ← valueAfterColon rules .flow [.flowEntry, .flowSequenceEnd]
      let item ← fresh (.mapping .map [(k, v)])
      return item :: (← flowItems rules bound false)
    | _ =>
      let item ← rules .flow
      return item :: (← flowItems rules bound false)

def flowEntries (rules : Rules) : Nat → Bool → DocReader (List (Nat × Nat))
  | 0, _ => malformed
  | bound + 1, first => do
    if (← peek) == .flowMappingEnd then
      advance
      return []
    separator first
    match ← peek with
    | .flowMappingEnd =>
      advance
      return []
    | .key =>
      advance
      let k ← nodeUnless rules .flow [.value, .flowEntry, .flowMappingEnd]
      let v ← valueAfterColon rules .flow [.flowEntry, .flowMappingEnd]
      return (k, v) :: (← flowEntries rules bound false)
    | _ =>
      let k ← rules .flow
      let v ← absent
      return (k, v) :: (← flowEntries rules bound false)

def tagName (handle : Option String) (name : String) : DocReader String := do
  match handle with
  | none => return name
  | some h =>
    match (← get).handles.lookup h with
    | some uri => return uri ++ name
    | none => malformed

/-- An anchor and a tag in either order. -/
def properties : DocReader (Option String × Option String) := do
  let anchor? : DocReader (Option String) := do
    match ← peek with
    | .anchor name =>
      advance
      return some name
    | _ => return none
  let tag? : DocReader (Option String) := do
    match ← peek with
    | .tag handle name =>
      advance
      return some (← tagName handle name)
    | _ => return none
  match ← anchor? with
  | some a => return (some a, ← tag?)
  | none =>
    match ← tag? with
    | some t => return (← anchor?, some t)
    | none => return (none, none)

def declare (anchor : Option String) (n : Node) : DocReader Nat := do
  let i ← fresh n
  match anchor with
  | some a => modify fun s => { s with anchors := (a, i) :: s.anchors }
  | none => pure ()
  return i

def collectionTag (tag : Option String) (usual : Tag) : Tag :=
  match tag with
  | none => usual
  | some "!" => usual
  | some name => .ofName name

/-- The node at the current token. `resolve` gives the tag of a scalar that has none. A collection
is known by its name before its parts are read. -/
def node (resolve : String → Tag) (rules : Rules) (place : Place) : DocReader Nat := do
  let bound := (← get).tokens.length + 1
  match ← peek with
  | .reference name =>
    advance
    match (← get).anchors.lookup name with
    | none => malformed
    | some n => return n
  | _ =>
    let (anchor, tag) ← properties
    match anchor with
    | some a => if ((← get).anchors.lookup a).isSome then malformed
    | none => pure ()
    let sequence (read : DocReader (List Nat)) : DocReader Nat := do
      let tag := collectionTag tag .list
      let n ← declare anchor (.sequence tag [])
      let items ← read
      modify fun s => { s with nodes := s.nodes.setIfInBounds n (.sequence tag items) }
      return n
    let mapping (read : DocReader (List (Nat × Nat))) : DocReader Nat := do
      let tag := collectionTag tag .map
      let n ← declare anchor (.mapping tag [])
      let entries ← read
      modify fun s => { s with nodes := s.nodes.setIfInBounds n (.mapping tag entries) }
      return n
    match ← peek with
    | .scalar text plain =>
      advance
      let tag :=
        match tag with
        | none => if plain then resolve text else .text
        | some "!" => resolve text
        | some name => .ofName name
      declare anchor (.scalar tag text)
    | .flowSequence =>
      advance
      sequence (flowItems rules bound true)
    | .flowMapping =>
      advance
      mapping (flowEntries rules bound true)
    | t =>
      if t == .blockEntry && place == .value then sequence (looseItems rules bound)
      else if t == .blockSequence && place != .flow then
        advance
        sequence (blockItems rules bound)
      else if t == .blockMapping && place != .flow then
        advance
        mapping (blockEntries rules bound)
      else if anchor.isSome || tag.isSome then
        let tag :=
          match tag with
          | none | some "!" => resolve ""
          | some name => .ofName name
        declare anchor (.scalar tag "")
      else malformed

def nodes (resolve : String → Tag) : Nat → Rules
  | 0 => fun _ => malformed
  | depth + 1 => fun place => node resolve (nodes resolve depth) place

def defaultHandles : List (String × String) :=
  [("!", "!"), ("!!", Tag.corePrefix)]

/-- The directives before a document. Each kind of thing is said once. -/
def directives (versioned : Bool) (handles : List (String × String)) : Nat → DocReader Unit
  | 0 => malformed
  | bound + 1 => do
    match ← peek with
    | .directive d =>
      advance
      match d with
      | .version major =>
        if versioned || major != 1 then malformed
        directives true handles bound
      | .tag handle uri =>
        if (handles.lookup handle).isSome then malformed
        directives versioned ((handle, uri) :: handles) bound
      | .other => directives versioned handles bound
    | _ => modify fun s => { s with handles := handles ++ defaultHandles }

/-- The one document of a text, if there is one. -/
def document (rules : Rules) : DocReader (Option Nat) := do
  let bound := (← get).tokens.length + 1
  let isMark (t : Token) : Bool :=
    match t with
    | .directive _ | .documentStart | .documentEnd | .streamEnd => true
    | _ => false
  match ← peek with
  | .streamEnd => return none
  | .directive _ | .documentStart =>
    directives false [] bound
    unless (← peek) == .documentStart do malformed
    advance
    if isMark (← peek) then return some (← absent)
    return some (← rules .block)
  | _ => return some (← rules .block)

def skipEnds : Nat → DocReader Unit
  | 0 => return
  | bound + 1 => do
    if (← peek) == .documentEnd then
      advance
      skipEnds bound

end DocReader

/-- A document: its nodes, and which of them is the root. -/
structure Document where
  nodes : Array Node
  root : Nat

/-- The document of a list of tokens. There has to be one at most. -/
def Document.ofTokens? (resolve : String → Tag) (tokens : List Token) :
    Except Fault (Option Document) := do
  let read : DocReader (Option Nat) := do
    let n ← DocReader.document (DocReader.nodes resolve (tokens.length + 1))
    DocReader.skipEnds tokens.length
    unless (← DocReader.peek) == .streamEnd do DocReader.malformed
    return n
  let (root, s) ← StateT.run read ⟨tokens, #[], [], DocReader.defaultHandles⟩
  return root.map (⟨s.nodes, ·⟩)

end ThemedCss.Yaml
