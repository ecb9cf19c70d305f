import ThemedCss.Path
import ThemedCss.Style.Basic

/-! Names of the custom properties that stand for dynamic interpolations. -/
namespace ThemedCss.Style
open ThemedCss.Data

/-- A token depends on the file's name and on where in the file the interpolation stands, on nothing
else. -/
structure Token where
  file : String
  sequence : Int
  callSite : Int
  block : String
  index : Int
deriving DecidableEq, Repr

def Token.ofData (data : List (Value × Value)) : Fields Token :=
  let file := Fields.required Value.asText "file_id" data
  let sequence := Fields.required Value.asInt "sequence_id" data
  let callSite := Fields.required Value.asInt "call_site_index" data
  let block := Fields.required Value.asText "block_name" data
  let index := Fields.required Value.asInt "interpolation_index" data
  (file.both (sequence.both (callSite.both (block.both index)))).map
    fun (file, sequence, callSite, block, index) => { file, sequence, callSite, block, index }

/-- At least five characters, filled with zeros after the sign. -/
def padded (n : Int) : String :=
  let digits := toString n.natAbs
  let sign := if n < 0 then "-" else ""
  sign ++ String.ofList (List.replicate (5 - sign.length - digits.length) '0') ++ digits

def Token.render (t : Token) : String :=
  s!"--{t.file}--{padded t.sequence}-{t.callSite}-{t.block}-{t.index}"

/-- A place where a token may be needed: an interpolation, its label, and the token an earlier pass
has left. -/
structure Slot where
  index : Int
  label : Label
  kept : Option String
deriving DecidableEq, Repr

/-- What tokens need to know of a style definition. -/
structure Outline where
  hook : String
  sequence : Int
  callSite : Int
  blocks : List (String × List Slot)
deriving DecidableEq, Repr

def Labelled.slot (i : Labelled) : Slot :=
  ⟨i.index, i.label, i.placeholder⟩

def Call.outline (c : Call Labelled) : Outline :=
  ⟨c.hook, c.sequence, c.callSite, c.blocks.map fun b => (b.name, b.interpolations.map (·.slot))⟩

/-- The token of a file name is made from the name without its last suffix. -/
def fileId (filename : String) : String :=
  (Path.ofString filename).stem

namespace Outline

def token (file : String) (o : Outline) (block : String) (s : Slot) : Token :=
  ⟨file, o.sequence, o.callSite, block, s.index⟩

def owner (o : Outline) (block : String) (s : Slot) : String :=
  s!"{o.hook}.{block}[{s.index}]"

end Outline

/-- The token an earlier pass has left; an empty one does not count. -/
def Slot.kept? (s : Slot) : Option String :=
  s.kept.filter (!·.isEmpty)

/-- The name used for a dynamic slot: a kept token stays as it is. -/
def Outline.tokenText (file : String) (o : Outline) (block : String) (s : Slot) : String :=
  s.kept?.getD (o.token file block s).render

/-- Two dynamic interpolations with one name. -/
structure Collision where
  token : String
  first : String
  second : String
deriving DecidableEq, Repr

def Collision.message (c : Collision) : String :=
  s!"placeholder {c.token} issued twice ({c.first}, {c.second})"

/-- The tokens given out so far, each with its owner. -/
abbrev Issued := Table String String

/-- What giving out tokens leads to: the table, the new token of each slot, and the collision at
which it ended. -/
structure Grant (α : Type) where
  issued : Issued
  tokens : List α
  collision : Option Collision

/-- Give out tokens for the slots of one block. Slots after a collision get none. -/
def grantSlots (file : String) (o : Outline) (block : String) :
    Issued → List Slot → Grant (Option String)
  | issued, [] => ⟨issued, [], none⟩
  | issued, s :: rest =>
    if s.label = .dynamic then
      let text := o.tokenText file block s
      match issued.get? text with
      | some first => ⟨issued, none :: rest.map fun _ => none, some ⟨text, first, o.owner block s⟩⟩
      | none =>
        let g := grantSlots file o block (issued.insert text (o.owner block s)) rest
        { g with tokens := (if s.kept?.isSome then none else some text) :: g.tokens }
    else
      let g := grantSlots file o block issued rest
      { g with tokens := none :: g.tokens }

def grantBlocks (file : String) (o : Outline) :
    Issued → List (String × List Slot) → Grant (List (Option String))
  | issued, [] => ⟨issued, [], none⟩
  | issued, (name, slots) :: rest =>
    let g := grantSlots file o name issued slots
    match g.collision with
    | some c => ⟨g.issued, g.tokens :: rest.map fun (_, slots) => slots.map fun _ => none, some c⟩
    | none =>
      let g' := grantBlocks file o g.issued rest
      { g' with tokens := g.tokens :: g'.tokens }

def grant (file : String) (issued : Issued) (o : Outline) : Grant (List (Option String)) :=
  grantBlocks file o issued o.blocks

/-- Give out the tokens of several definitions, or find the first collision. -/
def grantAll (file : String) :
    Issued → List Outline → Except Collision (Issued × List (List (List (Option String))))
  | issued, [] => .ok (issued, [])
  | issued, o :: rest =>
    let g := grant file issued o
    match g.collision with
    | some c => .error c
    | none => (grantAll file g.issued rest).map fun granted => (granted.1, g.tokens :: granted.2)

structure Named extends Labelled where
  token : Option String

/-- The name that stands for a dynamic interpolation: a kept token stays as it is. -/
def Named.name (i : Named) : String :=
  i.slot.kept?.getD (i.token.getD "")

def Labelled.withToken (i : Labelled) (token : Option String) : Named :=
  { i with token }

def Block.withTokens (b : Block Labelled) (tokens : List (Option String)) : Block Named :=
  { b with interpolations := List.zipWith Labelled.withToken b.interpolations tokens }

def Call.withTokens (c : Call Labelled) (tokens : List (List (Option String))) : Call Named :=
  { c with blocks := List.zipWith Block.withTokens c.blocks tokens }

def nameAll (file : String) (calls : List (Call Labelled)) : Except Collision (List (Call Named)) :=
  (grantAll file [] (calls.map (·.outline))).map fun granted =>
    List.zipWith Call.withTokens calls granted.2

end ThemedCss.Style
