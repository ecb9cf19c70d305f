import ThemedCss.Data.Field
import ThemedCss.Syntax.Node
import ThemedCss.Table
import ThemedCss.Text.Utf8

/-! Style definitions: a call of the factory, its blocks, and the interpolations of their
templates. -/
namespace ThemedCss.Style
open ThemedCss.Data ThemedCss.Syntax ThemedCss.Text

/-- The bytes from `start` up to `stop`. -/
structure Span where
  start : Nat
  stop : Nat
deriving DecidableEq, Repr

def Span.ofNode (n : Node) : Span :=
  ⟨n.start, n.stop⟩

/-- When the value of an interpolation is known. -/
inductive Label where
  /-- At build time. -/
  | static
  /-- Only when the module runs. -/
  | dynamic
deriving DecidableEq, Repr

/-- One `${…}` of a template: `span` covers all of it, `expr` the expression whose text is `source`.
An earlier pass may have left it `wrapped` in the marker, or replaced it by a string that refers to
`placeholder`. -/
structure Interpolation where
  index : Nat
  source : Bytes
  span : Span
  expr : Span
  wrapped : Bool
  placeholder : Option String
  node : Node

structure Labelled extends Interpolation where
  label : Label

/-- One property of the object a style function returns. The interpolations stand between the
chunks. -/
structure Block (ι : Type) where
  name : String
  chunks : List Bytes
  interpolations : List ι
  template : Span

def Block.map {ι κ : Type} (f : ι → κ) (b : Block ι) : Block κ :=
  { b with interpolations := b.interpolations.map f }

/-- What the parameters of a style function bind: names for parts of the theme, with the way to each
part, the name of the template tag, and all other names. -/
structure Parameters where
  theme : Table String (List String)
  tag : String
  others : List String
deriving DecidableEq, Repr

/-- A supported style definition. `callSite` counts all definitions of the module, `sequence` the
supported ones. -/
structure Call (ι : Type) where
  callSite : Nat
  sequence : Nat
  hook : String
  exported : Bool
  callee : Span
  span : Span
  parameters : Parameters
  blocks : List (Block ι)
  function : Node

def Call.map {ι κ : Type} (f : ι → κ) (c : Call ι) : Call κ :=
  { c with blocks := c.blocks.map (·.map f) }

inductive Cause where
  | syntaxErrors
  | noArguments
  | notFunction
  | noObject
  | property (text : String)
  | duplicate (block : String)
  | computedKey
  | notTagged (block tag : String)
  | emptyInterpolation (block : String)
deriving DecidableEq, Repr

def Cause.message : Cause → String
  | syntaxErrors => "style definition contains syntax errors"
  | noArguments => "style definition call has no arguments"
  | notFunction => "first argument of a style definition must be a function"
  | noObject => "style function must return an object literal"
  | property text => s!"unsupported style property {quoted text}"
  | duplicate block => s!"duplicate style block {quoted block}"
  | computedKey => "style block keys must be plain identifiers or strings"
  | notTagged block tag => s!"style block {quoted block} is not a \x60{tag}\x60 tagged template"
  | emptyInterpolation block => s!"empty interpolation in style block {quoted block}"

/-- A definition is not supported because of what stands at byte `pos`. -/
structure Unsupported where
  cause : Cause
  pos : Nat
deriving DecidableEq, Repr

/-- A message about a place in a file; lines and columns count from 1, columns in bytes. -/
structure Diagnostic where
  code : String
  message : String
  file : String
  line : Int
  column : Int
  severity : String
deriving DecidableEq, Repr

def Diagnostic.ofData (data : List (Value × Value)) : Fields Diagnostic :=
  let code := Fields.required Value.asText "code" data
  let message := Fields.required Value.asText "message" data
  let file := Fields.required Value.asText "file" data
  let line := Fields.required Value.asInt "line" data
  let column := Fields.required Value.asInt "column" data
  let severity := Fields.optional "warning" Value.asText "severity" data
  (code.both (message.both (file.both (line.both (column.both severity))))).map
    fun (code, message, file, line, column, severity) =>
      { code, message, file, line, column, severity }

def Diagnostic.text (d : Diagnostic) : String :=
  s!"{d.file}:{d.line}:{d.column}: {d.code}: {d.message}"

/-- The line of a byte position, and its distance from the start of that line. -/
def rowAndColumn (source : Bytes) (pos : Nat) : Nat × Nat :=
  (source.take pos).foldl
    (fun (row, column) (b : UInt8) => if b == 10 then (row + 1, 0) else (row, column + 1)) (0, 0)

def Unsupported.diagnostic (u : Unsupported) (source : Bytes) (file : String) : Diagnostic :=
  let (row, column) := rowAndColumn source u.pos
  { code := "unsupported-style-definition", message := u.cause.message, file, line := row + 1,
    column := column + 1, severity := "warning" }

end ThemedCss.Style
