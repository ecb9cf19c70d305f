import ThemedCss.Output.Prologue
import ThemedCss.Style.Token
import ThemedCss.Text.Basic

/-! Compiled modules. -/
namespace ThemedCss.Output
open ThemedCss.Syntax ThemedCss.Style ThemedCss.Text

/-- What a style definition becomes. `tokens` are the custom properties its templates refer to, and
`skeleton` is the text of each template. -/
structure Hook where
  name : String
  exported : Bool
  callSite : Nat
  blocks : List String
  extractable : Bool
  tokens : List String
  skeleton : Table String Bytes

/-- A module after compilation. `mapping` gives the expression each token stands for. -/
structure Compiled where
  filename : String
  code : Bytes
  mapping : Table String Bytes
  hooks : List Hook
  diagnostics : List Diagnostic

def Compiled.changed (m : Compiled) : Bool :=
  !m.hooks.isEmpty

/-- Text that a template literal reads as the given text. Backslashes are escaped before others are
put in. -/
def escapeTemplate (s : String) : String :=
  let slashes := replaceAll ['\\'] ['\\', '\\'] s.toList
  let quotes := replaceAll ['\x60'] ['\\', '\x60'] slashes
  String.ofList (replaceAll ['$', '{'] ['\\', '$', '{'] quotes)

/-- What becomes of an interpolation: the edit that does it, the text in the template, and the token
of a dynamic one. -/
structure Replacement where
  edit : Option Edit
  text : Bytes
  token : Option String

/-- Dynamic interpolations become references to custom properties, static ones calls of the
marker. -/
def replace (marker : String) (i : Named) : Replacement :=
  if i.label = .dynamic then
    let text := encode (escapeTemplate s!"var({i.name})")
    ⟨some ⟨i.span.start, i.span.stop, text⟩, text, some i.name⟩
  else if i.wrapped then ⟨none, encode "$\x7b" ++ i.source ++ encode "\x7d", none⟩
  else
    let source := if i.node.kind = .sequence then encode "(" ++ i.source ++ encode ")" else i.source
    let text := encode (marker ++ "(") ++ source ++ encode ")"
    ⟨some ⟨i.expr.start, i.expr.stop, text⟩, encode "$\x7b" ++ text ++ encode "\x7d", none⟩

/-- Texts between chunks. -/
def interleave : List Bytes → List Bytes → Bytes
  | chunk :: chunks, text :: texts => chunk ++ text ++ interleave chunks texts
  | chunk :: _, [] => chunk
  | [], _ => []

def replacements (marker : String) (call : Call Named) :
    List (Block Named × List (Named × Replacement)) :=
  call.blocks.map fun b => (b, b.interpolations.map fun i => (i, replace marker i))

def callEdits (marker : String) (call : Call Named) : List Edit :=
  ⟨call.callee.start, call.callee.stop, encode runtimeFactory⟩ ::
    (replacements marker call).flatMap fun (_, rs) => rs.filterMap fun (_, r) => r.edit

def hookOf (marker : String) (call : Call Named) : Hook :=
  let parts := replacements marker call
  { name := call.hook
    exported := call.exported
    callSite := call.callSite
    blocks := call.blocks.map (·.name)
    extractable := true
    tokens := parts.flatMap fun (_, rs) => rs.filterMap fun (_, r) => r.token
    skeleton := Table.insertAll
      (parts.map fun (b, rs) => (b.name, interleave b.chunks (rs.map fun (_, r) => r.text))) [] }

def mappingOf (marker : String) (calls : List (Call Named)) : Table String Bytes :=
  let entries := calls.flatMap fun call =>
    (replacements marker call).flatMap fun (_, rs) => rs.filterMap fun (i, r) =>
      r.token.map (·, i.source)
  Table.insertAll entries []

/-- The prologue goes before the first definition. -/
def prologueEdits (settings : Settings) (root : Node) (calls : List (Call Named)) : List Edit :=
  match missingCode settings (topLevelNames root), calls with
  | [], _ | _, [] => []
  | parts, first :: rest =>
    [injection root ("\n\n".intercalate parts)
      (rest.foldl (fun n call => min n call.span.start) first.span.start)]

def editsOf (settings : Settings) (root : Node) (calls : List (Call Named)) : List Edit :=
  calls.flatMap (callEdits settings.marker) ++ prologueEdits settings root calls

/-- The module with its style definitions compiled; all else stays as it is. -/
def emit (settings : Settings) (source : Bytes) (root : Node) (filename : String)
    (calls : List (Call Named)) (diagnostics : List Diagnostic) : Except Int Compiled := do
  let code ← if calls.isEmpty then pure source else apply source (editsOf settings root calls)
  return { filename, code, mapping := mappingOf settings.marker calls,
           hooks := calls.map (hookOf settings.marker), diagnostics }

end ThemedCss.Output
