import ThemedCss.Output.Edit
import ThemedCss.Scope.Name
import ThemedCss.Settings
import ThemedCss.Text.Quoted

/-! The code that compiled modules bring along, and where it goes. -/
namespace ThemedCss.Output
open ThemedCss.Syntax ThemedCss.Text

def markerCode (marker : String) : String :=
  s!"const {marker} = t => t;"

/-- The factory of compiled modules. It calls the style function with stand-ins for what the page
provides. -/
def factoryCode (tag marker themePath : String) : String :=
  "\n".intercalate
    [s!"const {runtimeFactory} = styleFn => \x7b",
     s!"  function {tag}(strings, ...values) \x7b",
     "    let combined = '';",
     "",
     "    for (let i = 0; i < strings.length; i += 1) \x7b",
     "      const currentValue = i < values.length ? values[i] : '';",
     "      combined += strings[i] + currentValue;",
     "    \x7d",
     "",
     "    return combined;",
     "  \x7d",
     "",
     s!"  const themePath = {themePath};",
     "  const theme = require(themePath).default || require(themePath);",
     "  const color = \x7b",
     "    original: '#000',",
     "    decorative: '#000',",
     "    readable: '#000',",
     "    aa: '#000',",
     "    aaa: '#000',",
     "  \x7d;",
     "  const surface = '#fff';",
     "",
     "  const useStyles = (props = \x7b\x7d) => styleFn(\x7b",
     "    color,",
     "    surface,",
     "    ...props,",
     s!"    css: {tag},",
     "    theme,",
     s!"    {marker},",
     "  \x7d);",
     "  useStyles.__cssExtractable = true;",
     "  return useStyles;",
     "\x7d;"]

def importedLocals (part : Node) : List String :=
  match part.kind with
  | .identifier => [part.text]
  | .namespaceImport => part.named.map (·.text)
  | .namedImports =>
    part.named.filterMap fun s => ((s.child? .newName).or (s.child? .name)).map (·.text)
  | _ => []

def topLevelNamesOf (statement : Node) : List String :=
  match statement.kind with
  | .importStatement =>
    (statement.named.filter (·.kind == .importClause)).flatMap fun c =>
      c.named.flatMap importedLocals
  | .exportStatement => ((statement.child? .declaration).getD statement).declaredNames
  | _ => statement.declaredNames

def topLevelNames (root : Node) : List String :=
  root.named.flatMap topLevelNamesOf

def missingCode (settings : Settings) (names : List String) : List String :=
  let themePath :=
    match settings.runtimeTheme with
    | some t => if t.isEmpty then settings.themePath else t
    | none => settings.themePath
  (if names.contains settings.marker then [] else [markerCode settings.marker]) ++
    (if names.contains runtimeFactory then []
      else [factoryCode settings.tag settings.marker (jsonString themePath)])

/-- A string statement such as `"use strict";`. -/
def isDirective (statement : Node) : Bool :=
  statement.kind == .expressionStatement &&
    match statement.named with
    | [e] =>
      let quote (c : Char) : Bool := c == '\'' || c == '"'
      e.kind == .string && "use ".toList.isPrefixOf
        (((e.text.toList.dropWhile quote).reverse.dropWhile quote).reverse)
    | _ => false

/-- The statement after which code may go so that it is seen from byte `limit` on: the last import,
else the last leading directive. `leading` tells whether only directives came before. -/
def anchor? (limit : Nat) : Bool → Option Node → List Node → Option Node
  | _, found, [] => found
  | leading, found, s :: rest =>
    if limit < s.stop then found
    else if s.kind = .importStatement then anchor? limit false (some s) rest
    else if leading && (s.kind = .hashBang || isDirective s) then anchor? limit true (some s) rest
    else anchor? limit false found rest

/-- Insert code after the anchor, or at the top. -/
def injection (root : Node) (code : String) (limit : Nat) : Edit :=
  match anchor? limit true none root.named with
  | none => ⟨0, 0, encode (code ++ "\n\n")⟩
  | some a => ⟨a.stop, a.stop, encode ("\n\n" ++ code)⟩

end ThemedCss.Output
