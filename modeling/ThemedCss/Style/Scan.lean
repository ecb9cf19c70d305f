import ThemedCss.Scope.Name
import ThemedCss.Settings
import ThemedCss.Style.Basic
import ThemedCss.Text.Basic

/-! Finding the style definitions of a module. -/
namespace ThemedCss.Style
open ThemedCss.Syntax ThemedCss.Text

/-- A call, or a node where calls are looked for, with the nodes around it from the inside out. -/
structure Site where
  call : Node
  parents : List Node

def Site.children (site : Site) : List Site :=
  site.call.children.map (⟨·, site.call :: site.parents⟩)

def isFactoryCall (factories : List String) (n : Node) : Bool :=
  n.kind == .call &&
    match n.child? .callee with
    | some callee => callee.kind == .identifier && factories.contains callee.text
    | none => false

/-- The number of nodes on a stack, with all that is in them. -/
def Site.nodesIn (stack : List Site) : Nat :=
  (Node.preorderAll (stack.map (·.call))).length

theorem Site.nodesIn_cons (top : Site) (stack : List Site) :
    nodesIn (top :: stack) = nodesIn (top.children ++ stack) + 1 := by
  simp [nodesIn, children, Node.preorderAll, Node.preorder_eq, Node.preorderAll_append,
    Function.comp_def]

/-- Look through the nodes on a stack from the top one on. A call of the factory is taken and not
looked into; in place of any other node its children come on the stack. -/
def search (factories : List String) (stack found : List Site) : List Site :=
  match stack with
  | [] => found
  | top :: stack =>
    if isFactoryCall factories top.call then search factories stack (found ++ [top])
    else search factories (top.children ++ stack) found
termination_by Site.nodesIn stack
decreasing_by
  · rw [Site.nodesIn_cons, Site.nodesIn, Site.nodesIn, List.map_append, Node.preorderAll_append,
      List.length_append]
    omega
  · rw [Site.nodesIn_cons]
    omega

def candidates (settings : Settings) (root : Node) : List Site :=
  search [settings.factory, runtimeFactory] [⟨root, []⟩] []

/-- The names a module exports without declaring them in the same statement. -/
def exportedNames (root : Node) : List String :=
  root.named.flatMap fun statement =>
    if statement.kind ≠ .exportStatement ∨ (statement.child? .source).isSome then []
    else
      let value :=
        match statement.child? .value with
        | some v => if v.kind = .identifier then [v.text] else []
        | none => []
      let listed := statement.named.flatMap fun child =>
        if child.kind = .exportClause then
          child.named.flatMap fun s => ((s.child? .name).map (·.text)).toList
        else []
      value ++ listed

def isTransparent : Kind → Bool
  | .parenthesized | .asExpression | .satisfiesExpression => true
  | _ => false

/-- The name a definition is bound to, and whether the module exports it. -/
def hookOf (exported : List String) (parents : List Node) : String × Bool :=
  match parents.dropWhile (isTransparent ·.kind) with
  | [] => ("anonymous", false)
  | parent :: above =>
    if parent.kind = .declarator then
      let name :=
        match parent.child? .name with
        | some n => if n.kind = .identifier then n.text else "anonymous"
        | none => "anonymous"
      let direct := (above.tail.head?.map (·.kind)) == some .exportStatement
      (name, direct || exported.contains name)
    else if parent.kind = .exportStatement ∧ parent.hasChild .defaultKeyword then ("default", true)
    else ("anonymous", false)

def Parameters.addOthers (names : List String) (p : Parameters) : Parameters :=
  { p with others := p.others ++ names }

def Parameters.addTheme (name : String) (way : List String) (p : Parameters) : Parameters :=
  { p with theme := p.theme.insert name way }

mutual
/-- Bind the names of a pattern that stands for the part of the theme at the end of `way`. -/
def bindTheme (way : List String) (p : Parameters) : Node → Parameters
  | ⟨kind, role, start, stop, text, children⟩ =>
    match kind with
    | .identifier | .shorthandPattern => p.addTheme text way
    | .objectPattern => bindThemeEntries way p children
    | _ => p.addOthers (Node.patternNames ⟨kind, role, start, stop, text, children⟩)

def bindThemeEntries (way : List String) (p : Parameters) : List Node → Parameters
  | [] => p
  | ⟨kind, role, start, stop, text, children⟩ :: rest =>
    let entry : Node := ⟨kind, role, start, stop, text, children⟩
    let p :=
      match kind with
      | .shorthandPattern => p.addTheme text (way ++ [text])
      | .pairPattern =>
        match entry.child? .key with
        | some key =>
          if key.kind = .propertyName ∨ key.kind = .string then
            bindThemeValue (way ++ [key.plainText]) p children
          else p.addOthers entry.patternNames
        | none => p.addOthers entry.patternNames
      | _ => p.addOthers entry.patternNames
    bindThemeEntries way p rest

def bindThemeValue (way : List String) (p : Parameters) : List Node → Parameters
  | [] => p
  | n :: ns => if n.role = .value then bindTheme way p n else bindThemeValue way p ns
end

/-- The key of an entry of a pattern and the pattern behind it. Entries with defaults and rest
elements have none. -/
def keyAndPattern? (entry : Node) : Option (String × Node) :=
  match entry.kind with
  | .shorthandPattern => some (entry.text, entry)
  | .pairPattern => do
    let key ← entry.child? .key
    let value ← entry.child? .value
    return (key.plainText, value)
  | _ => none

/-- Bind one entry of the first parameter: the theme, the template tag, or something else. Defaults
and rest elements are never trusted. -/
def bindEntry (p : Parameters) (entry : Node) : Parameters :=
  match keyAndPattern? entry with
  | none => p.addOthers entry.patternNames
  | some (key, value) =>
    if key = "theme" then bindTheme [] p value
    else if key = "css" ∧ (value.kind = .identifier ∨ value.kind = .shorthandPattern) then
      { p with tag := value.text }
    else p.addOthers value.patternNames

def parameterList (function : Node) : List Node :=
  match function.child? .parameter with
  | some single => [single]
  | none => ((function.child? .parameters).map (·.named)).getD []

def parameterPattern (n : Node) : Node :=
  if n.kind.isTypedParameter then (n.child? .pattern).getD n else n

def parametersOf (tag : String) (function : Node) : Parameters :=
  let start : Parameters := ⟨[], tag, []⟩
  match (parameterList function).map parameterPattern with
  | [] => start
  | first :: rest =>
    let p :=
      if first.kind = .objectPattern then first.named.foldl bindEntry start
      else start.addOthers first.patternNames
    rest.foldl (fun p n => p.addOthers n.patternNames) p

def isStyleFunction : Kind → Bool
  | .arrowFunction | .functionExpression => true
  | _ => false

/-- The expression a function returns at its end. -/
def result? (function : Node) : Option Node := do
  let body ← function.child? .body
  if body.kind = .block then
    let last ← body.named.getLast?
    if last.kind = .returnStatement then (last.named.head?).map (·.unwrap) else none
  else some body.unwrap

def returnedObject (function : Node) : Except Unsupported Node :=
  let pos := ((function.child? .body).getD function).start
  match result? function with
  | some object => if object.kind = .object then .ok object else .error ⟨.noObject, pos⟩
  | none => .error ⟨.noObject, pos⟩

/-- A reference to a custom property and nothing else: `var(--name)`. -/
def placeholderIn? (text : String) : Option String :=
  match text.toList with
  | 'v' :: 'a' :: 'r' :: '(' :: '-' :: '-' :: rest =>
    let name := rest.takeWhile fun c => c != '(' && c != ')' && !isBlank c
    match name, rest.drop name.length with
    | _ :: _, [')'] | _ :: _, [')', '\n'] => some (String.ofList ('-' :: '-' :: name))
    | _, _ => none
  | _ => none

/-- Whether an expression is a call of the marker with one argument. -/
def isWrapped (marker : String) (expr : Node) : Bool :=
  expr.kind == .call &&
    match expr.child? .callee, expr.child? .arguments with
    | some callee, some arguments =>
      callee.kind == .identifier && callee.text == marker && arguments.kind == .arguments &&
        arguments.named.length == 1
    | _, _ => false

def interpolationOf (source : Bytes) (marker : String) (index : Nat) (hole expr : Node) :
    Interpolation :=
  { index, source := slice source expr.start expr.stop, span := .ofNode hole, expr := .ofNode expr,
    wrapped := isWrapped marker expr,
    placeholder :=
      if expr.kind = .string then placeholderIn? (unquote expr.text) else none, node := expr }

/-- The chunks and interpolations of a template from byte `cursor` on; `index` counts the
interpolations. -/
def templateParts (source : Bytes) (marker name : String) (stop : Nat) :
    Nat → Nat → List Node → Except Unsupported (List Bytes × List Interpolation)
  | _, cursor, [] => .ok ([slice source cursor stop], [])
  | index, cursor, hole :: holes => do
    match hole.named with
    | [expr] =>
      let (chunks, interpolations) ← templateParts source marker name stop (index + 1)
        hole.stop holes
      return (slice source cursor hole.start :: chunks,
        interpolationOf source marker index hole expr :: interpolations)
    | _ => throw ⟨.emptyInterpolation name, hole.start⟩

/-- The template of a block, if the value is one with the right tag. -/
def taggedTemplate? (tag : String) (value : Node) : Option Node :=
  if value.kind = .call then
    match value.child? .callee, value.child? .arguments with
    | some callee, some template =>
      if callee.kind = .identifier ∧ callee.text = tag ∧ template.kind = .template then
        some template
      else none
    | _, _ => none
  else none

def blockOf (source : Bytes) (marker tag name : String) (value : Node) :
    Except Unsupported (Block Interpolation) := do
  let value := value.unwrap
  match taggedTemplate? tag value with
  | none => throw ⟨.notTagged name tag, value.start⟩
  | some template =>
    let holes := template.children.filter (·.kind == .substitution)
    let (chunks, interpolations) ← templateParts source marker name (template.stop - 1) 0
      (template.start + 1) holes
    return { name, chunks, interpolations, template := .ofNode template }

def blockName (key : Node) : Except Unsupported String :=
  match key.kind with
  | .propertyName | .number | .string => .ok key.plainText
  | _ => .error ⟨.computedKey, key.start⟩

/-- The blocks of a style object; `seen` are the names before. -/
def blocksOf (source : Bytes) (marker tag : String) :
    List String → List Node → Except Unsupported (List (Block Interpolation))
  | _, [] => .ok []
  | seen, property :: rest => do
    match property.kind, property.child? .key, property.child? .value with
    | .pair, some key, some value =>
      let name ← blockName key
      if seen.contains name then throw ⟨.duplicate name, property.start⟩
      let block ← blockOf source marker tag name value
      return block :: (← blocksOf source marker tag (name :: seen) rest)
    | _, _, _ =>
      throw ⟨.property (decodeText (slice source property.start property.stop)), property.start⟩

def argumentList (call : Node) : List Node :=
  match call.child? .arguments with
  | some a => if a.kind = .arguments then a.named else []
  | none => []

def callOf (settings : Settings) (source : Bytes) (exported : List String) (callSite sequence : Nat)
    (site : Site) : Except Unsupported (Call Interpolation) := do
  let call := site.call
  if call.hasError then throw ⟨.syntaxErrors, call.start⟩
  match argumentList call, call.child? .callee with
  | first :: _, some callee =>
    let function := first.unwrap
    unless isStyleFunction function.kind do throw ⟨.notFunction, function.start⟩
    let parameters := parametersOf settings.tag function
    let object ← returnedObject function
    let blocks ← blocksOf source settings.marker parameters.tag [] object.named
    let (hook, isExported) := hookOf exported site.parents
    return { callSite, sequence, hook, exported := isExported, callee := .ofNode callee,
             span := .ofNode call, parameters, blocks, function }
  | _, _ => throw ⟨.noArguments, call.start⟩

/-- The definitions of a module: the supported ones, and a message for each of the others. -/
structure Definitions where
  calls : List (Call Interpolation)
  diagnostics : List Diagnostic

/-- Read the sites in order, counting all of them and the supported ones. -/
def readSites (settings : Settings) (source : Bytes) (file : String) (exported : List String) :
    Nat → Nat → List Site → Definitions
  | _, _, [] => ⟨[], []⟩
  | callSite, sequence, site :: rest =>
    match callOf settings source exported callSite sequence site with
    | .ok call =>
      let found := readSites settings source file exported (callSite + 1) (sequence + 1) rest
      { found with calls := call :: found.calls }
    | .error unsupported =>
      let found := readSites settings source file exported (callSite + 1) sequence rest
      { found with diagnostics := unsupported.diagnostic source file :: found.diagnostics }

def scan (settings : Settings) (source : Bytes) (root : Node) (file : String) : Definitions :=
  readSites settings source file (exportedNames root) 0 0 (candidates settings root)

end ThemedCss.Style
