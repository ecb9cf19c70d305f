import ThemedCss.Dependency.Key
import ThemedCss.Dependency.Link
import ThemedCss.Scope.Name
import ThemedCss.Table

/-! What a module declares, imports and exports. -/
namespace ThemedCss.Dependency
open ThemedCss.Syntax

inductive Definition where
  /-- The name `name` of another module. -/
  | imported (source name : String)
  /-- All of another module. -/
  | namespaceOf (source : String)
  /-- The value of an expression, or a function. -/
  | node (node : Node)
  /-- Nothing is known about it. -/
  | unknown

inductive Export where
  | own (name : String)
  | reexported (source name : String)
deriving DecidableEq, Repr

structure Module where
  bindings : Table String Definition
  exports : Table String Export
  /-- The modules all of whose exports are exported too. -/
  stars : List String
  /-- Names whose value changes somewhere in the module. -/
  reassigned : List String
  /-- Where the relative specifiers lead. -/
  links : Table String Link

namespace Module

def empty : Module :=
  ⟨[], [], [], [], []⟩

def bind (name : String) (d : Definition) (m : Module) : Module :=
  { m with bindings := m.bindings.insert name d }

def bindAll (names : List String) (d : Definition) (m : Module) : Module :=
  names.foldl (fun m name => m.bind name d) m

def exportAs (name : String) (e : Export) (m : Module) : Module :=
  { m with exports := m.exports.insert name e }

def ofValue : Option Node → Definition
  | some n => .node n
  | none => .unknown

def addDeclaration (m : Module) (statement : Node) : Module :=
  match statement.kind with
  | .lexicalDeclaration | .variableDeclaration =>
    statement.declarators.foldl
      (fun m d => m.bindAll (Node.patternNamesAt .name d.children) (ofValue (d.child? .value))) m
  | .functionDeclaration | .generatorDeclaration =>
    m.bindAll statement.declaredNames (.node statement)
  | .classDeclaration => m.bindAll statement.declaredNames .unknown
  | _ => m

/-- The local name of an import, and what it stands for. -/
def importedNames (source : String) (part : Node) : List (String × Definition) :=
  match part.kind with
  | .identifier => [(part.text, .imported source "default")]
  | .namespaceImport => part.named.map fun n => (n.text, .namespaceOf source)
  | .namedImports =>
    part.named.filterMap fun s =>
      match s.kind, s.child? .name with
      | .importSpecifier, some name =>
        let imported := name.plainText
        some (((s.child? .newName).map (·.text)).getD imported, .imported source imported)
      | _, _ => none
  | _ => []

def addImport (m : Module) (statement : Node) : Module :=
  match statement.child? .source with
  | none => m
  | some source =>
    let clauses := statement.named.filter (·.kind == .importClause)
    (clauses.flatMap (·.named)).foldl
      (fun m part => (importedNames source.plainText part).foldl
        (fun m (name, d) => m.bind name d) m) m

/-- An exported declaration that names nothing: a class is never looked into. -/
def ofUnnamed (declaration : Node) : Definition :=
  match declaration.kind with
  | .classDeclaration | .abstractClassDeclaration => .unknown
  | _ => .node declaration

def addDefault (m : Module) (statement : Node) : Module :=
  match statement.child? .declaration, statement.child? .value with
  | some declaration, _ =>
    let m := m.addDeclaration declaration
    match declaration.declaredNames with
    | name :: _ => m.exportAs "default" (.own name)
    | [] => (m.bind defaultName (ofUnnamed declaration)).exportAs "default" (.own defaultName)
  | none, some value =>
    if value.kind = .identifier then m.exportAs "default" (.own value.text)
    else (m.bind defaultName (.node value)).exportAs "default" (.own defaultName)
  | none, none => m

def addSpecifier (source : Option Node) (m : Module) (s : Node) : Module :=
  match s.child? .name with
  | none => m
  | some name =>
    let exported := ((s.child? .newName).getD name).text
    match source with
    | some source => m.exportAs exported (.reexported source.plainText name.text)
    | none => m.exportAs exported (.own name.text)

def addExport (m : Module) (statement : Node) : Module :=
  if statement.hasChild .defaultKeyword then m.addDefault statement
  else
    let source := statement.child? .source
    match statement.child? .declaration, statement.named.find? (·.kind == .exportClause),
        source with
    | some declaration, _, _ =>
      declaration.declaredNames.foldl (fun m name => m.exportAs name (.own name))
        (m.addDeclaration declaration)
    | none, some clause, _ => clause.named.foldl (addSpecifier source) m
    | none, none, some source =>
      if statement.hasChild .namespaceExport then m
      else { m with stars := m.stars ++ [source.plainText] }
    | none, none, none => m

def addStatement (m : Module) (statement : Node) : Module :=
  match statement.kind with
  | .importStatement => m.addImport statement
  | .exportStatement => m.addExport statement
  | _ => m.addDeclaration statement

def sources (m : Module) : List String :=
  let imported := m.bindings.filterMap fun
    | (_, .imported source _) | (_, .namespaceOf source) => some source
    | _ => none
  let reexported := m.exports.filterMap fun
    | (_, .reexported source _) => some source
    | _ => none
  (imported ++ reexported ++ m.stars).eraseDups

/-- Specifiers that start with a dot lead to files; all others name packages. -/
def isRelative (source : String) : Bool :=
  source.toList.head? == some '.'

/-- The top level of the module at `path` with the given tree. -/
def ofTree (files : FileTree) (path : Path) (root : Node) : Module :=
  let m := root.named.foldl addStatement empty
  { m with
    reassigned := root.preorder.flatMap (·.reassignedNames)
    links :=
      (m.sources.filter isRelative).map fun source => (source, Link.resolve files path source) }

end Module
end ThemedCss.Dependency
