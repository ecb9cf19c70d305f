import ThemedCss.Data.Value
import ThemedCss.Scope.Name
import ThemedCss.Syntax.Parser
import ThemedCss.Table
import ThemedCss.Text.Numeral
import ThemedCss.Text.Utf8

/-! Themes written as modules. They are read by their form; nothing is run. -/
namespace ThemedCss.Theme
open ThemedCss.Data ThemedCss.Syntax ThemedCss.Text

inductive ModuleFault where
  | noObject
  | notUtf8 (fault : Utf8Fault)
  /-- An object is spread into itself. -/
  | endless
deriving DecidableEq, Repr

/-- A module: its bytes and the top-level constants. `depth` bounds how deep constants refer to each
other. -/
structure ThemeModule where
  source : Bytes
  root : Node
  constants : Table String Node
  depth : Nat

abbrev Reading := Except ModuleFault

/-- The text of a node. It is decoded only when it is asked for. -/
def textOf (source : Bytes) (n : Node) : Reading String :=
  match decode (slice source n.start n.stop) with
  | .ok cs => .ok (String.ofList cs)
  | .error f => .error (.notUtf8 f)

mutual
def nodeHeight : Node → Nat
  | ⟨_, _, _, _, _, children⟩ => nodeHeights children + 1

def nodeHeights : List Node → Nat
  | [] => 0
  | n :: rest => max (nodeHeight n) (nodeHeights rest)
end

def constantsOf (source : Bytes) (statement : Node) : Reading (List (String × Node)) := do
  let declaration :=
    if statement.kind = .exportStatement then (statement.child? .declaration).getD statement
    else statement
  if declaration.kind.isDeclaration then
    let found ← declaration.declarators.mapM fun d => do
      match d.child? .name, d.child? .value with
      | some name, some value =>
        if name.kind = .identifier then return [(← textOf source name, value)] else return []
      | _, _ => return []
    return found.flatten
  else return []

namespace ThemeModule

def ofTree (source : Bytes) (root : Node) : Reading ThemeModule := do
  let constants ← root.named.mapM (constantsOf source)
  let table := Table.insertAll constants.flatten []
  return ⟨source, root, table, (table.length + 2) * (nodeHeight root + 2)⟩

/-- How deep objects are read: three levels for each of them. No constant is entered twice, and
until another constant is entered no object is, unless it is spread into itself. -/
def limit (m : ThemeModule) : Nat :=
  3 * ((m.constants.length + 1) * m.root.preorder.countP (·.kind == .object) + 1)

/-- What a statement makes the module export, if it does. -/
def exportOf (m : ThemeModule) (statement : Node) : Reading (Option (Option Node)) := do
  if statement.kind = .exportStatement ∧ statement.hasChild .defaultKeyword then
    return some ((statement.child? .value).or (statement.child? .declaration))
  else if statement.kind = .expressionStatement then
    match statement.named.head?.map (·.unwrap) with
    | some e =>
      match e.kind, e.child? .left with
      | .assignment, some left =>
        if (← textOf m.source left) = "module.exports" then return some (e.child? .right)
        else return none
      | _, _ => return none
    | none => return none
  else return none

/-- What the module exports: the first statement that says so counts. -/
def defaultExport (m : ThemeModule) : List Node → Reading (Option Node)
  | [] => return none
  | statement :: rest => do
    match ← m.exportOf statement with
    | some n => return n
    | none => m.defaultExport rest

/-- The object literal behind an expression: constants, type assertions and the first argument of a
call are followed. `seen` are the constants that led here. -/
def object? (m : ThemeModule) : Nat → List String → Option Node → Reading (Option Node)
  | 0, _, _ => .error .endless
  | _ + 1, _, none => return none
  | depth + 1, seen, some n => do
    let n := n.unwrap
    match n.kind with
    | .object => return some n
    | .identifier =>
      let name ← textOf m.source n
      if seen.contains name then return none
      m.object? depth (name :: seen) (m.constants.get? name)
    | .call => m.object? depth seen ((n.child? .arguments).bind (·.named.head?))
    | .asExpression | .satisfiesExpression => m.object? depth seen n.named.head?
    | _ => return none

/-- A key that can be listed; computed ones cannot. -/
def keyOf? (m : ThemeModule) (key : Option Node) : Reading (Option String) := do
  match key with
  | none => return none
  | some k =>
    match k.kind with
    | .propertyName | .number => return some (← textOf m.source k)
    | .string => return some (unquote (← textOf m.source k))
    | _ => return none

def toMap (t : Table String Value) : Value :=
  .map (t.map fun (k, v) => (.text k, v))

mutual
def entriesOf (m : ThemeModule) : Nat → List String → Node → Reading (Table String Value)
  | 0, _, _ => .error .endless
  | depth + 1, seen, object => object.named.foldlM (m.addProperty depth seen) []

def addProperty (m : ThemeModule) :
    Nat → List String → Table String Value → Node → Reading (Table String Value)
  | 0, _, _, _ => .error .endless
  | depth + 1, seen, data, property => do
    match property.kind with
    | .pair =>
      match ← m.keyOf? (property.child? .key) with
      | some key => return data.insert key (← m.valueOf depth seen (property.child? .value))
      | none => return data
    | .shorthand =>
      let key ← textOf m.source property
      return data.insert key (← m.valueOf depth seen (some property))
    | .method =>
      match ← m.keyOf? (property.child? .name) with
      | some key => return data.insert key (.text "<method>")
      | none => return data
    | .spread =>
      match ← m.object? m.depth seen property.named.head? with
      | some object => return Table.insertAll (← m.entriesOf depth seen object) data
      | none => return data
    | _ => return data

/-- The data of an expression; what cannot be read as data is shown as it is written. -/
def valueOf (m : ThemeModule) : Nat → List String → Option Node → Reading Value
  | 0, _, _ => .error .endless
  | _ + 1, _, none => return .null
  | depth + 1, seen, some n => do
    let n := n.unwrap
    match n.kind with
    | .identifier | .shorthand =>
      let name ← textOf m.source n
      let object ← if seen.contains name then pure none
        else m.object? m.depth (name :: seen) (m.constants.get? name)
      match object with
      | some o => return toMap (← m.entriesOf depth (name :: seen) o)
      | none => return .text s!"<{name}>"
    | .object => return toMap (← m.entriesOf depth seen n)
    | .string => return .text (unquote (← textOf m.source n))
    | .number =>
      let raw ← textOf m.source n
      match digits? raw with
      | some k => return .int k
      | none => return .text raw
    | .trueLiteral => return .bool true
    | .falseLiteral => return .bool false
    | .arrowFunction | .functionExpression => return .text "<function>"
    | _ => return .text (← textOf m.source n)
end

end ThemeModule

def readModule (dialect : Dialect) (source : Bytes) : Reading (List (Value × Value)) := do
  let m ← ThemeModule.ofTree source (parse dialect (decodeMasking source))
  match ← m.object? m.depth [] (← m.defaultExport m.root.named) with
  | none => throw .noObject
  | some object => return (← m.entriesOf m.limit [] object).map fun (k, v) => (.text k, v)

end ThemedCss.Theme
