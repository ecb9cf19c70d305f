import ThemedCss.FileTree
import ThemedCss.Theme.Environment
import ThemedCss.Theme.Module
import ThemedCss.Yaml.Reader

/-! Loading themes. -/
namespace ThemedCss.Theme
open ThemedCss.Data ThemedCss.Syntax ThemedCss.Text

inductive Fault where
  | relative (path : String)
  | missing (path : Path)
  | malformed (path : Path)
  | notMapping (path : Path)
  | noObject (path : Path)
  | unsupported (suffix : String)
  | location (fault : PathFault)
  | file (fault : FileFault)
  | notUtf8 (fault : Utf8Fault)
  | data (fault : Yaml.Fault)
  | foreignKeys (keys : List ForeignKey)
  | endless

/-- What is said of a fault of the configuration. Other faults lie in the content of the theme. -/
def Fault.message? : Fault → Option String
  | relative path => some s!"Theme path must be absolute, got {path}"
  | missing path => some s!"Theme source not found: {path}"
  | malformed path => some s!"Theme {path} is not valid YAML/JSON"
  | notMapping path => some s!"Theme {path} must contain a mapping at its root"
  | noObject path =>
    some s!"Theme module {path} has no default export resolving to an object literal"
  | unsupported suffix => some s!"Unsupported theme source type: {suffix}"
  | location _ | file _ | notUtf8 _ | data _ | foreignKeys _ | endless => none

def dataSuffixes : List String :=
  [".yml", ".yaml", ".json"]

def readData (path : Path) (content : Bytes) : Except Fault (List (Value × Value)) :=
  match decode content with
  | .error f => .error (.notUtf8 f)
  | .ok cs =>
    match (Yaml.read cs).map Graph.toValue with
    | .ok (.map entries) => .ok entries
    | .ok _ => .error (.notMapping path)
    | .error .malformed => .error (.malformed path)
    | .error f => .error (.data f)

/-- The content of a theme, read as its suffix says. -/
def readContent (path : Path) (content : Bytes) : Except Fault (List (Value × Value)) :=
  if dataSuffixes.contains path.suffix.toLower then readData path content
  else
    match Dialect.ofSuffix? path.suffix with
    | none => .error (.unsupported path.suffix)
    | some dialect =>
      match readModule dialect content with
      | .ok entries => .ok entries
      | .error .noObject => .error (.noObject path)
      | .error (.notUtf8 f) => .error (.notUtf8 f)
      | .error .endless => .error .endless

/-- Themes that were loaded, by their path. -/
abbrev Cache := Table Path Environment

/-- Load the theme at an absolute path without steps back. -/
def loadFile (files : FileTree) (path : Path) : Except Fault Environment := do
  match files.look path with
  | .error f => throw (.file f)
  | .ok none | .ok (some .directory) => throw (.missing path)
  | .ok (some (.file content)) =>
    match Environment.ofData path (← readContent path content) with
    | .ok e => return e
    | .error .endless => throw .endless
    | .error (.foreignKeys keys) => throw (.foreignKeys keys)

/-- The place that a text names, once the home directory is filled in. Only absolute paths name
one. -/
def place (files : FileTree) (homes : Homes) (location : String) : Except Fault Path :=
  match Path.expandHome homes (.ofString location) with
  | .error f => .error (.location f)
  | .ok path =>
    if path.rooted then
      match files.resolve path with
      | .error f => .error (.location f)
      | .ok path => .ok path
    else .error (.relative location)

/-- Load a theme. One that is in the cache is not read again, and one that fails does not enter
it. -/
def load (files : FileTree) (homes : Homes) (location : String) :
    ExceptT Fault (StateM Cache) Environment := do
  let path ← MonadExcept.ofExcept (place files homes location)
  match (← get).get? path with
  | some e => return e
  | none =>
    let e ← MonadExcept.ofExcept (loadFile files path)
    modify (·.insert path e)
    return e

end ThemedCss.Theme
