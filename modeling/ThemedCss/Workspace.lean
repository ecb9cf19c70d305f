import ThemedCss.FileTree

/-! Where a project keeps its files. -/
namespace ThemedCss

/-- The files, the root of the project, the home directories, and the place for logs if one is
set. -/
structure Workspace where
  files : FileTree
  root : Path
  homes : Homes
  logs : Option String

namespace Workspace

/-- The absolute path for a text: relative ones start at the root of the project. -/
def resolve (w : Workspace) (location : String) : Except PathFault Path := do
  w.files.resolve ((← Path.expandHome w.homes (.ofString location)).under w.root)

/-- The same workspace with another project; relative paths start at the current directory. -/
def setRoot (w : Workspace) (location : String) : Except PathFault Workspace := do
  return { w with root := ← w.files.resolve (.ofString location) }

/-- The directory for what belongs to the project but not to its source. -/
def dotDirectory (w : Workspace) : Path :=
  w.root.child ".flair"

def settingsDirectory (w : Workspace) : Path :=
  w.dotDirectory.child "settings"

def preferencesPath (w : Workspace) : Path :=
  w.settingsDirectory.child "preferences.yml"

def ensure (w : Workspace) (p : Path) : Except FileFault Workspace := do
  return { w with files := ← w.files.makeDirectory p }

inductive LogFault where
  | location (fault : PathFault)
  | file (fault : FileFault)
deriving DecidableEq, Repr

/-- The directory for logs, which is made: the one that is set, else one in the project. -/
def logsDirectory (w : Workspace) : Except LogFault (Path × Workspace) := do
  let ensure (w : Workspace) (p : Path) : Except LogFault Workspace :=
    match w.ensure p with
    | .ok w => .ok w
    | .error f => .error (.file f)
  match w.logs.filter (!·.isEmpty) with
  | some location =>
    match (Path.expandHome w.homes (.ofString location)).bind w.files.resolve with
    | .error f => throw (.location f)
    | .ok p => return (p, ← ensure w p)
  | none =>
    let w ← ensure w w.dotDirectory
    let p := w.dotDirectory.child "logs"
    return (p, ← ensure w p)

end Workspace
end ThemedCss
