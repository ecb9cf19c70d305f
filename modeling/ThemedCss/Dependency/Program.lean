import ThemedCss.Dependency.Module
import ThemedCss.Syntax.Parser

/-! A module together with all modules it may reach through relative specifiers. -/
namespace ThemedCss.Dependency
open ThemedCss.Syntax ThemedCss.Text

/-- The modules of a program by path. A module that cannot be read has no content. -/
abbrev Program := Table Path (Option Module)

namespace Program

/-- Read a module. It has to be a file of UTF-8 text. -/
def readModule (files : FileTree) (path : Path) : Option Module := do
  let content ← files.read? path
  let text ← (decode content).toOption
  let dialect ← Dialect.ofSuffix? path.suffix
  return .ofTree files path (parse dialect text)

def targets (m : Module) : List Path :=
  m.links.filterMap fun
    | (_, .found path) => some path
    | _ => none

/-- The paths that what was read at a path links to. -/
def linked (m : Option Module) : List Path :=
  (m.map targets).getD []

/-- The program of a module whose tree is known. Each round adds a file, so there are no more rounds
than files. -/
def ofTree (files : FileTree) (path : Path) (root : Node) : Program :=
  let main := Module.ofTree files path root
  Table.grow (readModule files) linked (files.size + 1) (targets main) [(path, some main)]

def module? (program : Program) (path : Path) : Option Module :=
  (program.get? path).join

end Program

/-- The answer to a question about a name: what it depends on, the modules that were looked into,
and a specifier's fault if one was met. -/
structure Answer where
  key : Key
  consulted : List Path := []
  fault : Option LinkFault := none

namespace Answer

def dynamic : Answer := ⟨.dynamic, [], none⟩

/-- The answer of the first of several questions that is not dynamic. -/
def firstKnown (ask : String → Answer) : List String → Answer
  | [] => .dynamic
  | source :: rest =>
    let a := ask source
    if a.key ≠ .dynamic then a
    else
      let b := firstKnown ask rest
      ⟨b.key, a.consulted ++ b.consulted, a.fault.or b.fault⟩

end Answer

/-- What the name `name` of `source` depends on, as seen from a module. `ask` answers for the
modules it links to. -/
def importKey (pureModules : List String) (ask : Path → String → Answer) (m : Module)
    (source name : String) : Answer :=
  if Module.isRelative source then
    match m.links.get? source with
    | some (.found target) =>
      let a := ask target name
      { a with consulted := target :: a.consulted }
    | some (.faulty f) => { Answer.dynamic with fault := some f }
    | _ => .dynamic
  else if pureModules.contains source then ⟨.static, [], none⟩
  else .dynamic

/-- What the export `name` of the module at `path` depends on. `seen` are the exports that led here;
one that leads back to itself is dynamic. -/
def exportKey (program : Program) (pureModules : List String) :
    Nat → List (Path × String) → Path → String → Answer
  | 0, _, _, _ => .dynamic
  | depth + 1, seen, path, name =>
    if seen.contains (path, name) then .dynamic
    else
      match program.module? path with
      | none => .dynamic
      | some m =>
        let ask := exportKey program pureModules depth ((path, name) :: seen)
        match m.exports.get? name with
        | some (.own ownName) =>
          if m.bindings.has ownName then ⟨.global path ownName, [], none⟩ else .dynamic
        | some (.reexported source name') => importKey pureModules ask m source name'
        | none => Answer.firstKnown (fun source => importKey pureModules ask m source name) m.stars

/-- More than the number of exports that can lead to each other: in each module, the name asked for
and the names under which modules re-export something. -/
def exportDepth (program : Program) : Nat :=
  let reexports := (program.map fun (_, m) => ((m.map (·.exports.length)).getD 0)).foldr (· + ·) 0
  program.length * (reexports + 1) + 1

end ThemedCss.Dependency
