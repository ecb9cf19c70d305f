import ThemedCss.Dependency.Classify
import ThemedCss.Output.Basic
import ThemedCss.Style.Scan
import ThemedCss.Theme.Load
import ThemedCss.Workspace

/-! Compiling modules. -/
namespace ThemedCss
open ThemedCss.Dependency ThemedCss.Output ThemedCss.Style ThemedCss.Syntax ThemedCss.Text
  ThemedCss.Theme

inductive CompileFault where
  | location (fault : PathFault)
  | noGrammar (suffix : String)
  | notUtf8 (filename : String) (fault : Utf8Fault)
  | unreadable (path : Path) (fault : FileFault)
  | collision (collision : Collision)
  | overlap (pos : Int)
  | link (fault : LinkFault)
  | noWorkers

namespace CompileFault

def message? : CompileFault → Option String
  | noGrammar suffix => some s!"No grammar registered for {quoted suffix} files"
  | notUtf8 filename fault => some s!"{filename} is not valid UTF-8: {fault.message}"
  | unreadable path fault => some s!"cannot read {path}: {fault.message path}"
  | collision c => some c.message
  | overlap pos => some (overlapMessage pos)
  | location _ | link _ | noWorkers => none

/-- Faults of one file leave the other files of a batch alone. -/
def isLocal : CompileFault → Bool
  | notUtf8 .. | unreadable .. | collision _ => true
  | location _ | noGrammar _ | overlap _ | link _ | noWorkers => false

end CompileFault

/-- What a batch of modules is compiled with. -/
structure Compiler where
  settings : Settings
  environment : Environment

namespace Compiler

/-- A compiler with its theme loaded. -/
def make (files : FileTree) (homes : Homes) (settings : Settings) :
    ExceptT Fault (StateM Cache) Compiler := do
  return ⟨settings, ← Theme.load files homes settings.themePath⟩

def dialectOf (path : Path) : Except CompileFault Dialect :=
  match Dialect.ofSuffix? path.suffix with
  | some d => .ok d
  | none => .error (.noGrammar path.suffix)

/-- Label the interpolations of definitions and give the dynamic ones their tokens. -/
def label (c : Compiler) (files : FileTree) (path : Path) (filename : String) (root : Node)
    (calls : List (Call Interpolation)) : Except CompileFault (List (Call Named)) :=
  if calls.isEmpty then .ok []
  else
    match classify files c.settings c.environment.allows path root calls with
    | .error f => .error (.link f)
    | .ok classification =>
      match nameAll (fileId filename) classification.calls with
      | .error collision => .error (.collision collision)
      | .ok named => .ok named

def compileTree (c : Compiler) (w : Workspace) (source : Bytes) (filename : String) (path : Path)
    (root : Node) : Except CompileFault Compiled := do
  let definitions := scan c.settings source root filename
  let calls ← c.label w.files path filename root definitions.calls
  match emit c.settings source root filename calls definitions.diagnostics with
  | .ok m => return m
  | .error pos => throw (.overlap pos)

def compileSource (c : Compiler) (w : Workspace) (source : Bytes) (filename : String) :
    Except CompileFault Compiled := do
  let chars ← match decode source with
    | .ok cs => .ok cs
    | .error f => .error (.notUtf8 filename f)
  match w.resolve filename with
  | .error f => throw (.location f)
  | .ok path => c.compileTree w source filename path (parse (← dialectOf path) chars)

/-- Compile the file at an absolute path. -/
def compilePath (c : Compiler) (w : Workspace) (path : Path) : Except CompileFault Compiled :=
  match w.files.read path with
  | .ok source => c.compileSource w source path.toString
  | .error f => .error (.unreadable path f)

def compileFile (c : Compiler) (w : Workspace) (location : String) : Except CompileFault Compiled :=
  match w.resolve location with
  | .error f => .error (.location f)
  | .ok path => c.compilePath w path

/-- Compile a file of a batch; its own faults are its result. -/
def compileEach (c : Compiler) (w : Workspace) (path : Path) :
    Except CompileFault (Path × Except CompileFault Compiled) :=
  match c.compilePath w path with
  | .error f => if f.isLocal then .ok (path, .error f) else .error f
  | .ok m => .ok (path, .ok m)

/-- Compile several files, with a number of workers if one is given. The first fault that is not of
one file ends the batch. -/
def compileMany (c : Compiler) (w : Workspace) (locations : List String) (workers : Option Int) :
    Except CompileFault (List (Path × Except CompileFault Compiled)) :=
  match locations.mapM w.resolve with
  | .error f => .error (.location f)
  | .ok paths => if workers.any (· ≤ 0) then .error .noWorkers else paths.mapM (c.compileEach w)

end Compiler
end ThemedCss
