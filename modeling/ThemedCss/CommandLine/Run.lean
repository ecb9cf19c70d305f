import ThemedCss.CommandLine.Arguments
import ThemedCss.Compile
import ThemedCss.Extraction
import ThemedCss.Preferences
import ThemedCss.Report.Grid
import ThemedCss.Report.Outline

/-! What the commands do. -/
namespace ThemedCss.CommandLine
open ThemedCss.Report ThemedCss.Output ThemedCss.Text

/-- A fault that ends a command without a message of its own. -/
inductive Failure where
  | settings (fault : SettingsFault)
  | theme (fault : Theme.Fault)
  | compile (fault : CompileFault)
  | file (fault : FileFault)
  /-- A text to be shown closes a style that is not open. -/
  | markup

structure Progress where
  out : Bytes
  errors : List String
  files : FileTree

/-- Why a command stops: with a message and an exit code, or with a failure. -/
inductive Stop where
  | configuration (message : String)
  | failed (failure : Failure)

abbrev Running := StateT Progress (Except Stop)

/-- Show a marked text to the user. -/
def say (text : String) : Running Unit := do
  match lines? text.toList with
  | none => throw (.failed .markup)
  | some ls => modify fun o => { o with errors := o.errors ++ ls.map String.ofList }

def sayLines (lines : Option (List String)) : Running Unit := do
  match lines with
  | none => throw (.failed .markup)
  | some ls => modify fun o => { o with errors := o.errors ++ ls }

def put (bytes : Bytes) : Running Unit :=
  modify fun o => { o with out := o.out ++ bytes }

/-- Faults with a message are faults of the configuration. -/
def configured {ε α : Type} (message? : ε → Option String) (failure : ε → Failure) :
    Except ε α → Running α
  | .ok a => return a
  | .error e =>
    match message? e with
    | some m => throw (.configuration m)
    | none => throw (.failed (failure e))

def fileStep {α : Type} : Except FileFault α → Running α
  | .ok a => return a
  | .error f => throw (.failed (.file f))

/-- Faults of the batch; of these only a missing grammar is one of the configuration. -/
def batchMessage? (f : CompileFault) : Option String :=
  match f with
  | .noGrammar _ => f.message?
  | _ => none

def writeResult (directory : String) (path : Path) (m : Compiled) : Running Unit := do
  let directory := Path.ofString directory
  let files ← fileStep ((← get).files.makeDirectory directory)
  let target := directory.child path.name
  let files ← fileStep (files.write target m.code)
  modify fun o => { o with files }
  say (styled "success" "✓" ++ s!" {path.name} → {target}")

def showResult (outDir : Option String) (mapping : Bool) (path : Path) (m : Compiled) :
    Running Unit := do
  for d in m.diagnostics do
    say (styled "warning" (escape d.text))
  match outDir with
  | some directory => writeResult directory path m
  | none => put (m.code ++ [10])
  if mapping && !m.mapping.isEmpty then
    sayLines (grid? path.name ("variable", "expression")
      (m.mapping.map fun (k, v) => (k, decodeText v)))

/-- Compile files and show their results; the exit code tells whether one of them failed. -/
def runCompile (w : Workspace) (files : List String) (theme outDir : Option String)
    (mapping : Bool) : Running Nat := do
  let settings ← configured SettingsFault.message? .settings (Settings.load w theme [])
  let compiler ← configured Theme.Fault.message? .theme
    ((Compiler.make w.files w.homes settings).run.run []).1
  let results ← configured batchMessage? .compile (compiler.compileMany w files none)
  for (path, result) in results do
    match result with
    | .error f => say (styled "error" (s!"✗ {path}: " ++ escape (f.message?.getD "")))
    | .ok m => showResult outDir mapping path m
  return if results.any fun (_, r) => r matches .error _ then 1 else 0

def runTheme (w : Workspace) (theme : Option String) : Running Nat := do
  let settings ← configured SettingsFault.message? .settings (Settings.load w theme [])
  let e ← configured Theme.Fault.message? .theme
    ((Theme.load w.files w.homes settings.themePath).run.run []).1
  match outline? ("🎨 " ++ styled "primary" e.path.toString) e.data with
  | none => throw (.failed .markup)
  | some ls =>
    put (encode (String.join (ls.map (· ++ "\n"))))
    return 0

structure Outcome where
  exitCode : Nat
  out : Bytes
  errors : List String
  files : FileTree

def logFile (w : Workspace) : Path :=
  match w.logsDirectory with
  | .ok (p, _) => p.child "flair.log"
  | .error _ => (w.dotDirectory.child "logs").child "flair.log"

/-- What is said when the configuration is at fault. -/
def configurationLines (w : Workspace) (message : String) : List String :=
  [styled "error" ("✗ " ++ escape message), styled "info" s!"log: {logFile w}"].flatMap fun text =>
    ((lines? text.toList).getD []).map String.ofList

def Command.steps (w : Workspace) : Command → Running Nat
  | .compile files location outDir mapping => runCompile w files location outDir mapping
  | .theme location => runTheme w location
  | .extract resource => do
    put (Extraction.load resource)
    return 0

def Command.run (w : Workspace) (command : Command) : Except Failure Outcome :=
  match StateT.run (command.steps w) ⟨[], [], w.files⟩ with
  | .ok (exitCode, o) => .ok ⟨exitCode, o.out, o.errors, o.files⟩
  | .error (.configuration message) => .ok ⟨2, [], configurationLines w message, w.files⟩
  | .error (.failed failure) => .error failure

end ThemedCss.CommandLine
