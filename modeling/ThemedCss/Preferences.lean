import ThemedCss.Settings
import ThemedCss.Workspace
import ThemedCss.Yaml.Reader
import ThemedCss.Yaml.Writer

/-! Preferences of a project, and the settings made from them. -/
namespace ThemedCss
open ThemedCss.Data ThemedCss.Text

inductive PreferenceFault where
  | notUtf8 (fault : Utf8Fault)
  | data (fault : Yaml.Fault)
  | file (fault : FileFault)
  | noKey
  | access (fault : Graph.AccessFault)

/-- Preferences that were empty when last read are read again before each use. -/
structure Preferences where
  graph : Graph
  initialized : Bool

namespace Preferences

/-- What is in the file; broken data count as none. -/
def readFile (w : Workspace) : Except PreferenceFault Graph :=
  match w.files.look w.preferencesPath with
  | .error f => .error (.file f)
  | .ok none => .ok .empty
  | .ok (some .directory) => .error (.file .isDirectory)
  | .ok (some (.file content)) =>
    match decode content with
    | .error f => .error (.notUtf8 f)
    | .ok cs =>
      match Yaml.read cs with
      | .ok g => .ok (if g.toValue.isEmpty then .empty else g)
      | .error .malformed => .ok .empty
      | .error f => .error (.data f)

def data (p : Preferences) : Value :=
  p.graph.toValue

def load (w : Workspace) : Except PreferenceFault Preferences := do
  let graph ← readFile w
  return ⟨graph, !graph.toValue.isEmpty⟩

/-- Read the preferences again. Parts that were handed out before stay what they are. -/
def reload (w : Workspace) (p : Preferences) : Except PreferenceFault Preferences := do
  let fresh ← load w
  return { fresh with graph := fresh.graph.behind p.graph.cells }

def current (w : Workspace) (p : Preferences) : Except PreferenceFault Preferences :=
  if p.initialized then .ok p else p.reload w

def get (p : Preferences) (keys : List Value) (default : Given) : Except PreferenceFault Given :=
  match p.graph.get? p.graph.root keys with
  | .ok (some part) => .ok (.live part)
  | .ok none => .ok default
  | .error f => .error (.access f)

/-- A mapping behind a chain of keys; anything else counts as empty. -/
def sectionOf (p : Preferences) (keys : List Value) (default : Given) :
    Except PreferenceFault Given := do
  let found ← p.get keys (if (default.value p.graph).isEmpty then .new (.map []) else default)
  return if found.isMapping p.graph then found else .new (.map [])

/-- Set a value; what was changed before a fault stays changed. Needs a key. -/
def set (p : Preferences) (keys : List Value) (value : Given) :
    Preferences × Option PreferenceFault :=
  match keys with
  | [] => (p, some .noKey)
  | k :: rest =>
    let (graph, fault) := p.graph.set p.graph.root k value rest
    ({ p with graph }, fault.map .access)

def save (w : Workspace) (p : Preferences) : Except PreferenceFault Workspace := do
  let lift {α : Type} : Except FileFault α → Except PreferenceFault α
    | .ok a => .ok a
    | .error f => .error (.file f)
  let files ← lift (w.files.makeDirectory w.settingsDirectory)
  return { w with files := ← lift (files.write w.preferencesPath (encode (Yaml.write p.graph))) }

/-- What a caller does with the preferences of a project. -/
inductive Request where
  | get (keys : List Value) (default : Given)
  | sectionOf (keys : List Value) (default : Given)
  | set (keys : List Value) (value : Given) (save : Bool)
  /-- Make a collection of parts, without a look at the preferences. -/
  | make (c : Cell)

/-- A project, and its preferences as they are in use. -/
structure Session where
  workspace : Workspace
  preferences : Preferences

/-- The answer to a request, and what is in use afterwards. Setting a value answers nothing. -/
def Session.serve (s : Session) (r : Request) : Except PreferenceFault Given × Session :=
  match r with
  | .make c =>
    let (cells, part) := Graph.push s.preferences.graph.cells c
    (.ok (.live part), { s with preferences.graph.cells := cells })
  | .get keys default =>
    match s.preferences.current s.workspace with
    | .error f => (.error f, s)
    | .ok p => (p.get keys default, { s with preferences := p })
  | .sectionOf keys default =>
    match s.preferences.current s.workspace with
    | .error f => (.error f, s)
    | .ok p => (p.sectionOf keys default, { s with preferences := p })
  | .set keys value save =>
    match s.preferences.current s.workspace with
    | .error f => (.error f, s)
    | .ok p =>
      let (p, fault) := p.set keys value
      let s := { s with preferences := p }
      match fault with
      | some f => (.error f, s)
      | none =>
        if save then
          match p.save s.workspace with
          | .ok workspace => (.ok (.new .null), { s with workspace })
          | .error f => (.error f, s)
        else (.ok (.new .null), s)

end Preferences

inductive SettingsFault where
  | noTheme
  | preferences (fault : PreferenceFault)
  | notPath
  | location (fault : PathFault)
  | fields (faults : List FieldFault)

def SettingsFault.message? : SettingsFault → Option String
  | noTheme => some "No theme configured: pass --theme or set transform.theme_path in preferences"
  | _ => none

/-- The settings of a project: its preferences, over them what is given as `overrides` and is not
null, over them the theme. -/
def Settings.load (w : Workspace) (theme : Option String) (overrides : List (Value × Value)) :
    Except SettingsFault Settings := do
  let preferences ← match Preferences.load w with
    | .ok p => .ok p
    | .error f => .error (.preferences f)
  let given := overrides.filter fun
    | (_, .null) => false
    | _ => true
  let preferred ← match preferences.sectionOf [.text "transform"] (.new .null) with
    | .ok found => .ok ((found.value preferences.graph).entries?.getD [])
    | .error f => .error (.preferences f)
  let data := given.foldl (fun m (k, v) => Value.insert k v m) preferred
  let data := match theme with
    | some t => Value.insert (.text "theme_path") (.text t) data
    | none => data
  let location := (Value.find? (.text "theme_path") data).getD .null
  if location.isEmpty then throw .noTheme
  match location with
  | .text s =>
    match w.resolve s with
    | .error f => throw (.location f)
    | .ok path =>
      match Settings.ofData path.toString data with
      | .ok settings => return settings
      | .error faults => throw (.fields faults)
  | _ => throw .notPath

end ThemedCss
