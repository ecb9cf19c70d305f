import ThemedCss.Preferences
import ThemedCss.Proofs.Data.Fresh
import ThemedCss.Proofs.Data.Sharing
import ThemedCss.Proofs.FileTree
import ThemedCss.Proofs.Text.Utf8
import ThemedCss.Proofs.Yaml.Reader

/-! Preferences in use: where they come from, and what requests do to them and to their file. -/
namespace ThemedCss.Preferences
open ThemedCss.Data ThemedCss.Text

variable {w w' : Workspace} {p : Preferences}

section Files

/-- There is a place for the preferences, and they can be read from it. -/
structure Writable (w : Workspace) : Prop where
  short : w.preferencesPath.toString.utf8ByteSize ≤ FileTree.pathLimit
  ready : ∃ files, w.files.makeDirectory w.settingsDirectory = .ok files ∧
    files.Ready w.settingsDirectory "preferences.yml"

private theorem short_of_load (h : load w = .ok p) :
    w.preferencesPath.toString.utf8ByteSize ≤ FileTree.pathLimit := by
  apply Nat.not_lt.mp
  intro hlong
  have hlook : w.files.look w.preferencesPath = .error .nameTooLong := by
    rw [FileTree.look, FileTree.locate, if_pos hlong]
  simp [load, readFile, hlook, bind, Except.bind] at h

theorem writable_of_save (hload : load w = .ok p) (hsave : save w p = .ok w') : Writable w := by
  refine ⟨short_of_load hload, ?_⟩
  unfold save at hsave
  cases hmake : w.files.makeDirectory w.settingsDirectory with
  | error f => simp [hmake, bind, Except.bind] at hsave
  | ok files =>
    refine ⟨files, rfl, ?_⟩
    cases hwrite : files.write w.preferencesPath (encode (Yaml.write p.graph)) with
    | error f => simp [hmake, hwrite, bind, Except.bind] at hsave
    | ok written => exact FileTree.ready_of_write hmake hwrite

/-- What can be saved once can be saved again, and stays what it is until then. -/
theorem Writable.save (h : Writable w) (p : Preferences) :
    ∃ files, Preferences.save w p = .ok { w with files } ∧ Writable { w with files } ∧
      files.look w.preferencesPath = .ok (some (.file (encode (Yaml.write p.graph)))) := by
  obtain ⟨hshort, files, hmake, hready⟩ := h
  have hwrite := hready.write (encode (Yaml.write p.graph))
  have hput := hready.put (encode (Yaml.write p.graph))
  refine ⟨files.put (files.placeIn w.settingsDirectory "preferences.yml")
    (.file (encode (Yaml.write p.graph))), ?_, ⟨hshort, _, hput.leads.makeFrom, hput⟩,
    hready.look _ hshort⟩
  change files.write w.preferencesPath _ = _ at hwrite
  simp only [Preferences.save, hmake, bind, Except.bind, hwrite]
  rfl

private theorem readFile_cases {g : Graph} (h : readFile w = .ok g) :
    g = .empty ∨ g.toValue.isEmpty = false ∧ ∃ cs, Yaml.read cs = .ok g := by
  unfold readFile at h
  cases hlook : w.files.look w.preferencesPath with
  | error f => simp [hlook] at h
  | ok entry =>
    match entry with
    | none => simp_all
    | some .directory => simp [hlook] at h
    | some (.file content) =>
      cases hdecode : decode content with
      | error f => simp [hlook, hdecode] at h
      | ok cs =>
        cases hread : Yaml.read cs with
        | ok g' =>
          simp only [hlook, hdecode, hread, Except.ok.injEq] at h
          by_cases he : g'.toValue.isEmpty
          · left
            rw [← h, if_pos he]
          · right
            rw [← h, if_neg he]
            exact ⟨Bool.eq_false_iff.mpr he, cs, hread⟩
        | error f => cases f <;> simp_all

/-- Preferences that were read and do not count as such are empty. -/
theorem load_cases (h : load w = .ok p) :
    p = ⟨.empty, false⟩ ∨
      p.initialized = true ∧ p.graph.toValue.isEmpty = false ∧
      ∃ cs, Yaml.read cs = .ok p.graph := by
  unfold load at h
  cases hread : readFile w with
  | error f => simp [hread, bind, Except.bind] at h
  | ok g =>
    simp only [hread, bind, Except.bind, pure, Except.pure, Except.ok.injEq] at h
    subst h
    obtain rfl | ⟨hne, hg⟩ := readFile_cases hread
    · exact .inl rfl
    · exact .inr ⟨by simp [hne], hne, hg⟩

theorem whole_load (h : load w = .ok p) : p.graph.Whole := by
  obtain rfl | ⟨-, -, cs, hread⟩ := load_cases h
  · exact Graph.whole_empty
  · exact Yaml.whole_read hread

theorem load_of_look {text : String} {g : Graph}
    (hlook : w.files.look w.preferencesPath = .ok (some (.file (encode text))))
    (hread : Yaml.read text.toList = .ok g) (hne : g.toValue.isEmpty = false) :
    load w = .ok ⟨g, true⟩ := by
  have hfile : readFile w = .ok g := by simp [readFile, hlook, decode_encode, hread, hne]
  simp [load, hfile, hne, bind, Except.bind, pure, Except.pure]

theorem current_of_initialized (w : Workspace) (h : p.initialized = true) :
    p.current w = .ok p := by
  rw [current, if_pos h]

theorem current_of_load {fresh : Preferences} (hp : p.initialized = false)
    (h : load w = .ok fresh) :
    p.current w = .ok ⟨fresh.graph.behind p.graph.cells, fresh.initialized⟩ := by
  rw [current, if_neg (by simp [hp]), reload, h]
  rfl

end Files

namespace Request

def change (p : Preferences) : Request → Preferences
  | set keys v _ => (p.set keys v).1
  | make c => { p with graph.cells := p.graph.cells.push c }
  | _ => p

/-- Whether a request gets as far as to write the file. -/
def saves (p : Preferences) : Request → Bool
  | set keys v save => save && (p.set keys v).2.isNone
  | _ => false

def isMake : Request → Bool
  | make _ => true
  | _ => false

/-- Parts that go into the data with a request are there. -/
def Within (size : Nat) : Request → Prop
  | set _ v _ => v.Within size
  | make c => ∀ q ∈ c.parts, q.Within size
  | _ => True

variable {r : Request}

theorem Within.mono {m n : Nat} (h : r.Within m) (hle : m ≤ n) : r.Within n := by
  cases r with
  | get | sectionOf => trivial
  | set keys v save => exact Given.Within.mono h hle
  | make c => exact fun q hq => (h q hq).mono hle

theorem isMake_of_saves (h : r.saves p = true) : r.isMake = false := by
  cases r with
  | make c => cases h
  | _ => rfl

theorem change_initialized (p : Preferences) (r : Request) :
    (r.change p).initialized = p.initialized := by
  cases r with
  | set keys v => cases keys <;> rfl
  | _ => rfl

/-- A mapping at the root stays one. -/
theorem mapping_change (r : Request) (h : (Graph.entries? p.graph.cells p.graph.root).isSome) :
    (Graph.entries? (r.change p).graph.cells (r.change p).graph.root).isSome := by
  cases r with
  | get | sectionOf => exact h
  | set keys v save =>
    cases keys with
    | nil => exact h
    | cons k rest =>
      obtain ⟨hroot, hmappings⟩ := Graph.mappings_set p.graph p.graph.root k v rest
      simp only [change, Preferences.set, hroot]
      exact hmappings _ h
  | make c => exact Graph.isSome_entries?_of_old ((Graph.Grown.nil p.graph.cells).push c).old h

theorem wholeMapping_change (h : p.graph.WholeMapping) (hr : r.Within p.graph.cells.size) :
    (r.change p).graph.WholeMapping := by
  refine ⟨?_, mapping_change r h.mapping⟩
  cases r with
  | get | sectionOf => exact h.toWhole
  | set keys v save =>
    cases keys with
    | nil => exact h.toWhole
    | cons k rest => exact h.toWhole.set _ k hr rest
  | make c => exact ⟨h.closed.push hr, h.root.mono ((Graph.Grown.nil p.graph.cells).push c).size⟩

end Request

namespace Session

variable {s : Session} {r : Request}

/-- The preferences that a request is made to. Nothing is read to make a collection. -/
def basis (s : Session) (r : Request) : Except PreferenceFault Preferences :=
  if r.isMake then .ok s.preferences else s.preferences.current s.workspace

theorem basis_of_initialized (h : s.preferences.initialized = true) (r : Request) :
    s.basis r = .ok s.preferences := by
  rw [basis, current_of_initialized _ h, ite_self]

theorem basis_of_current (hp : s.preferences.current s.workspace = .ok p)
    (hmake : r.isMake = false) : s.basis r = .ok p := by
  rw [basis, hmake, if_neg Bool.false_ne_true, hp]

private theorem serve_of_basis_error {f : PreferenceFault} (h : s.basis r = .error f) :
    s.serve r = (.error f, s) := by
  cases r with
  | make c => cases h
  | _ =>
    simp only [basis, Request.isMake, Bool.false_eq_true, if_false] at h
    simp only [serve, h]

/-- A request changes the preferences it is made to, and writes them if it gets that far. -/
theorem serve_of_basis (hp : s.basis r = .ok p) (hw : Writable s.workspace) :
    ∃ files, (s.serve r).2 = ⟨{ s.workspace with files }, r.change p⟩ ∧
      Writable { s.workspace with files } ∧
      if r.saves p then
        files.look s.workspace.preferencesPath =
          .ok (some (.file (encode (Yaml.write (r.change p).graph))))
      else files = s.workspace.files := by
  cases r with
  | make c =>
    obtain rfl : s.preferences = p := Except.ok.inj hp
    exact ⟨s.workspace.files, rfl, hw, rfl⟩
  | get keys default | sectionOf keys default =>
    simp only [basis, Request.isMake, Bool.false_eq_true, if_false] at hp
    refine ⟨s.workspace.files, ?_, hw, rfl⟩
    simp only [serve, hp]
    rfl
  | set keys v save =>
    simp only [basis, Request.isMake, Bool.false_eq_true, if_false] at hp
    cases hfault : (p.set keys v).2 with
    | some f =>
      refine ⟨s.workspace.files, ?_, hw, by simp [Request.saves, hfault]⟩
      simp only [serve, hp, hfault]
      rfl
    | none =>
      cases save with
      | false =>
        refine ⟨s.workspace.files, ?_, hw, rfl⟩
        simp only [serve, hp, hfault]
        rfl
      | true =>
        obtain ⟨files, hsave, hwritable, hlook⟩ := hw.save (p.set keys v).1
        refine ⟨files, ?_, hwritable, ?_⟩
        · simp only [serve, hp, hfault, if_true, hsave]
          rfl
        · simp only [Request.saves, hfault]
          exact hlook

/-- The preferences change, whether or not they can be saved then. -/
theorem serve_preferences (hp : s.basis r = .ok p) : (s.serve r).2.preferences = r.change p := by
  cases r with
  | make c =>
    obtain rfl : s.preferences = p := Except.ok.inj hp
    rfl
  | get keys default | sectionOf keys default =>
    simp only [basis, Request.isMake, Bool.false_eq_true, if_false] at hp
    simp only [serve, hp]
    rfl
  | set keys v save =>
    simp only [basis, Request.isMake, Bool.false_eq_true, if_false] at hp
    simp only [serve, hp, Request.change]
    cases (p.set keys v).2 with
    | some f => rfl
    | none =>
      cases save with
      | false => rfl
      | true =>
        rw [if_pos rfl]
        cases Preferences.save s.workspace (p.set keys v).1 <;> rfl

theorem serve_get (hp : s.preferences.current s.workspace = .ok p) (keys : List Value)
    (default : Given) :
    s.serve (.get keys default) = (p.get keys default, { s with preferences := p }) := by
  simp only [serve, hp]

theorem serve_sectionOf (hp : s.preferences.current s.workspace = .ok p) (keys : List Value)
    (default : Given) :
    s.serve (.sectionOf keys default) =
      (p.sectionOf keys default, { s with preferences := p }) := by
  simp only [serve, hp]

def after (s : Session) (rs : List Request) : Session :=
  rs.foldl (fun s r => (s.serve r).2) s

theorem after_append (s : Session) (before later : List Request) :
    s.after (before ++ later) = (s.after before).after later :=
  List.foldl_append

theorem serve_workspace (hw : Writable s.workspace) (r : Request) :
    Writable (s.serve r).2.workspace ∧
      (s.serve r).2.workspace.preferencesPath = s.workspace.preferencesPath := by
  cases hp : s.basis r with
  | error f =>
    rw [serve_of_basis_error hp]
    exact ⟨hw, rfl⟩
  | ok p =>
    obtain ⟨files, hafter, hwritable, -⟩ := serve_of_basis hp hw
    rw [hafter]
    exact ⟨hwritable, rfl⟩

theorem after_workspace (hw : Writable s.workspace) (rs : List Request) :
    Writable (s.after rs).workspace ∧
      (s.after rs).workspace.preferencesPath = s.workspace.preferencesPath := by
  induction rs generalizing s with
  | nil => exact ⟨hw, rfl⟩
  | cons r rs ih =>
    obtain ⟨hnext, hpath⟩ := serve_workspace hw r
    rw [← hpath]
    exact ih hnext

/-- Preferences that were read and are not empty are never read again. -/
theorem after_preferences (h : s.preferences.initialized = true) (rs : List Request) :
    (s.after rs).preferences = rs.foldl Request.change s.preferences ∧
      (s.after rs).preferences.initialized = true := by
  induction rs generalizing s with
  | nil => exact ⟨rfl, h⟩
  | cons r rs ih =>
    have hnext := serve_preferences (basis_of_initialized h r)
    rw [List.foldl_cons, ← hnext]
    apply ih
    rw [hnext, Request.change_initialized, h]

end Session

end ThemedCss.Preferences
