import ThemedCss.Proofs.Table
import ThemedCss.Theme.Load

/-! What a load gives after any sequence of loads, clears and changes of the files. -/
namespace ThemedCss.Theme
open ThemedCss.Data ThemedCss.Syntax ThemedCss.Text

/-- The file at a path now holds the theme `e`. -/
def Holds (files : FileTree) (path : Path) (e : Environment) : Prop :=
  ∃ content data, files.look path = .ok (some (.file content)) ∧
    readContent path content = .ok data ∧ Environment.ofData path data = .ok e

theorem loadFile_eq_ok_iff {files : FileTree} {path : Path} {e : Environment} :
    loadFile files path = .ok e ↔ Holds files path e := by
  unfold Holds loadFile
  cases hl : files.look path with
  | error f => simp [throw, throwThe, MonadExceptOf.throw]
  | ok entry =>
    match entry with
    | none | some .directory => simp [throw, throwThe, MonadExceptOf.throw]
    | some (.file content) =>
      cases hr : readContent path content with
      | error f => simp [hr, bind, Except.bind]
      | ok data =>
        cases he : Environment.ofData path data with
        | ok e' => simp [hr, he, bind, Except.bind, pure, Except.pure]
        | error f =>
          cases f <;> simp [hr, he, bind, Except.bind, throw, throwThe, MonadExceptOf.throw]

inductive Event where
  | load (location : String)
  | clear
  /-- Files are written or deleted; these are there afterwards. -/
  | change (files : FileTree)

structure Session where
  files : FileTree
  cache : Cache

namespace Session

/-- What a load answers, and the cache that it leaves. -/
def load (homes : Homes) (s : Session) (location : String) : Except Fault Environment × Cache :=
  ((Theme.load s.files homes location).run.run s.cache).run

section Load

variable {homes : Homes} {s : Session} {location : String} {path : Path}
  {e : Environment} {f : Fault}

private theorem run_ofExcept {α : Type} (r : Except Fault α) :
    (MonadExcept.ofExcept r : ExceptT Fault (StateM Cache) α).run = pure r := by
  cases r <;> rfl

private theorem run_get (cache : Cache) :
    (get : ExceptT Fault (StateM Cache) Cache).run.run cache = pure (.ok cache, cache) :=
  rfl

private theorem run_modify (change : Cache → Cache) (cache : Cache) :
    (modify change : ExceptT Fault (StateM Cache) PUnit).run.run cache =
      pure (.ok ⟨⟩, change cache) :=
  rfl

theorem load_of_place_error (hp : place s.files homes location = .error f) :
    s.load homes location = (.error f, s.cache) := by
  simp [load, Theme.load, ExceptT.run_bind, run_ofExcept, hp]

theorem load_of_cached (hp : place s.files homes location = .ok path)
    (hc : s.cache.get? path = some e) : s.load homes location = (.ok e, s.cache) := by
  simp [load, Theme.load, ExceptT.run_bind, run_ofExcept, run_get, hp, hc]

theorem load_of_unread (hp : place s.files homes location = .ok path)
    (hc : s.cache.get? path = none) (hread : loadFile s.files path = .error f) :
    s.load homes location = (.error f, s.cache) := by
  simp [load, Theme.load, ExceptT.run_bind, run_ofExcept, run_get, hp, hc, hread]

theorem load_of_read (hp : place s.files homes location = .ok path)
    (hc : s.cache.get? path = none) (hread : loadFile s.files path = .ok e) :
    s.load homes location = (.ok e, s.cache.insert path e) := by
  simp [load, Theme.load, ExceptT.run_bind, run_ofExcept, run_get, run_modify, hp, hc,
    hread, Except.map]

/-- A load of what is not in the cache answers what the file gives. -/
theorem load_of_new (hp : place s.files homes location = .ok path) (hc : s.cache.get? path = none) :
    (s.load homes location).1 = loadFile s.files path := by
  cases hread : loadFile s.files path with
  | error f => rw [load_of_unread hp hc hread]
  | ok e => rw [load_of_read hp hc hread]

/-- The cache stays as it was wherever a load fails. -/
theorem cache_of_load_error (h : (s.load homes location).1 = .error f) :
    (s.load homes location).2 = s.cache := by
  cases hp : place s.files homes location with
  | error f' => rw [load_of_place_error hp]
  | ok path =>
    cases hc : s.cache.get? path with
    | some e => rw [load_of_cached hp hc]
    | none =>
      rw [load_of_new hp hc] at h
      rw [load_of_unread hp hc h]

end Load

def step (homes : Homes) (s : Session) : Event → Session
  | .load location => { s with cache := (s.load homes location).2 }
  | .clear => { s with cache := [] }
  | .change files => { s with files }

/-- What is there after some events. Nothing is loaded at first. -/
def run (homes : Homes) (files : FileTree) (events : List Event) : Session :=
  events.foldl (step homes) ⟨files, []⟩

variable {homes : Homes} {files : FileTree} {events : List Event} {path : Path} {e : Environment}

theorem run_append (events later : List Event) :
    run homes files (events ++ later) = later.foldl (step homes) (run homes files events) :=
  List.foldl_append

/-- A load of this text gives `e` now, for a file at `path`. -/
def Gives (homes : Homes) (s : Session) (location : String) (path : Path) (e : Environment) :
    Prop :=
  place s.files homes location = .ok path ∧ (s.load homes location).1 = .ok e

/-- Since the themes were last cleared, a load has given `e` for `path`, however the path was
written. -/
def Given (homes : Homes) (files : FileTree) (events : List Event) (path : Path) (e : Environment) :
    Prop :=
  ∃ before location after, events = before ++ .load location :: after ∧ .clear ∉ after ∧
    (run homes files before).Gives homes location path e

private theorem not_given_nil : ¬Given homes files [] path e := by
  rintro ⟨before, location, after, h, -⟩
  simp at h

/-- What the last event adds to what was given. -/
theorem given_append_singleton (event : Event) :
    Given homes files (events ++ [event]) path e ↔
      (∃ location, event = .load location ∧ (run homes files events).Gives homes location path e) ∨
      event ≠ .clear ∧ Given homes files events path e := by
  constructor
  · rintro ⟨before, location, after, h, hclear, hgives⟩
    rcases List.eq_nil_or_concat after with rfl | ⟨rest, last, rfl⟩
    · obtain ⟨rfl, hlast⟩ := List.append_inj' h rfl
      obtain rfl : event = .load location := by simpa using hlast
      exact .inl ⟨location, rfl, hgives⟩
    · rw [List.concat_eq_append, ← List.cons_append, ← List.append_assoc] at h
      obtain ⟨rfl, hlast⟩ := List.append_inj' h rfl
      obtain rfl : event = last := by simpa using hlast
      simp only [List.concat_eq_append, List.mem_append, List.mem_singleton, not_or] at hclear
      exact .inr ⟨Ne.symm hclear.2, before, location, rest, rfl, hclear.1, hgives⟩
  · rintro (⟨location, rfl, hgives⟩ | ⟨hne, before, location, after, rfl, hclear, hgives⟩)
    · exact ⟨events, location, [], rfl, by simp, hgives⟩
    · refine ⟨before, location, after ++ [event], by simp, ?_, hgives⟩
      simp [hclear, Ne.symm hne]

/-- What one load leaves in the cache: what was there, and what the load has given. -/
theorem get?_step_load (s : Session) (location : String) :
    (s.step homes (.load location)).cache.get? path = some e ↔
      s.Gives homes location path e ∨ s.cache.get? path = some e := by
  unfold step Gives
  cases hp : place s.files homes location with
  | error f => simp [load_of_place_error hp]
  | ok p =>
    cases hc : s.cache.get? p with
    | some e' =>
      simp only [load_of_cached hp hc, Except.ok.injEq]
      refine ⟨.inr, ?_⟩
      rintro (⟨rfl, rfl⟩ | h)
      · exact hc
      · exact h
    | none =>
      cases hread : loadFile s.files p with
      | error f => simp [load_of_unread hp hc hread]
      | ok e' =>
        have hnew : p ∉ s.cache.keys := Table.get?_eq_none_iff.mp hc
        simp only [load_of_read hp hc hread, Table.insert_eq_append e' hnew,
          Table.get?_append, Table.get?, Except.ok.injEq]
        by_cases hpp : p = path
        · subst hpp
          simp [hc]
        · simp [hpp]

private theorem step_load_of_error {s : Session} {location : String} {f : Fault}
    (h : (s.load homes location).1 = .error f) : s.step homes (.load location) = s := by
  simp only [step, cache_of_load_error h]

/-- The cache holds what was given since it was last cleared. -/
theorem get?_run_iff :
    (run homes files events).cache.get? path = some e ↔ Given homes files events path e := by
  induction events using List.reverseRecOn generalizing path e with
  | nil => simp [run, Table.get?, not_given_nil]
  | append_singleton events event ih =>
    rw [given_append_singleton, run_append, List.foldl_cons, List.foldl_nil]
    cases event with
    | load location => simp [get?_step_load, ih]
    | clear => simp [step, Table.get?]
    | change files' => simp [step, ih]

private theorem get?_run_of_not_given (h : ∀ e, ¬Given homes files events path e) :
    (run homes files events).cache.get? path = none := by
  rw [Option.eq_none_iff_forall_ne_some]
  intro e he
  exact h e (get?_run_iff.mp he)

/-- After any events, a load of a path that was loaded since the themes were last cleared gives the
same theme again, whatever has become of the file and however the path is written. Any other load
gives the theme that the file holds now, or fails. The cache that a failed load leaves is the one
that it found, so once the file is repaired it is loaded. -/
theorem load_after_events (homes : Homes) (files : FileTree) (events : List Event)
    (location : String) :
    let s := run homes files events
    (∀ f, place s.files homes location = .error f → (s.load homes location).1 = .error f) ∧
    (∀ f, (s.load homes location).1 = .error f →
      (s.load homes location).2 = s.cache ∧ run homes files (events ++ [.load location]) = s) ∧
    ∀ path, place s.files homes location = .ok path →
      (∀ e, Given homes files events path e → s.load homes location = (.ok e, s.cache)) ∧
      ((∀ e, ¬Given homes files events path e) →
        ∀ e, (s.load homes location).1 = .ok e ↔ Holds s.files path e) ∧
      ∀ f, (s.load homes location).1 = .error f → ∀ repaired e, Holds repaired path e →
        ∀ again, place repaired homes again = .ok path →
          ((run homes files (events ++ [.load location, .change repaired])).load homes again).1 =
            .ok e := by
  intro s
  have hstay : ∀ f, (s.load homes location).1 = .error f →
      run homes files (events ++ [.load location]) = s := by
    intro f hf
    rw [run_append]
    exact step_load_of_error hf
  refine ⟨fun f hp => ?_, fun f hf => ⟨cache_of_load_error hf, hstay f hf⟩,
    fun path hp => ⟨fun e hg => ?_, fun hnone e => ?_, fun f hf repaired e he again hagain => ?_⟩⟩
  · rw [load_of_place_error hp]
  · exact load_of_cached hp (get?_run_iff.mpr hg)
  · rw [load_of_new hp (get?_run_of_not_given hnone), loadFile_eq_ok_iff]
  · have hc : s.cache.get? path = none := by
      cases hc : s.cache.get? path with
      | none => rfl
      | some e => simp [load_of_cached hp hc] at hf
    have hlater : run homes files (events ++ [.load location, .change repaired]) =
        ⟨repaired, s.cache⟩ := by
      rw [List.append_cons, run_append, hstay f hf]
      rfl
    have hload := load_of_new (s := ⟨repaired, s.cache⟩) hagain hc
    rw [hlater, hload, loadFile_eq_ok_iff]
    exact he

/-- A theme in the home of a user, to which a link leads too. -/
def userTheme : FileTree :=
  ⟨[(["h"], .directory), (["h", "t.yml"], .file (encode "a: b"))], [], [(["l"], ["h"])]⟩

/-- The theme is gone, the link is still there. -/
theorem load_after_events_deleted :
    let homes := ⟨.root, [("u", ⟨true, ["h"]⟩)]⟩
    let events := [.load "~u/t.yml", .change { userTheme with entries := [] }]
    ∃ e, Given homes userTheme events ⟨true, ["h", "t.yml"]⟩ e ∧
      ((run homes userTheme events).load homes "//x/../l/t.yml").1 = .ok e := by
  intro homes events
  have hplace : place userTheme homes "~u/t.yml" = .ok ⟨true, ["h", "t.yml"]⟩ ∧
      place { userTheme with entries := [] } homes "//x/../l/t.yml" = .ok ⟨true, ["h", "t.yml"]⟩ :=
    ⟨rfl, rfl⟩
  have hok : (Session.load homes ⟨userTheme, []⟩ "~u/t.yml").1.toOption.isSome = true := by
    decide +kernel
  cases hl : (Session.load homes ⟨userTheme, []⟩ "~u/t.yml").1 with
  | error f => simp [hl, Except.toOption] at hok
  | ok e =>
    have hg : Given homes userTheme events ⟨true, ["h", "t.yml"]⟩ e :=
      ⟨[], "~u/t.yml", [.change { userTheme with entries := [] }], rfl, by simp, hplace.1, hl⟩
    have hagain :=
      ((load_after_events homes userTheme events "//x/../l/t.yml").2.2 _ hplace.2).1 e hg
    exact ⟨e, hg, by rw [hagain]⟩

end Session
end ThemedCss.Theme
