import ThemedCss.Proofs.Preferences.Session

/-! Which changes to preferences are found again, after any sequence of requests. -/
namespace ThemedCss.Preferences
open ThemedCss.Data ThemedCss.Text

/-- What is written for some data is read back as the same data. A mapping at the root is read as
one, and data without shared parts stay so. -/
def ReadsBack (g : Graph) : Prop :=
  ∃ g', Yaml.read (Yaml.write g).toList = .ok g' ∧ g.toValue.Same g'.toValue ∧
    ((Graph.entries? g.cells g.root).isSome → (Graph.entries? g'.cells g'.root).isSome) ∧
    ∀ v, g.Spells v → ∃ v', g'.Spells v'

namespace Request

/-- Whether a request to empty preferences asks for the file to be written and gets that far. -/
def isSaving : Request → Bool
  | set keys _ save => save && (!keys.isEmpty && keys.all (·.isKey))
  | _ => false

/-- Preferences after a request, if there were none and these cells stand in front. -/
def start (cells : Array Cell) (r : Request) : Preferences :=
  r.change ⟨Graph.empty.behind cells, false⟩

variable {r : Request} {cells : Array Cell}

theorem cell_root_behind_empty (cells : Array Cell) :
    (Graph.empty.behind cells).root = .cell cells.size ∧
      (Graph.empty.behind cells).cells[cells.size]? = some (.map []) :=
  ⟨rfl, Graph.getElem?_behind cells .empty 0⟩

theorem saves_behind_empty (cells : Array Cell) (r : Request) :
    r.saves ⟨Graph.empty.behind cells, false⟩ = r.isSaving := by
  cases r with
  | set keys v save =>
    cases keys with
    | nil => simp [saves, isSaving, Preferences.set]
    | cons k rest =>
      obtain ⟨hroot, hcell⟩ := cell_root_behind_empty cells
      have hfault := (Graph.filled_set hcell k v rest).fault
      rw [Bool.eq_iff_iff]
      simp only [saves, isSaving, Preferences.set, hroot, Bool.and_eq_true, Option.isNone_map,
        Option.isNone_iff_eq_none, hfault, List.isEmpty_cons, Bool.not_false, true_and,
        List.all_eq_true]
  | _ => rfl

/-- A request that is saved leaves something. -/
theorem isEmpty_start (h : r.isSaving = true) : (r.start cells).graph.toValue.isEmpty = false := by
  have hsaves := saves_behind_empty cells r
  rw [h] at hsaves
  cases r with
  | set keys v save =>
    cases keys with
    | nil => simp [isSaving] at h
    | cons k rest =>
      obtain ⟨hroot, hcell⟩ := cell_root_behind_empty cells
      obtain ⟨-, hkept, -, -, hfilled⟩ := Graph.filled_set hcell k v rest
      simp only [saves, Preferences.set, hroot, Bool.and_eq_true, Option.isNone_map,
        Option.isNone_iff_eq_none] at hsaves
      obtain ⟨e, es, hes⟩ := hfilled hsaves.2
      exact Graph.isEmpty_toValue_of_cell (hkept.trans hroot) hes
  | _ => cases h

end Request

namespace Session

variable {s : Session} {r : Request} {rs : List Request} {g : Graph}

/-- There are no preferences yet, so that they are read again each time. -/
structure Blank (s : Session) : Prop where
  unread : s.preferences.initialized = false
  empty : load s.workspace = .ok ⟨.empty, false⟩

/-- There are preferences in the file that were not read yet. -/
structure Resumes (s : Session) (g : Graph) : Prop where
  unread : s.preferences.initialized = false
  file : load s.workspace = .ok ⟨g, true⟩

theorem Blank.current (h : s.Blank) : s.preferences.current s.workspace =
    .ok ⟨Graph.empty.behind s.preferences.graph.cells, false⟩ :=
  current_of_load h.unread h.empty

theorem Resumes.current (h : s.Resumes g) : s.preferences.current s.workspace =
    .ok ⟨g.behind s.preferences.graph.cells, true⟩ :=
  current_of_load h.unread h.file

/-- To make a collection reads and writes no file. -/
theorem Blank.serve_make (h : s.Blank) (c : Cell) : (s.serve (.make c)).2.Blank :=
  ⟨h.unread, h.empty⟩

/-- What is set and not saved is forgotten. -/
theorem Blank.serve (h : s.Blank) (hw : Writable s.workspace) (hsaving : r.isSaving = false) :
    (s.serve r).2.Blank := by
  cases hmake : r.isMake with
  | true =>
    cases r with
    | make c => exact h.serve_make c
    | _ => cases hmake
  | false =>
    obtain ⟨files, hafter, -, hfiles⟩ := serve_of_basis (basis_of_current h.current hmake) hw
    rw [Request.saves_behind_empty, hsaving, if_neg Bool.false_ne_true] at hfiles
    obtain rfl : files = s.workspace.files := hfiles
    rw [hafter]
    exact ⟨Request.change_initialized _ r, h.empty⟩

/-- As long as nothing is saved there is nothing. -/
theorem Blank.after (h : s.Blank) (hw : Writable s.workspace) (hrs : ∀ r ∈ rs, r.isSaving = false) :
    (s.after rs).Blank := by
  induction rs generalizing s with
  | nil => exact h
  | cons r rs ih =>
    obtain ⟨hr, hrest⟩ := List.forall_mem_cons.mp hrs
    exact ih (h.serve hw hr) (serve_workspace hw r).1 hrest

/-- What is set and saved first can be read again. The change itself is in use no longer: it was
made to preferences that do not count as read. -/
theorem Blank.serve_saving (h : s.Blank) (hw : Writable s.workspace) (hsaving : r.isSaving = true)
    (hread : Yaml.read (Yaml.write (r.start s.preferences.graph.cells).graph).toList = .ok g)
    (hsame : (r.start s.preferences.graph.cells).graph.toValue.Same g.toValue) :
    (s.serve r).2.preferences = r.start s.preferences.graph.cells ∧ (s.serve r).2.Resumes g := by
  have hmake := Request.isMake_of_saves ((Request.saves_behind_empty #[] r).trans hsaving)
  obtain ⟨files, hafter, -, hfiles⟩ := serve_of_basis (basis_of_current h.current hmake) hw
  rw [Request.saves_behind_empty, hsaving, if_pos rfl] at hfiles
  rw [hafter]
  refine ⟨rfl, Request.change_initialized _ r, load_of_look hfiles hread ?_⟩
  rw [← hsame.isEmpty]
  exact Request.isEmpty_start hsaving

/-- What can be read again is read by the first request that is no collection made, and is in use
from then on. -/
theorem Resumes.after (h : s.Resumes g) (rs : List Request) :
    (s.after rs).preferences.current (s.after rs).workspace =
        .ok ((rs.dropWhile Request.isMake).foldl Request.change
          ⟨g.behind ((rs.takeWhile Request.isMake).foldl Request.change s.preferences).graph.cells,
            true⟩) ∧
      ((s.after rs).preferences.initialized = true ∨ (s.after rs).Resumes g) := by
  induction rs generalizing s with
  | nil => exact ⟨h.current, .inr h⟩
  | cons r rs ih =>
    cases hmake : r.isMake with
    | true =>
      rw [List.takeWhile_cons_of_pos hmake, List.dropWhile_cons_of_pos hmake]
      cases r with
      | make c => exact ih ⟨h.unread, h.file⟩
      | _ => cases hmake
    | false =>
      have hnot : ¬r.isMake = true := Bool.eq_false_iff.mp hmake
      have hnext := serve_preferences (basis_of_current h.current hmake)
      have hinit : (s.serve r).2.preferences.initialized = true := by
        rw [hnext, Request.change_initialized]
      obtain ⟨hfold, hafter⟩ := after_preferences hinit rs
      rw [List.takeWhile_cons_of_neg hnot, List.dropWhile_cons_of_neg hnot, List.foldl_cons,
        List.foldl_nil, ← hnext, ← hfold]
      exact ⟨current_of_initialized _ hafter, .inl hafter⟩

/-- What the first request that saves writes is read back. -/
def FirstReadsBack (s : Session) (rs : List Request) : Prop :=
  ∀ before r later, rs = before ++ r :: later → (∀ q ∈ before, q.isSaving = false) →
    r.isSaving = true → ReadsBack (r.start (s.after before).preferences.graph.cells).graph

/-- What was saved first is read back, and all changes that come after are made to that. -/
theorem Blank.after_saving (h : s.Blank) (hw : Writable s.workspace) {before later : List Request}
    (hrs : rs = before ++ r :: later) (hbefore : ∀ q ∈ before, q.isSaving = false)
    (hsaving : r.isSaving = true) (hback : s.FirstReadsBack rs) :
    let saved := r.start (s.after before).preferences.graph.cells
    ∃ g, Yaml.read (Yaml.write saved.graph).toList = .ok g ∧ saved.graph.toValue.Same g.toValue ∧
      g.WholeMapping ∧ (∀ v, saved.graph.Spells v → ∃ v', g.Spells v') ∧
      (s.after rs).preferences.current (s.after rs).workspace =
        .ok ((later.dropWhile Request.isMake).foldl Request.change
          ⟨g.behind ((later.takeWhile Request.isMake).foldl Request.change saved).graph.cells,
            true⟩) ∧
      ((s.after rs).preferences.initialized = true ∨ (s.after rs).Resumes g) := by
  intro saved
  obtain ⟨g, hread, hsame, hmapping, hspells⟩ := hback before r later hrs hbefore hsaving
  have hwritable := (after_workspace hw before).1
  obtain ⟨hsaved, hresumes⟩ := (h.after hw hbefore).serve_saving hwritable hsaving hread hsame
  have hwhole : g.WholeMapping := by
    refine ⟨Yaml.whole_read hread, hmapping (Request.mapping_change r ?_)⟩
    obtain ⟨hroot, hcell⟩ := Request.cell_root_behind_empty (s.after before).preferences.graph.cells
    rw [hroot, Graph.entries?_of_cell hcell]
    rfl
  have hafter := hresumes.after later
  rw [hsaved] at hafter
  refine ⟨g, hread, hsame, hwhole, hspells, ?_⟩
  rw [hrs, after_append]
  exact hafter

/-- Parts that go into the data with some requests are there. -/
def Handed (s : Session) : List Request → Prop
  | [] => True
  | r :: rs => r.Within s.preferences.graph.cells.size ∧ (s.serve r).2.Handed rs

/-- There are preferences to use. They are whole if those so far are, and come behind them. -/
def Sound (s : Session) : Prop :=
  ∃ p, s.preferences.current s.workspace = .ok p ∧
    (s.preferences.graph.WholeMapping → p.graph.WholeMapping) ∧
    s.preferences.graph.cells.size ≤ p.graph.cells.size

theorem sound_of_initialized (h : s.preferences.initialized = true) : s.Sound :=
  ⟨s.preferences, current_of_initialized _ h, id, Nat.le_refl _⟩

theorem sound_of_current {init : Bool} (hg : g.WholeMapping)
    (h : s.preferences.current s.workspace = .ok ⟨g.behind s.preferences.graph.cells, init⟩) :
    s.Sound := by
  refine ⟨_, h, fun hwhole => hg.behind hwhole.closed, ?_⟩
  rw [Graph.size_behind]
  exact Nat.le_add_right _ _

private theorem wholeMapping_serve (h : s.preferences.graph.WholeMapping) (hsound : s.Sound)
    (hr : r.Within s.preferences.graph.cells.size) :
    (s.serve r).2.preferences.graph.WholeMapping := by
  cases hmake : r.isMake with
  | true =>
    have hbasis : s.basis r = .ok s.preferences := by rw [basis, hmake, if_pos rfl]
    rw [serve_preferences hbasis]
    exact Request.wholeMapping_change h hr
  | false =>
    obtain ⟨p, hp, hwhole, hsize⟩ := hsound
    rw [serve_preferences (basis_of_current hp hmake)]
    exact Request.wholeMapping_change (hwhole h) (hr.mono hsize)

theorem wholeMapping_after (h : s.preferences.graph.WholeMapping)
    (hsound : ∀ before later, rs = before ++ later → (s.after before).Sound)
    (hhanded : s.Handed rs) : (s.after rs).preferences.graph.WholeMapping := by
  induction rs generalizing s with
  | nil => exact h
  | cons r rs ih =>
    refine ih (wholeMapping_serve h (hsound [] _ rfl) hhanded.1) ?_ hhanded.2
    rintro before later rfl
    exact hsound (r :: before) later rfl

end Session

section Plain

variable {p : Preferences} {v : Value} {m : List (Value × Value)}

theorem get_of_spells (h : p.graph.Spells v) (path : List String) (default : Given) {d : Value}
    (hd : default.Spells p.graph d) :
    ∃ found, p.get (path.map .text) default = .ok found ∧
      found.Spells p.graph ((v.walk? path).getD d) := by
  obtain ⟨hwalk, hget⟩ | ⟨w, q, hwalk, hget, hq⟩ := h.get? path
  · exact ⟨default, by rw [get, hget], by rw [hwalk]; exact hd⟩
  · exact ⟨.live q, by rw [get, hget], by rw [hwalk]; exact hq⟩

private theorem sectionOf_of_spells (h : p.graph.Spells v) (path : List String) (d : Value) :
    ∃ found, p.sectionOf (path.map .text) (.new d) = .ok found ∧ found.Spells p.graph
      (.map (((v.walk? path).getD (if d.isEmpty then .map [] else d)).entries?.getD [])) := by
  have hdefault : (if d.isEmpty then Given.new (.map []) else .new d).Spells p.graph
      (if d.isEmpty then .map [] else d) := by
    by_cases hd : d.isEmpty
    · rw [if_pos hd, if_pos hd]
      rfl
    · rw [if_neg hd, if_neg hd]
      rfl
  obtain ⟨found, hget, hfound⟩ := get_of_spells h path _ hdefault
  refine ⟨if found.isMapping p.graph then found else .new (.map []), ?_, ?_⟩
  · change (p.get (path.map .text) (if d.isEmpty then .new (.map []) else .new d) >>= _) = _
    rw [hget]
    rfl
  · rw [hfound.isMapping]
    generalize (v.walk? path).getD (if d.isEmpty then .map [] else d) = u at hfound
    cases u with
    | map es => exact hfound
    | _ => rfl

theorem set_of_spells (h : p.graph.Spells (.map m)) {path : List String} (hpath : path ≠ [])
    (v : Value) :
    (p.set (path.map .text) (.new v)).2 = none ∧
      (p.set (path.map .text) (.new v)).1.graph.Spells (.map (Value.put v path m)) := by
  cases path with
  | nil => exact absurd rfl hpath
  | cons k rest =>
    obtain ⟨g, hset, hspells⟩ := h.set k rest v
    simp only [List.map_cons, set, hset, Option.map_none]
    exact ⟨trivial, hspells⟩

end Plain

inductive PlainRequest where
  | get (path : List String) (default : Value)
  | sectionOf (path : List String) (default : Value)
  | set (path : List String) (v : Value) (save : Bool)

namespace PlainRequest

def request : PlainRequest → Request
  | get path default => .get (path.map .text) (.new default)
  | sectionOf path default => .sectionOf (path.map .text) (.new default)
  | set path v save => .set (path.map .text) (.new v) save

/-- Whether a request asks for the file to be written. Without a key it gets to nothing. -/
def isSaving : PlainRequest → Bool
  | set path _ save => save && !path.isEmpty
  | _ => false

def apply (m : List (Value × Value)) : PlainRequest → List (Value × Value)
  | set path v _ => Value.put v path m
  | _ => m

def answer (m : List (Value × Value)) : PlainRequest → Except PreferenceFault Value
  | get path default => .ok ((Value.walk? path (.map m)).getD default)
  | sectionOf path default =>
    let found := (Value.walk? path (.map m)).getD (if default.isEmpty then .map [] else default)
    .ok (.map (found.entries?.getD []))
  | set path _ _ => if path.isEmpty then .error .noKey else .ok .null

variable {p : Preferences} {m n : List (Value × Value)} {q : PlainRequest}

private theorem isMake_request (q : PlainRequest) : q.request.isMake = false := by
  cases q <;> rfl

/-- Plain requests make no collections. -/
theorem while_isMake (qs : List PlainRequest) : (qs.map request).takeWhile Request.isMake = [] ∧
    (qs.map request).dropWhile Request.isMake = qs.map request := by
  cases qs with
  | nil => exact ⟨rfl, rfl⟩
  | cons q qs =>
    have hnot : ¬q.request.isMake = true := by simp [isMake_request]
    exact ⟨List.takeWhile_cons_of_neg hnot, List.dropWhile_cons_of_neg hnot⟩

theorem isSaving_request (q : PlainRequest) : q.request.isSaving = q.isSaving := by
  cases q with
  | set path v save =>
    have hkeys : (path.map Value.text).all (·.isKey) = true := by
      rw [List.all_map]
      exact List.all_eq_true.mpr fun _ _ => rfl
    rw [request, Request.isSaving, hkeys, Bool.and_true, List.isEmpty_map, isSaving]
  | _ => rfl

theorem spells_change (h : p.graph.Spells (.map m)) (q : PlainRequest) :
    (q.request.change p).graph.Spells (.map (q.apply m)) := by
  cases q with
  | get | sectionOf => exact h
  | set path v save =>
    cases path with
    | nil => exact h
    | cons k rest => exact (set_of_spells h (List.cons_ne_nil k rest) v).2

theorem spells_start (cells : Array Cell) (q : PlainRequest) :
    (q.request.start cells).graph.Spells (.map (q.apply [])) :=
  spells_change (p := ⟨Graph.empty.behind cells, false⟩) (Graph.spells_empty.behind cells) q

theorem spells_foldl (h : p.graph.Spells (.map m)) (qs : List PlainRequest) :
    ((qs.map request).foldl Request.change p).graph.Spells (.map (qs.foldl apply m)) := by
  induction qs generalizing p m with
  | nil => exact h
  | cons q qs ih => exact ih (spells_change h q)

private theorem saves_request (h : p.graph.Spells (.map m)) (q : PlainRequest) :
    q.request.saves p = q.isSaving := by
  cases q with
  | get | sectionOf => rfl
  | set path v save =>
    cases path with
    | nil => rfl
    | cons k rest =>
      have hset := (set_of_spells h (List.cons_ne_nil k rest) v).1
      rw [request, Request.saves, hset]
      rfl

/-- The same requests keep the same mappings the same. -/
theorem same_foldl (h : Value.Same (.map m) (.map n)) (qs : List PlainRequest) :
    Value.Same (.map (qs.foldl apply m)) (.map (qs.foldl apply n)) := by
  induction qs generalizing m n with
  | nil => exact h
  | cons q qs ih =>
    apply ih
    cases q with
    | get | sectionOf => exact h
    | set path v save => exact h.put v path

end PlainRequest

namespace Session

variable {s : Session} {p : Preferences} {m : List (Value × Value)}

/-- A mapping in use answers for itself. -/
theorem serve_answer (hp : s.preferences.current s.workspace = .ok p) (hm : p.graph.Spells (.map m))
    (hw : Writable s.workspace) (q : PlainRequest) :
    (s.serve q.request).1.map (Given.value (s.serve q.request).2.preferences.graph) =
      q.answer m := by
  cases q with
  | get path default =>
    obtain ⟨found, hget, hfound⟩ := get_of_spells hm path (.new default) rfl
    rw [PlainRequest.request, serve_get hp, hget, PlainRequest.answer, ← hfound.value]
    rfl
  | sectionOf path default =>
    obtain ⟨found, hget, hfound⟩ := sectionOf_of_spells hm path default
    rw [PlainRequest.request, serve_sectionOf hp, hget, PlainRequest.answer, ← hfound.value]
    rfl
  | set path v save =>
    cases path with
    | nil =>
      simp only [PlainRequest.request, List.map_nil, serve, hp]
      rfl
    | cons k rest =>
      have hset := (set_of_spells hm (List.cons_ne_nil k rest) v).1
      cases save with
      | false =>
        simp only [PlainRequest.request, serve, hp, hset]
        rfl
      | true =>
        obtain ⟨files, hsave, -⟩ := hw.save (p.set ((k :: rest).map .text) (.new v)).1
        simp only [PlainRequest.request, serve, hp, hset, if_true, hsave]
        rfl

/-- A request that gets that far writes the preferences with its change. -/
theorem look_of_saves {r : Request} (hp : s.preferences.current s.workspace = .ok p)
    (hw : Writable s.workspace) (hsaves : r.saves p = true) :
    (s.serve r).2.workspace.files.look s.workspace.preferencesPath =
      .ok (some (.file (encode (Yaml.write (r.change p).graph)))) := by
  obtain ⟨files, hserve, -, hfiles⟩ :=
    serve_of_basis (basis_of_current hp (Request.isMake_of_saves hsaves)) hw
  rw [if_pos hsaves] at hfiles
  rw [hserve]
  exact hfiles

/-- What was set in a mapping in use is found. -/
theorem exists_get_set (hp : s.preferences.current s.workspace = .ok p)
    (hinit : p.initialized = true) (hwhole : p.graph.WholeMapping) {keys : List String}
    (hkeys : keys ≠ []) (hstraight : p.graph.StraightAlong keys) (v : Given) (save : Bool) :
    let s' := (s.serve (.set (keys.map .text) v save)).2
    ∃ part, (∀ x, v = .live x → part = x) ∧
      s'.preferences.graph.value part = v.value s'.preferences.graph ∧
      ∀ default, (s'.serve (.get (keys.map .text) default)).1 = .ok (.live part) := by
  intro s'
  obtain ⟨k, rest, rfl⟩ := List.exists_cons_of_ne_nil hkeys
  obtain ⟨g, part, hset, -, hplaced, hfound, -⟩ := hwhole.exists_set k rest v
  have hafter : s'.preferences = ⟨g, true⟩ := by
    rw [serve_preferences (basis_of_current hp rfl), Request.change, List.map_cons, Preferences.set,
      hset, hinit]
  have hcurrent : s'.preferences.current s'.workspace = .ok ⟨g, true⟩ := by
    rw [hafter]
    exact current_of_initialized _ rfl
  refine ⟨part, ?_, ?_, ?_⟩
  · rintro x rfl
    exact hplaced
  · rw [hafter]
    exact hplaced.value
  · intro default
    have hget := hfound hstraight []
    rw [List.append_nil] at hget
    rw [serve_get hcurrent, Preferences.get, hget]
    rfl

end Session

/-- The requests that count for what is found later. Without preferences, nothing is kept until
something is saved. -/
def kept (m : List (Value × Value)) (qs : List PlainRequest) : List PlainRequest :=
  if m.isEmpty then qs.dropWhile (!·.isSaving) else qs

/-- A value that was set last is found. -/
theorem walk?_of_getLast? {m n : List (Value × Value)} {qs : List PlainRequest} {path : List String}
    {v : Value} {save : Bool} (hsame : Value.Same (.map (qs.foldl PlainRequest.apply m)) (.map n))
    (hpath : path ≠ []) (hlast : qs.getLast? = some (.set path v save)) :
    ∃ v', v.Same v' ∧ Value.walk? path (.map n) = some v' := by
  obtain ⟨before, rfl⟩ := List.getLast?_eq_some_iff.mp hlast
  rw [List.foldl_append, List.foldl_cons, List.foldl_nil, PlainRequest.apply] at hsame
  have hput := Value.walk?_put v hpath (before.foldl PlainRequest.apply m)
  obtain ⟨hnone, -⟩ | ⟨x, y, hx, hy, hxy⟩ := hsame.walk? path
  · rw [hput] at hnone
    cases hnone
  · obtain rfl := Option.some.inj (hput.symm.trans hx)
    exact ⟨y, hxy, hy⟩

section Run

variable {w : Workspace} {p₀ p : Preferences} {rs : List Request}

/-- The session starts with preferences that are never read again, or without any. -/
theorem blank_of_load (hload : load w = .ok p₀) (hinit : p₀.initialized = false) :
    p₀ = ⟨.empty, false⟩ ∧ Session.Blank ⟨w, p₀⟩ := by
  obtain rfl | ⟨htrue, -⟩ := load_cases hload
  · exact ⟨rfl, rfl, hload⟩
  · rw [hinit] at htrue
    cases htrue

theorem sound_after (hload : load w = .ok p₀) (hw : Writable w)
    (hback : p₀.initialized = false → Session.FirstReadsBack ⟨w, p₀⟩ rs) :
    (Session.after ⟨w, p₀⟩ rs).Sound := by
  cases hinit : p₀.initialized with
  | true => exact Session.sound_of_initialized (Session.after_preferences (s := ⟨w, p₀⟩) hinit rs).2
  | false =>
    obtain ⟨-, hblank⟩ := blank_of_load hload hinit
    cases hfind : rs.find? Request.isSaving with
    | none =>
      have hnone : ∀ r ∈ rs, r.isSaving = false := by simpa using hfind
      exact Session.sound_of_current Graph.wholeMapping_empty (hblank.after hw hnone).current
    | some r =>
      obtain ⟨hsaving, before, later, hrs, hbefore⟩ := List.find?_eq_some_iff_append.mp hfind
      obtain ⟨g, -, -, hwhole, -, -, hstage⟩ :=
        hblank.after_saving hw hrs (by simpa using hbefore) hsaving (hback hinit)
      obtain hafter | hresumes := hstage
      · exact Session.sound_of_initialized hafter
      · exact Session.sound_of_current hwhole hresumes.current

/-- The mapping in use after some requests of texts and data. -/
theorem exists_spells_after (hload : load w = .ok p₀) (hw : Writable w)
    (hback : p₀.initialized = false → Session.FirstReadsBack ⟨w, p₀⟩ rs)
    (hp : (Session.after ⟨w, p₀⟩ rs).preferences.current (Session.after ⟨w, p₀⟩ rs).workspace =
      .ok p)
    {m : List (Value × Value)} {qs : List PlainRequest} (hm : p₀.graph.Spells (.map m))
    (hqs : rs = qs.map PlainRequest.request) :
    ∃ n, p.graph.Spells (.map n) ∧
      Value.Same (.map ((kept m qs).foldl PlainRequest.apply m)) (.map n) ∧
      (m ≠ [] → n = qs.foldl PlainRequest.apply m) := by
  subst hqs
  cases hinit : p₀.initialized with
  | true =>
    obtain ⟨hfold, hafter⟩ :=
      Session.after_preferences (s := ⟨w, p₀⟩) hinit (qs.map PlainRequest.request)
    rw [current_of_initialized _ hafter, hfold] at hp
    obtain rfl := Except.ok.inj hp
    have hne : m.isEmpty = false := by
      obtain rfl | ⟨-, hne, -⟩ := load_cases hload
      · cases hinit
      · rw [hm.toValue] at hne
        exact hne
    refine ⟨_, PlainRequest.spells_foldl hm qs, ?_, fun _ => rfl⟩
    rw [kept, hne, if_neg Bool.false_ne_true]
    exact .refl _
  | false =>
    obtain ⟨rfl, hblank⟩ := blank_of_load hload hinit
    obtain rfl : m = [] := by simpa [Graph.spells_empty.toValue] using hm.toValue.symm
    rw [kept, List.isEmpty_nil, if_pos rfl]
    cases hfind : qs.find? PlainRequest.isSaving with
    | none =>
      have hnone : ∀ q ∈ qs, q.isSaving = false := by simpa using hfind
      have hafter : (Session.after ⟨w, ⟨.empty, false⟩⟩ (qs.map PlainRequest.request)).Blank := by
        apply hblank.after hw
        rintro r hr
        obtain ⟨q, hq, rfl⟩ := List.mem_map.mp hr
        rw [PlainRequest.isSaving_request, hnone q hq]
      obtain rfl := Except.ok.inj (hafter.current.symm.trans hp)
      refine ⟨[], Graph.spells_empty.behind _, ?_, fun h => absurd rfl h⟩
      rw [← List.append_nil qs, List.dropWhile_append_of_pos (by simpa using hnone)]
      exact .refl _
    | some q =>
      obtain ⟨hsaving, before, later, rfl, hbefore⟩ := List.find?_eq_some_iff_append.mp hfind
      have hlost : ∀ r ∈ before.map PlainRequest.request, r.isSaving = false := by
        intro r hr
        obtain ⟨q, hq, rfl⟩ := List.mem_map.mp hr
        rw [PlainRequest.isSaving_request]
        simpa using hbefore q hq
      obtain ⟨g, -, hsame, -, hspells, hcurrent, -⟩ :=
        hblank.after_saving hw (List.map_append.trans rfl) hlost
          ((PlainRequest.isSaving_request q).trans hsaving) (hback rfl)
      obtain ⟨htake, hdrop⟩ := PlainRequest.while_isMake later
      rw [htake, hdrop] at hcurrent
      obtain rfl := Except.ok.inj (hcurrent.symm.trans hp)
      -- what was read back may have its keys in another
      -- order, and the later changes are made to that
      obtain ⟨v, hv⟩ := hspells _ (PlainRequest.spells_start _ q)
      rw [(PlainRequest.spells_start _ q).toValue, hv.toValue] at hsame
      obtain ⟨n, rfl⟩ := hsame.exists_map
      refine ⟨_, PlainRequest.spells_foldl (hv.behind _) later, ?_, fun h => absurd rfl h⟩
      rw [List.dropWhile_append_of_pos (by simpa using hbefore),
        List.dropWhile_cons_of_neg (by simp [hsaving])]
      exact PlainRequest.same_foldl hsame later

end Run

/-- After some requests the preferences in use are those first loaded, with all changes in their
order, if some were loaded. Else all requests are lost until the first that saves its change: what
it wrote is read back, and all changes after it are made to that. Requests answer for the
preferences in use, and a save writes them. What was set is found by a get right after, unless the
preferences do not count as read or the keys lead to a mapping inside itself. Data that share no
parts and are changed by texts and new data only are a mapping with all values put in their
order. -/
theorem requests_kept (w : Workspace) {p₀ : Preferences} {w' : Workspace} (hload : load w = .ok p₀)
    (hsave : save w p₀ = .ok w') (rs : List Request)
    (hback : p₀.initialized = false → Session.FirstReadsBack ⟨w, p₀⟩ rs) :
    let s := Session.after ⟨w, p₀⟩ rs
    ∃ p, s.preferences.current s.workspace = .ok p ∧
      (p₀.initialized = true → p = rs.foldl Request.change p₀) ∧
      (p₀.initialized = false → (∀ r ∈ rs, r.isSaving = false) →
        p = ⟨Graph.empty.behind s.preferences.graph.cells, false⟩) ∧
      (p₀.initialized = false → ∀ before r later, rs = before ++ r :: later →
        (∀ q ∈ before, q.isSaving = false) → r.isSaving = true →
        let saved := r.start (Session.after ⟨w, p₀⟩ before).preferences.graph.cells
        ∃ g back, Yaml.read (Yaml.write saved.graph).toList = .ok g ∧
          back =
            g.behind ((later.takeWhile Request.isMake).foldl Request.change saved).graph.cells ∧
          saved.graph.toValue.Same back.toValue ∧
          p = (later.dropWhile Request.isMake).foldl Request.change ⟨back, true⟩) ∧
      (∀ keys default, (s.serve (.get keys default)).1 = p.get keys default ∧
        (s.serve (.sectionOf keys default)).1 = p.sectionOf keys default) ∧
      (∀ r : Request, r.saves p = true → (s.serve r).2.workspace.files.look w.preferencesPath =
        .ok (some (.file (encode (Yaml.write (r.change p).graph))))) ∧
      (p.initialized = true → (Graph.entries? p₀.graph.cells p₀.graph.root).isSome →
        Session.Handed ⟨w, p₀⟩ rs →
        ∀ (keys : List String) (v : Given) (save : Bool), keys ≠ [] → p.graph.StraightAlong keys →
          let s' := (s.serve (.set (keys.map .text) v save)).2
          ∃ part, (∀ x, v = .live x → part = x) ∧
            s'.preferences.graph.value part = v.value s'.preferences.graph ∧
            ∀ default, (s'.serve (.get (keys.map .text) default)).1 = .ok (.live part)) ∧
      ∀ m qs, p₀.graph.Spells (.map m) → rs = qs.map PlainRequest.request →
        ∃ n, Value.Same (.map ((kept m qs).foldl PlainRequest.apply m)) (.map n) ∧
          (m ≠ [] → n = qs.foldl PlainRequest.apply m) ∧
          (∀ q : PlainRequest,
            (s.serve q.request).1.map (Given.value (s.serve q.request).2.preferences.graph) =
              q.answer n ∧
            (q.isSaving = true → ∃ g : Graph, g.Spells (.map (q.apply n)) ∧
              (s.serve q.request).2.workspace.files.look w.preferencesPath =
                .ok (some (.file (encode (Yaml.write g)))))) ∧
          ∀ path v save, path ≠ [] → (kept m qs).getLast? = some (.set path v save) →
            ∃ v', v.Same v' ∧ ∀ default, (PlainRequest.get path default).answer n = .ok v' := by
  have hw := writable_of_save hload hsave
  obtain ⟨hwritable, hpath⟩ := Session.after_workspace (s := ⟨w, p₀⟩) hw rs
  intro s
  have hsound : ∀ before later, rs = before ++ later → (Session.after ⟨w, p₀⟩ before).Sound := by
    rintro before later rfl
    apply sound_after hload hw
    rintro hinit first r rest rfl
    exact hback hinit first r (rest ++ later) (by simp)
  obtain ⟨p, hp, hwhole, -⟩ := hsound rs [] (List.append_nil rs).symm
  refine ⟨p, hp, ?_, ?_, ?_, ?_, ?_, ?_, ?_⟩
  · intro hinit
    obtain ⟨hfold, hafter⟩ := Session.after_preferences (s := ⟨w, p₀⟩) hinit rs
    rw [current_of_initialized _ hafter] at hp
    exact (Except.ok.inj hp).symm.trans hfold
  · intro hinit hrs
    obtain ⟨-, hblank⟩ := blank_of_load hload hinit
    exact Except.ok.inj (hp.symm.trans (hblank.after hw hrs).current)
  · intro hinit before r later hrs hbefore hsaving
    obtain ⟨-, hblank⟩ := blank_of_load hload hinit
    obtain ⟨g, hread, hsame, -, -, hcurrent, -⟩ :=
      hblank.after_saving hw hrs hbefore hsaving (hback hinit)
    refine ⟨g, _, hread, rfl, ?_, Except.ok.inj (hp.symm.trans hcurrent)⟩
    rw [Graph.toValue_behind]
    exact hsame
  · intro keys default
    rw [Session.serve_get hp, Session.serve_sectionOf hp]
    exact ⟨rfl, rfl⟩
  · intro r hsaves
    rw [← hpath]
    exact Session.look_of_saves hp hwritable hsaves
  · intro hinit hmapping hhanded keys v save hkeys hstraight
    have hafter :=
      Session.wholeMapping_after (s := ⟨w, p₀⟩) ⟨whole_load hload, hmapping⟩ hsound hhanded
    exact Session.exists_get_set hp hinit (hwhole hafter) hkeys hstraight v save
  · intro m qs hm hqs
    obtain ⟨n, hn, hsame, hexact⟩ := exists_spells_after hload hw hback hp hm hqs
    refine ⟨n, hsame, hexact, ?_, ?_⟩
    · intro q
      refine ⟨Session.serve_answer hp hn hwritable q, fun hsaving => ?_⟩
      refine ⟨(q.request.change p).graph, PlainRequest.spells_change hn q, ?_⟩
      rw [← hpath]
      exact Session.look_of_saves hp hwritable ((PlainRequest.saves_request hn q).trans hsaving)
    · intro path v save hne hlast
      obtain ⟨v', hv, hwalk⟩ := walk?_of_getLast? hsame hne hlast
      exact ⟨v', hv, fun default => by rw [PlainRequest.answer, hwalk]; rfl⟩

def bareProject : Workspace :=
  ⟨⟨[], [], []⟩, ⟨true, ["p"]⟩, ⟨⟨true, []⟩, []⟩, none⟩

/-- A change that is not saved, and one that is. Then a mapping is put in a second place and
changed. -/
def mixedRequests : List Request :=
  [.set [.text "b"] (.new (.text "y")) false, .set [.text "a"] (.new (.text "x")) true,
    .set [.text "c", .text "d"] (.new (.text "z")) false, .set [.text "e"] (.live (.cell 4)) false,
    .set [.text "c", .text "d"] (.new (.text "v")) false]

/-- What is read back after the second of the mixed requests. -/
def savedGraph : Graph :=
  ⟨#[.map [(.plain (.text "a"), .plain (.text "x"))]], .cell 0⟩

def isSavedGraph : Graph → Bool
  | ⟨⟨[.map [(.plain (.text k), .plain (.text v))]]⟩, .cell 0⟩ => k == "a" && v == "x"
  | _ => false

private theorem eq_savedGraph {g : Graph} (h : isSavedGraph g = true) : g = savedGraph := by
  unfold isSavedGraph at h
  split at h
  · simp only [Bool.and_eq_true, beq_iff_eq] at h
    obtain ⟨rfl, rfl⟩ := h
    rfl
  · cases h

theorem spells_savedGraph : savedGraph.Spells (.map [(.text "a", .text "x")]) := by
  obtain ⟨g, hset, hg⟩ := Graph.spells_empty.set "a" [] (.text "x")
  cases hset
  exact hg

def firstSaved : Preferences :=
  (Request.set [.text "a"] (.new (.text "x")) true).start
    (Session.after ⟨bareProject, ⟨.empty, false⟩⟩
      [.set [.text "b"] (.new (.text "y")) false]).preferences.graph.cells

theorem read_firstSaved : Yaml.read (Yaml.write firstSaved.graph).toList = .ok savedGraph := by
  have hread : (Yaml.read (Yaml.write firstSaved.graph).toList).toOption.any isSavedGraph =
      true := by decide +kernel
  cases hg : Yaml.read (Yaml.write firstSaved.graph).toList with
  | error f => simp [hg, Except.toOption] at hread
  | ok g =>
    rw [hg] at hread
    rw [eq_savedGraph hread]

private theorem readsBack_firstSaved : ReadsBack firstSaved.graph := by
  have hsaved : firstSaved.graph.Spells (.map [(.text "a", .text "x")]) :=
    PlainRequest.spells_start _ (.set ["a"] (.text "x") true)
  refine ⟨savedGraph, read_firstSaved, ?_, fun _ => rfl, fun _ _ => ⟨_, spells_savedGraph⟩⟩
  rw [hsaved.toValue, spells_savedGraph.toValue]
  exact .refl _

theorem requests_kept_bare :
    let s := Session.after ⟨bareProject, ⟨.empty, false⟩⟩ mixedRequests
    load bareProject = .ok ⟨.empty, false⟩ ∧
      (s.serve (.get [.text "a"] (.new .null))).1 = .ok (.live (.plain (.text "x"))) ∧
      (s.serve (.get [.text "b"] (.new .null))).1 = .ok (.new .null) ∧
      (s.serve (.get [.text "c"] (.new .null))).1 = .ok (.live (.cell 4)) ∧
      (s.serve (.get [.text "e", .text "d"] (.new .null))).1 =
        .ok (.live (.plain (.text "v"))) := by
  have hload : load bareProject = .ok ⟨.empty, false⟩ := rfl
  have hsave : save bareProject ⟨.empty, false⟩ = .ok _ := rfl
  have hback : Session.FirstReadsBack ⟨bareProject, ⟨.empty, false⟩⟩ mixedRequests := by
    intro before r later hrs hbefore hsaving
    match before with
    | [] =>
      obtain ⟨rfl, -⟩ := List.cons.inj hrs
      cases hsaving
    | [q] =>
      obtain ⟨rfl, hrest⟩ := List.cons.inj hrs
      obtain ⟨rfl, -⟩ := List.cons.inj hrest
      exact readsBack_firstSaved
    | q :: q' :: more =>
      obtain ⟨rfl, hrest⟩ := List.cons.inj hrs
      obtain ⟨rfl, -⟩ := List.cons.inj hrest
      cases hbefore _ (List.mem_cons_of_mem _ List.mem_cons_self)
  obtain ⟨p, -, -, -, hkept, hserve, -⟩ :=
    requests_kept bareProject hload hsave mixedRequests fun _ => hback
  obtain ⟨g, back, hread, rfl, -, rfl⟩ :=
    hkept rfl [.set [.text "b"] (.new (.text "y")) false] _ _ rfl (by decide) rfl
  obtain rfl : savedGraph = g := Except.ok.inj (read_firstSaved.symm.trans hread)
  refine ⟨hload, ?_, ?_, ?_, ?_⟩
  · exact (hserve [.text "a"] (.new .null)).1
  · exact (hserve [.text "b"] (.new .null)).1
  · exact (hserve [.text "c"] (.new .null)).1
  · exact (hserve [.text "e", .text "d"] (.new .null)).1

/-- A change that is not saved is not even found by the next request. -/
theorem unsaved_request_lost :
    let s : Session := ⟨bareProject, ⟨.empty, false⟩⟩
    load bareProject = .ok s.preferences ∧
      ((s.serve (.set [.text "a"] (.new (.text "x")) false)).2.serve
        (.get [.text "a"] (.new .null))).1 = .ok (.new .null) :=
  ⟨rfl, rfl⟩

end ThemedCss.Preferences
