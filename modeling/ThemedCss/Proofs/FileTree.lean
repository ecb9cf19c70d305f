import ThemedCss.FileTree

/-! What is there after directories were made and a file was written, and that it can be done
again. -/
namespace ThemedCss.FileTree
open ThemedCss.Text

variable {t t' t'' : FileTree} {place here parts : List String} {e : Entry}

theorem ne_nil_of_not_directory (h : t.entry? place ≠ some .directory) : place ≠ [] := by
  rintro rfl
  exact h rfl

theorem entry?_put_self (h : place ≠ []) : FileTree.entry? (t.put place e) place = some e := by
  simp [ entry?, put, h]

theorem entry?_put_of_ne {q : List String} (h : q ≠ place) :
    FileTree.entry? (t.put place e) q = t.entry? q := by
  have hfilter : ∀ entries : List (List String × Entry),
      (entries.filter (·.1 ≠ place)).lookup q = entries.lookup q := by
    intro entries
    induction entries with
    | nil => rfl
    | cons entry entries ih =>
      by_cases hp : entry.1 = place
      · have hq : (q == entry.1) = false := by simpa [hp] using h
        rw [List.filter_cons_of_neg (by simpa using hp), ih, List.lookup_cons, hq]
      · rw [List.filter_cons_of_pos (by simpa using hp), List.lookup_cons, List.lookup_cons, ih]
  have hq : (q == place) = false := by simpa using h
  simp only [ entry?, put, List.lookup_cons, hq, hfilter]

/-- Every step of a way leads to a directory. -/
def Leads (t : FileTree) : List String → List String → Prop
  | _, [] => True
  | here, part :: rest =>
    part.utf8ByteSize ≤ nameLimit ∧ t.entry? (t.step here part) = some .directory ∧
      t.Leads (t.step here part) rest

theorem step_of_links (h : t'.links = t.links) : t'.step = t.step := by
  funext here part
  rw [step, step, follow, follow, h]

theorem Leads.mono (h : t.Leads here parts) (hlinks : t'.links = t.links)
    (hkeep : ∀ q, t.entry? q = some .directory → t'.entry? q = some .directory) :
    t'.Leads here parts := by
  induction parts generalizing here with
  | nil => trivial
  | cons part rest ih =>
    obtain ⟨hshort, hnext, hrest⟩ := h
    rw [Leads, step_of_links hlinks]
    exact ⟨hshort, hkeep _ hnext, ih hrest⟩

/-- Making a way leaves it made, and no directory is lost. -/
theorem leads_of_makeFrom (h : t.makeFrom here parts = .ok t') :
    t'.Leads here parts ∧ t'.cwd = t.cwd ∧ t'.links = t.links ∧
      ∀ q, t.entry? q = some .directory → t'.entry? q = some .directory := by
  induction parts generalizing t here with
  | nil =>
    cases h
    exact ⟨trivial, rfl, rfl, fun q hq => hq⟩
  | cons part rest ih =>
    rw [makeFrom] at h
    by_cases hlong : nameLimit < part.utf8ByteSize
    · simp [hlong] at h
    have hshort : part.utf8ByteSize ≤ nameLimit := by omega
    simp only [hlong, if_false] at h
    cases hnext : t.entry? (t.step here part) with
    | none =>
      by_cases hlink : (t.links.lookup (here ++ [part])).isSome
      · simp [hnext, hlink] at h
      rw [hnext] at h
      simp only [hlink] at h
      obtain ⟨hleads, hcwd, hlinks, hkeep⟩ := ih h
      have hne : t.step here part ≠ [] := ne_nil_of_not_directory (t := t) (by simp [hnext])
      have hput : (t.put (t.step here part) .directory).links = t.links := rfl
      refine ⟨?_, hcwd, hlinks, ?_⟩
      · rw [Leads, step_of_links (hlinks.trans hput)]
        exact ⟨hshort, hkeep _ (entry?_put_self hne), hleads⟩
      · intro q hq
        apply hkeep
        by_cases hqn : q = t.step here part
        · rw [hqn, entry?_put_self hne]
        · rw [entry?_put_of_ne hqn, hq]
    | some entry =>
      rw [hnext] at h
      cases entry with
      | directory =>
        obtain ⟨hleads, hcwd, hlinks, hkeep⟩ := ih h
        refine ⟨?_, hcwd, hlinks, hkeep⟩
        rw [Leads, step_of_links hlinks]
        exact ⟨hshort, hkeep _ hnext, hleads⟩
      | file => cases h

theorem Leads.makeFrom (h : t.Leads here parts) : t.makeFrom here parts = .ok t := by
  induction parts generalizing here with
  | nil => rfl
  | cons part rest ih =>
    obtain ⟨hshort, hnext, hrest⟩ := h
    have hlong : ¬nameLimit < part.utf8ByteSize := by omega
    simp only [FileTree.makeFrom, hlong, if_false, hnext]
    exact ih hrest

theorem Leads.walk (hhere : t.entry? here = some .directory) (h : t.Leads here parts) :
    t.walk here parts = .ok (parts.foldl t.step here) ∧
      t.entry? (parts.foldl t.step here) = some .directory := by
  induction parts generalizing here with
  | nil => exact ⟨rfl, hhere⟩
  | cons part rest ih =>
    obtain ⟨hshort, hnext, hrest⟩ := h
    have hlong : ¬nameLimit < part.utf8ByteSize := by omega
    simp only [FileTree.walk, hhere, hlong, hnext, ne_eq, not_true, if_false,
      Option.isSome_some, if_true]
    exact ih hnext hrest

/-- A walk looks at where it starts, unless it ends there. -/
theorem entry?_start_of_walk {there : List String} (h : t.walk here parts = .ok there)
    (hthere : t.entry? there = some .directory) : t.entry? here = some .directory := by
  cases parts with
  | nil =>
    cases h
    exact hthere
  | cons part rest =>
    apply Decidable.byContradiction
    intro hne
    rw [walk, if_pos hne] at h
    cases h

theorem walk_append (here parts rest : List String) :
    t.walk here (parts ++ rest) = (t.walk here parts).bind fun there => t.walk there rest := by
  induction parts generalizing here with
  | nil => rfl
  | cons part parts ih =>
    simp only [List.cons_append, walk]
    by_cases hhere : t.entry? here ≠ some .directory
    · simp only [hhere, ne_eq, not_false_eq_true, if_true]
      rfl
    by_cases hlong : nameLimit < part.utf8ByteSize
    · simp only [hhere, hlong, if_true, if_false]
      rfl
    by_cases hnext : (t.entry? (t.step here part)).isSome
    · simp only [hhere, hlong, hnext, if_true, if_false]
      exact ih _
    · simp only [hhere, hlong, hnext, Bool.false_eq_true, if_false]
      rfl

def placeIn (t : FileTree) (directory : Path) (name : String) : List String :=
  t.step (directory.parts.foldl t.step (t.origin directory)) name

/-- The directory is there, and a file of that name can be written into it. Where the name is that
of a link, the file lies in another directory. -/
structure Ready (t : FileTree) (directory : Path) (name : String) : Prop where
  start : t.entry? (t.origin directory) = some .directory
  leads : t.Leads (t.origin directory) directory.parts
  short : name.utf8ByteSize ≤ nameLimit
  free : t.entry? (t.placeIn directory name) ≠ some .directory
  inside : t.entry? (t.placeIn directory name).dropLast = some .directory

section Ready

variable {directory : Path} {name : String} {content : Bytes}

theorem write_child (content : Bytes) :
    t.write (directory.child name) content =
      (t.walk (t.origin directory) directory.parts).bind fun there =>
        if t.entry? (t.step there name) = some .directory then .error .isDirectory
        else if t.entry? there ≠ some .directory then .error .notDirectory
        else if nameLimit < name.utf8ByteSize then .error .nameTooLong
        else if t.entry? (t.step there name).dropLast ≠ some .directory then .error .missing
        else .ok (t.put (t.step there name) (.file content)) := by
  have horigin : t.origin (directory.child name) = t.origin directory := rfl
  have hparts : (directory.child name).parts = directory.parts ++ [name] := rfl
  have hname : (directory.child name).name = name := by simp [Path.name, hparts]
  simp only [write, horigin, hparts, hname, List.dropLast_concat, List.getLast?_concat]
  cases hwalk : t.walk (t.origin directory) directory.parts with
  | error f => rfl
  | ok there =>
    dsimp only [bind, Except.bind]
    by_cases hfree : t.entry? (t.step there name) = some .directory
    · simp [hfree, throw, throwThe, MonadExceptOf.throw]
    by_cases hthere : t.entry? there ≠ some .directory
    · simp [hfree, hthere, throw, throwThe, MonadExceptOf.throw]
    by_cases hlong : nameLimit < name.utf8ByteSize
    · simp [hfree, hthere, hlong, throw, throwThe, MonadExceptOf.throw]
    by_cases hinside : t.entry? (t.step there name).dropLast ≠ some .directory
    · simp [hfree, hthere, hlong, hinside, throw, throwThe, MonadExceptOf.throw]
    · simp [hfree, hthere, hlong, hinside, pure, Except.pure]

/-- Where a file was written into a directory that was made, one can be written again. -/
theorem ready_of_write (hmake : t.makeDirectory directory = .ok t')
    (hwrite : t'.write (directory.child name) content = .ok t'') : t'.Ready directory name := by
  obtain ⟨hleads, hcwd, -⟩ := leads_of_makeFrom hmake
  have horigin : t'.origin directory = t.origin directory := by rw [origin, origin, hcwd]
  rw [← horigin] at hleads
  rw [write_child] at hwrite
  cases hwalk : t'.walk (t'.origin directory) directory.parts with
  | error f =>
    rw [hwalk] at hwrite
    cases hwrite
  | ok there =>
    rw [hwalk, Except.bind] at hwrite
    by_cases hfree : t'.entry? (t'.step there name) = some .directory
    · rw [if_pos hfree] at hwrite
      cases hwrite
    by_cases hthere : t'.entry? there ≠ some .directory
    · rw [if_neg hfree, if_pos hthere] at hwrite
      cases hwrite
    by_cases hlong : nameLimit < name.utf8ByteSize
    · rw [if_neg hfree, if_neg hthere, if_pos hlong] at hwrite
      cases hwrite
    by_cases hinside : t'.entry? (t'.step there name).dropLast ≠ some .directory
    · rw [if_neg hfree, if_neg hthere, if_neg hlong, if_pos hinside] at hwrite
      cases hwrite
    have hstart := entry?_start_of_walk hwalk (Decidable.not_not.mp hthere)
    obtain rfl : there = directory.parts.foldl t'.step (t'.origin directory) :=
      Except.ok.inj (hwalk.symm.trans (hleads.walk hstart).1)
    exact ⟨hstart, hleads, Nat.not_lt.mp hlong, hfree, Decidable.not_not.mp hinside⟩

theorem Ready.write (h : t.Ready directory name) (content : Bytes) :
    t.write (directory.child name) content =
      .ok (t.put (t.placeIn directory name) (.file content)) := by
  obtain ⟨hwalk, hthere⟩ := h.leads.walk h.start
  have hlong : ¬nameLimit < name.utf8ByteSize := Nat.not_lt.mpr h.short
  have hfree := h.free
  have hinside := h.inside
  unfold placeIn at hfree hinside ⊢
  rw [write_child, hwalk, Except.bind, if_neg hfree, if_neg (fun hne => hne hthere), if_neg hlong,
    if_neg (fun hne => hne hinside)]

/-- The written file stands in no one's way. -/
theorem Ready.put (h : t.Ready directory name) (content : Bytes) :
    (t.put (t.placeIn directory name) (.file content)).Ready directory name := by
  have hkeep : ∀ q, t.entry? q = some .directory →
      FileTree.entry? (t.put (t.placeIn directory name) (.file content)) q = some .directory := by
    intro q hq
    have hne : q ≠ t.placeIn directory name := by
      rintro rfl
      exact h.free hq
    rw [entry?_put_of_ne hne, hq]
  constructor
  · exact hkeep _ h.start
  · exact h.leads.mono rfl hkeep
  · exact h.short
  · show FileTree.entry? (t.put _ (.file content)) (t.placeIn directory name) ≠ _
    rw [entry?_put_self (ne_nil_of_not_directory h.free)]
    simp
  · exact hkeep _ h.inside

/-- A file that was written is there. -/
theorem Ready.look (h : t.Ready directory name) (content : Bytes)
    (hshort : (directory.child name).toString.utf8ByteSize ≤ pathLimit) :
    (t.put (t.placeIn directory name) (.file content)).look (directory.child name) =
      .ok (some (.file content)) := by
  have hput := h.put content
  obtain ⟨hwalk, hthere⟩ := hput.leads.walk hput.start
  have hentry := entry?_put_self (t := t) (e := .file content) (ne_nil_of_not_directory h.free)
  have hlong : ¬pathLimit < (directory.child name).toString.utf8ByteSize := by omega
  generalize hafter : t.put (t.placeIn directory name) (.file content) = after at *
  have hplace : t.placeIn directory name =
      after.step (directory.parts.foldl after.step (after.origin directory)) name := by
    rw [← hafter]
    rfl
  have hnamed : ¬nameLimit < name.utf8ByteSize := Nat.not_lt.mpr h.short
  have hlocate : after.locate (directory.child name) = .ok (t.placeIn directory name) := by
    rw [locate, if_neg hlong]
    show after.walk (after.origin directory) (directory.parts ++ [name]) = _
    rw [walk_append, hwalk, Except.bind, FileTree.walk, if_neg (fun hne => hne hthere),
      if_neg hnamed, ← hplace, hentry]
    rfl
  rw [FileTree.look, hlocate]
  exact congrArg _ hentry

end Ready

end ThemedCss.FileTree
