import ThemedCss.Proofs.Data.Whole
import ThemedCss.Yaml.Reader

/-! Every graph that is read has a cell for each of its parts. -/
namespace ThemedCss.Yaml
open ThemedCss.Data

/-- All parts so far have cells. -/
structure BuildState.Sound (s : BuildState) : Prop where
  closed : Graph.Closed s.cells
  parts : ∀ n p, s.parts.getD n none = some p → p.Within s.cells.size

namespace Builder

variable {α β : Type} {n : Nat}

/-- Steps that keep all parts in cells, where there are `n` cells at least, and whose result is as
promised for the number of cells after them. -/
def Builds (n : Nat) (b : Builder α) (good : α → Nat → Prop) : Prop :=
  ∀ s a s', s.Sound → n ≤ s.cells.size → b.run s = .ok (a, s') →
    s'.Sound ∧ s.cells.size ≤ s'.cells.size ∧ good a s'.cells.size

section Steps

variable {P : α → Nat → Prop} {Q : β → Nat → Prop}

theorem Builds.pure {a : α} (h : ∀ m, n ≤ m → P a m) : Builds n (Pure.pure a) P := by
  intro s a' s' hs hn hrun
  cases hrun
  exact ⟨hs, Nat.le_refl _, h _ hn⟩

theorem Builds.throw (f : Fault) : Builds n (MonadExcept.throw f : Builder α) P := by
  intro s a s' hs hn hrun
  cases hrun

theorem Builds.throw_bind (f : Fault) (k : α → Builder β) :
    Builds n (MonadExcept.throw f >>= k) Q := by
  intro s a s' hs hn hrun
  cases hrun

theorem Builds.bind {b : Builder α} {k : α → Builder β} (hb : Builds n b P)
    (hk : ∀ a m, n ≤ m → P a m → Builds m (k a) Q) : Builds n (b >>= k) Q := by
  intro s c s'' hs hn hrun
  rw [StateT.run_bind] at hrun
  cases hfirst : b.run s with
  | error f =>
    rw [hfirst] at hrun
    cases hrun
  | ok r =>
    obtain ⟨a, s'⟩ := r
    rw [hfirst] at hrun
    obtain ⟨hs', hle, ha⟩ := hb s a s' hs hn hfirst
    obtain ⟨hs'', hle', hc⟩ :=
      hk a s'.cells.size (Nat.le_trans hn hle) ha s' c s'' hs' (Nat.le_refl _) hrun
    exact ⟨hs'', Nat.le_trans hle hle', hc⟩

theorem Builds.get :
    Builds n (MonadState.get : Builder BuildState) fun s m => s.Sound ∧ s.cells.size = m := by
  intro s a s' hs hn hrun
  cases hrun
  exact ⟨hs, Nat.le_refl _, hs, rfl⟩

theorem Builds.lift (r : Except Fault α) : Builds n (liftM r : Builder α) fun _ _ => True := by
  intro s a s' hs hn hrun
  cases r with
  | error f => cases hrun
  | ok v =>
    cases hrun
    exact ⟨hs, Nat.le_refl _, trivial⟩

/-- To change the parts or the cells in place. -/
theorem Builds.modify {f : BuildState → BuildState}
    (h : ∀ s : BuildState, s.Sound → n ≤ s.cells.size →
      (f s).Sound ∧ (f s).cells.size = s.cells.size) :
    Builds n (modify f : Builder Unit) fun _ _ => True := by
  intro s a s' hs hn hrun
  cases hrun
  obtain ⟨hsound, hsize⟩ := h s hs hn
  exact ⟨hsound, Nat.le_of_eq hsize.symm, trivial⟩

theorem Builds.mapM {f : α → Builder β} (hmono : ∀ b m m', Q b m → m ≤ m' → Q b m') {l : List α}
    (h : ∀ a m, n ≤ m → Builds m (f a) Q) : Builds n (l.mapM f) fun bs m => ∀ b ∈ bs, Q b m := by
  induction l generalizing n with
  | nil => exact .pure fun _ _ => by simp
  | cons a l ih =>
    rw [List.mapM_cons]
    refine (h a n (Nat.le_refl _)).bind fun b m hm hb => ?_
    refine (ih fun a m' hm' => h a m' (Nat.le_trans hm hm')).bind fun bs m' hm' hbs =>
      .pure fun m'' hm'' => ?_
    refine List.forall_mem_cons.mpr ⟨hmono b m m'' hb (Nat.le_trans hm' hm''), fun c hc => ?_⟩
    exact hmono c m' m'' (hbs c hc) hm''

theorem Builds.foldlM {f : β → α → Builder β} (hmono : ∀ b m m', Q b m → m ≤ m' → Q b m')
    {l : List α} {init : β} (hinit : Q init n) (h : ∀ b a m, n ≤ m → Q b m → Builds m (f b a) Q) :
    Builds n (l.foldlM f init) Q := by
  induction l generalizing n init with
  | nil => exact .pure fun m hm => hmono init n m hinit hm
  | cons a l ih =>
    rw [List.foldlM_cons]
    refine (h init a n (Nat.le_refl _) hinit).bind fun b m hm hb => ?_
    exact ih hb fun b a m' hm' => h b a m' (Nat.le_trans hm hm')

theorem Builds.forM {f : α → Builder Unit} {l : List α}
    (h : ∀ a m, n ≤ m → Builds m (f a) fun _ _ => True) : Builds n (l.forM f) fun _ _ => True := by
  induction l generalizing n with
  | nil => exact .pure fun _ _ => trivial
  | cons a l ih =>
    show Builds n (f a >>= fun _ => l.forM f) _
    exact (h a n (Nat.le_refl _)).bind fun _ m hm _ => ih fun a m' hm' =>
      h a m' (Nat.le_trans hm hm')

end Steps

section Nodes

theorem builds_nodeAt (i : Nat) : Builds n (nodeAt i) fun _ _ => True :=
  Builds.get.bind fun _ _ _ _ => .pure fun _ _ => trivial

theorem builds_setNode (i : Nat) (node : Node) : Builds n (setNode i node) fun _ _ => True :=
  .modify fun _ hs _ => ⟨⟨hs.closed, hs.parts⟩, rfl⟩

theorem builds_entriesOf (i : Nat) : Builds n (entriesOf i) fun _ _ => True := by
  refine (builds_nodeAt i).bind fun node m _ _ => ?_
  cases node with
  | mapping tag entries => exact .pure fun _ _ => trivial
  | _ => exact .throw _

theorem builds_setEntries (i : Nat) (entries : List (Nat × Nat)) :
    Builds n (setEntries i entries) fun _ _ => True :=
  (builds_nodeAt i).bind fun _ _ _ _ => builds_setNode i _

private theorem builds_nextMerge (i : Nat) (entries : List (Nat × Nat)) :
    Builds n (nextMerge i entries) fun _ _ => True := by
  induction entries generalizing n i with
  | nil => exact .pure fun _ _ => trivial
  | cons e entries ih =>
    refine (builds_nodeAt e.1).bind fun node m _ _ => ?_
    split
    · exact .pure fun _ _ => trivial
    · exact (builds_setNode _ _).bind fun _ _ _ _ => ih _
    · exact ih _

/-- To take over entries changes nodes only. -/
theorem builds_flatten (merges i index : Nat) (taken : List (Nat × Nat)) :
    Builds n (flatten merges i index taken) fun _ _ => True := by
  induction merges generalizing n i index taken with
  | zero => exact .pure fun _ _ => trivial
  | succ merges ih =>
    rw [flatten]
    refine (builds_entriesOf i).bind fun entries _ _ _ =>
      (builds_nextMerge _ _).bind fun next _ _ _ => ?_
    cases next with
    | none =>
      dsimp only
      split
      · exact .pure fun _ _ => trivial
      · exact builds_setEntries _ _
    | some next =>
      have whole (j m : Nat) : Builds m (do let _ ← entriesOf j; flatten merges j 0 []; entriesOf j)
          fun _ _ => True :=
        (builds_entriesOf j).bind fun _ _ _ _ => (ih _ _ _).bind fun _ _ _ _ => builds_entriesOf j
      refine (builds_setEntries _ _).bind fun _ _ _ _ => (builds_nodeAt _).bind fun node _ _ _ => ?_
      cases node with
      | mapping tag entries => exact (whole _ _).bind fun _ _ _ _ => ih _ _ _
      | sequence tag items =>
        refine Builds.bind (Builds.mapM (fun _ _ _ _ _ => trivial) fun j m _ => whole j m)
          fun _ _ _ _ => ?_
        exact Builds.bind (P := fun _ _ => True) (.pure fun _ _ => trivial) fun _ _ _ _ => ih _ _ _
      | scalar tag text => exact .throw_bind _ _

private theorem builds_scalarText (bound i : Nat) :
    Builds n (scalarText bound i) fun _ _ => True := by
  induction bound generalizing n i with
  | zero => exact .throw _
  | succ bound ih =>
    refine (builds_nodeAt i).bind fun node _ _ _ => ?_
    cases node with
    | scalar tag text => exact .pure fun _ _ => trivial
    | sequence tag items => exact .throw _
    | mapping tag entries =>
      refine Builds.get.bind fun s _ _ _ => ?_
      dsimp only
      split
      · exact ih _
      · exact .throw _

end Nodes

section Parts

theorem builds_newCell {c : Cell} (hc : ∀ q ∈ c.parts, q.Within n) :
    Builds n (newCell c) fun p m => p < m := by
  intro s a s' hs hn hrun
  cases hrun
  have hsize : s.cells.size ≤ (s.cells.push c).size := by simp
  refine ⟨⟨hs.closed.push fun q hq => (hc q hq).mono hn,
    fun i p hp => (hs.parts i p hp).mono hsize⟩, hsize, by simp⟩

private theorem builds_scalarPart (i : Nat) (tag : Tag) :
    Builds n (scalarPart i tag) fun p m => p.Within m := by
  refine Builds.get.bind fun s _ _ _ => (builds_scalarText _ _).bind fun text _ _ _ =>
    (Builds.lift _).bind fun v m _ _ => ?_
  have hlone : Builds m (do return Part.cell (← newCell (.lone v))) fun p m => p.Within m :=
    (builds_newCell (by simp [Cell.parts])).bind fun p _ _ hp => .pure fun _ hm =>
      Nat.lt_of_lt_of_le hp hm
  have hplain : Builds m (return Part.plain v) fun p m => p.Within m := .pure fun _ _ => trivial
  split
  · exact hlone
  · exact hlone
  · split
    · exact hplain
    · exact hlone
  · exact hplain

private theorem within_of_setIfInBounds {parts : Array (Option Part)} {p q : Part} {i j m : Nat}
    (h : ∀ j q, parts.getD j none = some q → q.Within m) (hp : p.Within m)
    (hq : (parts.setIfInBounds i (some p)).getD j none = some q) : q.Within m := by
  rw [Array.getD_eq_getD_getElem?] at hq
  by_cases hj : i = j
  · subst hj
    rw [Array.getElem?_setIfInBounds_self] at hq
    split at hq
    · cases hq
      exact hp
    · cases hq
  · rw [Array.getElem?_setIfInBounds_ne hj, ← Array.getD_eq_getD_getElem?] at hq
    exact h j q hq

/-- A node becomes a part that has a cell already. -/
theorem builds_part (i : Nat) : Builds n (part i) fun p m => p.Within m := by
  refine Builds.get.bind fun s m _ hs => ?_
  cases hpart : s.parts.getD i none with
  | some p =>
    refine .pure fun m' hm' => (hs.1.parts i p hpart).mono ?_
    rw [hs.2]
    exact hm'
  | none =>
    refine (builds_nodeAt i).bind fun node m _ _ => ?_
    have hcell {c : Cell} (hc : c.parts = []) : Builds m (do
        let place ← newCell c
        modify fun s => { s with pending := (i, place) :: s.pending }
        return Part.cell place) fun p m => p.Within m := by
      refine (builds_newCell (by simp [hc])).bind fun p m _ hp => ?_
      refine Builds.bind (.modify fun s hs _ => ⟨⟨hs.closed, hs.parts⟩, rfl⟩) fun _ m' hm _ =>
        .pure fun m'' hm' => ?_
      exact Nat.lt_of_lt_of_le hp (Nat.le_trans hm hm')
    have hscalar : Builds m (do scalarPart i (← nodeAt i).tag) fun p m => p.Within m :=
      (builds_nodeAt i).bind fun _ _ _ _ => builds_scalarPart _ _
    refine Builds.bind (P := fun p m => p.Within m) ?_ fun p m _ hp => ?_
    · generalize node.tag = tag
      cases tag with
      | map | set | list | omap | pairs => exact hcell rfl
      | _ => exact hscalar
    · refine Builds.bind (.modify fun s hs hm => ⟨⟨hs.closed, fun j q hq => ?_⟩, rfl⟩)
        fun _ m' hm _ => .pure fun m'' hm' => ?_
      · exact within_of_setIfInBounds hs.parts (hp.mono hm) hq
      · exact hp.mono (Nat.le_trans hm hm')

/-- The entries of a mapping are parts that have cells. -/
theorem builds_mappingParts (i : Nat) :
    Builds n (mappingParts i) fun entries m => ∀ e ∈ entries, e.1.Within m ∧ e.2.Within m := by
  refine Builds.get.bind fun _ _ _ _ => (builds_flatten _ _ _ _).bind fun _ _ _ _ => ?_
  refine (builds_entriesOf i).bind fun entries m _ _ => ?_
  have hmono : ∀ (es : List (Part × Part)) (m m' : Nat),
      (∀ e ∈ es, e.1.Within m ∧ e.2.Within m) → m ≤ m' → ∀ e ∈ es, e.1.Within m' ∧ e.2.Within m' :=
    fun _ _ _ h hm e he => ⟨(h e he).1.mono hm, (h e he).2.mono hm⟩
  refine Builds.foldlM hmono (by simp) fun es e m _ hes => ?_
  refine (builds_part e.1).bind fun k m₁ hm₁ hk => Builds.get.bind fun s m₂ hm₂ _ => ?_
  cases Graph.lone? s.cells k with
  | none => exact .throw_bind _ _
  | some v =>
    refine (builds_part e.2).bind fun v m₃ hm₃ hv => Builds.get.bind fun s m₄ hm₄ _ =>
      .pure fun m₅ hm₅ => ?_
    apply Graph.forall_mem_insert
    · exact hmono es m m₅ hes (by omega)
    · exact hk.mono (by omega)
    · exact hv.mono (by omega)

theorem builds_pairPart (i : Nat) : Builds n (pairPart i) fun p m => p.Within m := by
  refine (builds_entriesOf i).bind fun entries m _ _ => ?_
  match entries with
  | [(k, v)] =>
    refine (builds_part k).bind fun a m₁ _ ha => (builds_part v).bind fun b m₂ hm₂ hb => ?_
    have hparts : ∀ q ∈ (Cell.pair a b).parts, q.Within m₂ :=
      List.forall_mem_cons.mpr ⟨ha.mono hm₂, List.forall_mem_singleton.mpr hb⟩
    exact (builds_newCell hparts).bind fun p _ _ hp => .pure fun _ hm => Nat.lt_of_lt_of_le hp hm
  | [] | _ :: _ :: _ => exact .throw _

/-- A collection is filled with parts that have cells. -/
theorem builds_fill (i place : Nat) : Builds n (fill i place) fun _ _ => True := by
  refine (builds_nodeAt i).bind fun node m _ _ => ?_
  have hput {c : Cell} {m : Nat} (hc : ∀ q ∈ c.parts, q.Within m) :
      Builds m
        (do let c ← pure c; modify fun s => { s with cells := s.cells.setIfInBounds place c })
          fun _ _ => True := by
    refine Builds.bind (P := fun c m => ∀ q ∈ c.parts, q.Within m)
      (.pure fun m' hm q hq => (hc q hq).mono hm) ?_
    refine fun c m _ hc => .modify fun s hs hm => ⟨⟨?_, ?_⟩, by simp⟩
    · exact hs.closed.setIfInBounds place fun q hq => (hc q hq).mono hm
    · simpa using hs.parts
  have hmono (p : Part) (m m' : Nat) (h : p.Within m) (hm : m ≤ m') : p.Within m' := h.mono hm
  dsimp only
  split
  · exact (builds_mappingParts i).bind fun es m _ hes => hput (Graph.forall_mem_parts_map.mpr hes)
  · refine (builds_mappingParts i).bind fun es m _ hes => hput fun q hq => ?_
    obtain ⟨e, he, rfl⟩ := List.mem_map.mp hq
    exact (hes e he).1
  · exact Builds.bind (.mapM hmono fun j m _ => builds_part j) fun qs m _ hqs => hput hqs
  · exact Builds.bind (.mapM hmono fun j m _ => builds_pairPart j) fun qs m _ hqs => hput hqs
  · exact Builds.bind (.mapM hmono fun j m _ => builds_pairPart j) fun qs m _ hqs => hput hqs
  · exact .throw_bind _ _

private theorem builds_fillAll (turns : Nat) : Builds n (fillAll turns) fun _ _ => True := by
  induction turns generalizing n with
  | zero => exact .pure fun _ _ => trivial
  | succ turns ih =>
    refine Builds.get.bind fun s _ _ _ => ?_
    dsimp only
    split
    · exact .pure fun _ _ => trivial
    · refine Builds.bind (.modify fun s hs _ => ⟨⟨hs.closed, hs.parts⟩, rfl⟩) fun _ _ _ _ => ?_
      exact (Builds.forM fun e _ _ => builds_fill e.1 e.2).bind fun _ _ _ _ => ih

end Parts

end Builder

/-- A document becomes a graph that has a cell for each of its parts. -/
theorem whole_graph {d : Document} {g : Graph} (h : d.graph = .ok g) : g.Whole := by
  let start : BuildState := ⟨d.nodes, Array.replicate d.nodes.size none, #[], [], d.mergeCount⟩
  let build : Builder Part := do
    let root ← Builder.part d.root
    Builder.fillAll (d.nodes.size + 1)
    return root
  have hstart : start.Sound := by
    refine ⟨fun p c hcell => by simp [start] at hcell, fun i p hp => ?_⟩
    rw [Array.getD_eq_getD_getElem?, Array.getElem?_replicate] at hp
    by_cases hi : i < d.nodes.size <;> simp [hi] at hp
  have hbuild : Builder.Builds 0 build fun p m => p.Within m :=
    (Builder.builds_part _).bind fun p m _ hp => (Builder.builds_fillAll _).bind fun _ m' hm _ =>
      .pure fun m'' hm' => hp.mono (Nat.le_trans hm hm')
  change (build.run start >>= fun r => Except.ok (Data.Graph.mk r.2.cells r.1)) = _ at h
  cases hrun : build.run start with
  | error f =>
    rw [hrun] at h
    cases h
  | ok r =>
    rw [hrun] at h
    obtain ⟨hs, -, hroot⟩ := hbuild _ _ _ hstart (Nat.zero_le _) hrun
    cases h
    exact ⟨hs.closed, hroot⟩

/-- What is read has a cell for each of its parts. -/
theorem whole_read {cs : List Char} {g : Graph} (h : read cs = .ok g) : g.Whole := by
  unfold read at h
  cases htokens : tokenize (unifyLineEnds cs) with
  | error f => simp [htokens, bind, Except.bind] at h
  | ok tokens =>
    cases hdocument : Document.ofTokens? Literal.tagOf tokens with
    | error f => simp [htokens, hdocument, bind, Except.bind] at h
    | ok d =>
      simp only [htokens, hdocument, bind, Except.bind] at h
      cases d with
      | none =>
        cases h
        exact ⟨fun p c hcell => by simp at hcell, trivial⟩
      | some d => exact whole_graph h

end ThemedCss.Yaml
