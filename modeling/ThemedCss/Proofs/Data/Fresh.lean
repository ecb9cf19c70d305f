import ThemedCss.Proofs.Data.Whole

/-! Graphs that come behind cells that are there already: they hold the same data. What is set in an
empty mapping meets nothing there. -/
namespace ThemedCss.Data

namespace Cell

private theorem value_moved (n : Nat) (f : Part → Value) (c : Cell) :
    (c.moved n).value f = c.value fun q => f (q.moved n) := by
  cases c <;> simp [moved, value, Function.comp_def]

private theorem enclosed_moved (n : Nat) (c : Cell) : (c.moved n).enclosed = c.enclosed := by
  cases c <;> rfl

private theorem parts_moved (n : Nat) (c : Cell) : (c.moved n).parts = c.parts.map (·.moved n) := by
  cases c <;> simp [moved, parts, Function.comp_def]

end Cell

namespace Layout

def movedCell (n : Nat) (e : Nat × Cell) : Nat × Cell :=
  (n + e.1, e.2.moved n)

mutual
theorem exists_moved (n : Nat) : ∀ t : Layout, ∃ t' : Layout, t'.part = t.part.moved n ∧
    t'.value = t.value ∧ t'.cells = t.cells.map (movedCell n)
  | plain v h => ⟨plain v h, rfl, rfl, rfl⟩
  | lone p v h => ⟨lone (n + p) v h, rfl, rfl, rfl⟩
  | list p items => by
    obtain ⟨items', hparts, hvalues, hcells⟩ := exists_movedAll n items
    refine ⟨list (n + p) items', rfl, by rw [value, hvalues, value], ?_⟩
    rw [cells, hparts, hcells, cells, List.map_cons, movedCell, Cell.moved, List.map_map]
    rfl
  | pair p a b => by
    obtain ⟨a', ha, hav, hac⟩ := exists_moved n a
    obtain ⟨b', hb, hbv, hbc⟩ := exists_moved n b
    refine ⟨pair (n + p) a' b', rfl, by rw [value, hav, hbv, value], ?_⟩
    rw [cells, ha, hb, hac, hbc, ← List.map_append, cells, List.map_cons, movedCell, Cell.moved]
  | set p members => by
    obtain ⟨members', hparts, hvalues, hcells⟩ := exists_movedAll n members
    refine ⟨set (n + p) members', rfl, by rw [value, hvalues, value], ?_⟩
    rw [cells, hparts, hcells, cells, List.map_cons, movedCell, Cell.moved, List.map_map]
    rfl
  | map p entries => by
    obtain ⟨entries', hparts, hvalues, hcells⟩ := exists_movedEntries n entries
    refine ⟨map (n + p) entries', rfl, by rw [value, hvalues, value], ?_⟩
    rw [cells, hparts, hcells, cells, List.map_cons, movedCell, Cell.moved]

theorem exists_movedAll (n : Nat) : ∀ ts : List Layout, ∃ ts' : List Layout,
    ts'.map part = ts.map (fun t => t.part.moved n) ∧ values ts' = values ts ∧
      cellsAll ts' = (cellsAll ts).map (movedCell n)
  | [] => ⟨[], rfl, rfl, rfl⟩
  | t :: ts => by
    obtain ⟨t', hpart, hvalue, hcells⟩ := exists_moved n t
    obtain ⟨ts', hparts, hvalues, hall⟩ := exists_movedAll n ts
    refine ⟨t' :: ts', ?_, by rw [values, hvalue, hvalues, values], ?_⟩
    · rw [List.map_cons, List.map_cons, hpart, hparts]
    · rw [cellsAll, hcells, hall, cellsAll, List.map_append]

theorem exists_movedEntries (n : Nat) :
    ∀ es : List (Layout × Layout), ∃ es' : List (Layout × Layout),
    entryParts es' = (entryParts es).map (fun e => (e.1.moved n, e.2.moved n)) ∧
      entryValues es' = entryValues es ∧ entryCells es' = (entryCells es).map (movedCell n)
  | [] => ⟨[], rfl, rfl, rfl⟩
  | (k, t) :: es => by
    obtain ⟨k', hk, hkv, hkc⟩ := exists_moved n k
    obtain ⟨t', ht, htv, htc⟩ := exists_moved n t
    obtain ⟨es', hparts, hvalues, hall⟩ := exists_movedEntries n es
    refine ⟨(k', t') :: es', ?_, by rw [entryValues, hkv, htv, hvalues, entryValues], ?_⟩
    · unfold entryParts at hparts ⊢
      rw [List.map_cons, List.map_cons, List.map_cons, hk, ht, hparts]
    · rw [entryCells, hkc, htc, hall, entryCells, List.map_append, List.map_append]
end

end Layout

namespace Graph

variable {g : Graph} {v : Value}

theorem size_behind (cells : Array Cell) (g : Graph) :
    (g.behind cells).cells.size = cells.size + g.cells.size := by
  simp [behind]

theorem getElem?_behind (cells : Array Cell) (g : Graph) (p : Nat) :
    (g.behind cells).cells[cells.size + p]? = (g.cells[p]?).map (·.moved cells.size) := by
  rw [behind, List.getElem?_toArray, List.getElem?_append_right (by simp)]
  simp

private theorem getElem?_behind_of_lt (g : Graph) {cells : Array Cell} {p : Nat}
    (h : p < cells.size) : (g.behind cells).cells[p]? = cells[p]? := by
  rw [behind, List.getElem?_toArray, List.getElem?_append_left (by simpa using h),
    Array.getElem?_toList]

private theorem valueOf_behind (cells : Array Cell) (g : Graph) (bound : Nat) (around : List Nat)
    (part : Part) :
    valueOf (g.behind cells).cells bound (around.map (cells.size + ·)) (part.moved cells.size) =
      valueOf g.cells bound around part := by
  induction bound generalizing around part with
  | zero => cases part <;> rfl
  | succ bound ih =>
    cases part with
    | plain v => rfl
    | cell p =>
      have hcontains : (around.map (cells.size + ·)).contains (cells.size + p) =
          around.contains p := by
        simp
      rw [Part.moved, valueOf, valueOf, getElem?_behind, hcontains]
      cases g.cells[p]? with
      | none => rfl
      | some c =>
        simp only [Option.map_some, Cell.enclosed_moved, Cell.value_moved, ← List.map_cons, ih]

theorem toValue_behind (cells : Array Cell) (g : Graph) : (g.behind cells).toValue = g.toValue := by
  have hmoved := valueOf_behind cells g ((g.behind cells).cells.size + 1) [] g.root
  have hbound : valueOf g.cells ((g.behind cells).cells.size + 1) [] g.root =
      valueOf g.cells (g.cells.size + 1) [] g.root := by
    apply valueOf_of_le List.nodup_nil
    · simp
    · simp
    · rw [size_behind]
      omega
  exact hmoved.trans hbound

/-- Data without shared parts stay so behind other cells. -/
theorem Spells.behind (h : g.Spells v) (cells : Array Cell) : (g.behind cells).Spells v := by
  obtain ⟨t, hpart, hheld, hvalue⟩ := h
  obtain ⟨t', hpart', hvalue', hcells⟩ := t.exists_moved cells.size
  refine ⟨t', ?_, ?_, hvalue'.trans hvalue⟩
  · rw [hpart', hpart]
    rfl
  rw [hcells]
  constructor
  · intro e he
    obtain ⟨f, hf, rfl⟩ := List.mem_map.mp he
    rw [Layout.movedCell, getElem?_behind, hheld.held f hf, Option.map_some]
  · rw [List.map_map]
    have hplaces : ((·.1) ∘ Layout.movedCell cells.size : Nat × Cell → Nat) =
        (cells.size + ·) ∘ (·.1) := rfl
    rw [hplaces, ← List.map_map]
    exact List.Pairwise.map _ (fun _ _ hne heq => hne (Nat.add_left_cancel heq)) hheld.nodup

theorem Whole.behind (h : g.Whole) {cells : Array Cell} (hcells : Closed cells) :
    (g.behind cells).Whole := by
  have hmoved {part : Part} (hpart : part.Within g.cells.size) :
      (part.moved cells.size).Within (g.behind cells).cells.size := by
    rw [size_behind]
    cases part with
    | plain v => trivial
    | cell p => exact Nat.add_lt_add_left hpart _
  refine ⟨?_, hmoved h.root⟩
  intro p c hcell q hq
  by_cases hp : p < cells.size
  · rw [getElem?_behind_of_lt g hp] at hcell
    apply (hcells p c hcell q hq).mono
    rw [size_behind]
    omega
  · obtain ⟨i, rfl⟩ := Nat.exists_eq_add_of_le (Nat.not_lt.mp hp)
    rw [getElem?_behind] at hcell
    obtain ⟨c', hcell', rfl⟩ := Option.map_eq_some_iff.mp hcell
    rw [Cell.parts_moved] at hq
    obtain ⟨q', hq', rfl⟩ := List.mem_map.mp hq
    exact hmoved (h.closed i c' hcell' q' hq')

theorem WholeMapping.behind (h : g.WholeMapping) {cells : Array Cell} (hcells : Closed cells) :
    (g.behind cells).WholeMapping := by
  refine ⟨h.toWhole.behind hcells, ?_⟩
  obtain ⟨es, hes⟩ := Option.isSome_iff_exists.mp h.mapping
  obtain ⟨p, hroot, hcell⟩ := exists_cell_of_entries? hes
  have hmoved : (g.behind cells).root = .cell (cells.size + p) := by
    rw [Graph.behind, hroot, Part.moved]
  rw [hmoved, entries?_of_cell ((getElem?_behind cells g p).trans (by rw [hcell]; rfl))]
  rfl

section Empty

variable {g : Graph} {p : Nat}

theorem assign_of_empty (h : g.cells[p]? = some (.map [])) (k : Value) (v : Part) :
    g.assign (.cell p) k v =
      if k.isKey then .ok ⟨g.cells.setIfInBounds p (.map [(.plain k, v)]), g.root⟩
      else .error .notKey := by
  have hcell : cell? g.cells (.cell p) = some (.map []) := h
  simp only [assign, hcell]
  rfl

private theorem member?_of_empty (h : g.cells[p]? = some (.map [])) (k : Value) :
    g.member? (.cell p) k = if k.isKey then .ok none else .error .notKey := by
  have hcell : cell? g.cells (.cell p) = some (.map []) := h
  simp only [member?, hcell]
  rfl

/-- An empty mapping in which something was set. Nothing stood in the way, so that only the keys
matter. -/
structure Filled (g : Graph) (p : Nat) (keys : List Value) (result : Graph × Option AccessFault) :
    Prop where
  fault : result.2 = none ↔ ∀ k ∈ keys, k.isKey
  root : result.1.root = g.root
  size : g.cells.size ≤ result.1.cells.size
  frame : ∀ q < g.cells.size, q ≠ p → result.1.cells[q]? = g.cells[q]?
  filled : result.2 = none → ∃ e es, result.1.cells[p]? = some (.map (e :: es))

theorem filled_set (h : g.cells[p]? = some (.map [])) (k : Value) (v : Given) (rest : List Value) :
    g.Filled p (k :: rest) (g.set (.cell p) k v rest) := by
  have hp : p < g.cells.size := (Array.getElem?_eq_some_iff.mp h).1
  induction rest generalizing g p k with
  | nil =>
    obtain ⟨hsize, hold⟩ := place_spec g.cells v
    have hassign := assign_of_empty (g := ⟨(v.place g.cells).1, g.root⟩) ((hold p hp).trans h) k
      (v.place g.cells).2
    by_cases hk : k.isKey
    · rw [if_pos hk] at hassign
      simp only [set, hassign]
      refine ⟨by simpa using hk, rfl, by simpa using hsize, ?_, ?_⟩
      · intro q hq hne
        rw [Array.getElem?_setIfInBounds_ne (Ne.symm hne), hold q hq]
      · intro _
        exact ⟨_, _, Array.getElem?_setIfInBounds_self_of_lt (by omega)⟩
    · rw [if_neg hk] at hassign
      simp only [set, hassign]
      exact ⟨by simpa using hk, rfl, Nat.le_refl _, fun _ _ _ => rfl,
        fun hnone => absurd hnone (Option.some_ne_none _)⟩
  | cons next rest ih =>
    have hmember := member?_of_empty h k
    by_cases hk : k.isKey
    · rw [if_pos hk] at hmember
      have hgrown := (Grown.nil g.cells).push (.map [])
      have hassign :=
        assign_of_empty (g := ⟨g.cells.push (.map []), g.root⟩) ((hgrown.old p hp).trans h) k
          (.cell g.cells.size)
      rw [if_pos hk] at hassign
      obtain ⟨cells, hcells⟩ : ∃ cells,
          (g.cells.push (.map [])).setIfInBounds p (.map [(.plain k, .cell g.cells.size)]) =
            cells := ⟨_, rfl⟩
      have hsize : cells.size = g.cells.size + 1 := by simp [← hcells]
      have hhere : cells[p]? = some (.map [(.plain k, .cell g.cells.size)]) := by
        rw [← hcells, Array.getElem?_setIfInBounds_self_of_lt (by rw [Array.size_push]; omega)]
      have hother : ∀ q, q ≠ p → cells[q]? = (g.cells.push (.map []))[q]? := by
        intro q hq
        rw [← hcells, Array.getElem?_setIfInBounds_ne (Ne.symm hq)]
      have hinner : cells[g.cells.size]? = some (.map []) := by
        rw [hother _ (by omega)]
        exact Array.getElem?_push_size
      obtain ⟨hfault, hroot, hgrows, hframe, -⟩ :=
        ih (g := ⟨cells, g.root⟩) hinner next (by simp [hsize])
      dsimp only at hgrows hframe
      simp only [set, hmember, push, hassign, hcells]
      refine ⟨?_, hroot, by omega, ?_, fun _ => ?_⟩
      · rw [hfault, List.forall_mem_cons (a := k)]
        exact (and_iff_right hk).symm
      · intro q hq hne
        rw [hframe q (by omega) (by omega), hother q hne, hgrown.old q hq]
      · exact ⟨_, _, (hframe p (by omega) (by omega)).trans hhere⟩
    · rw [if_neg hk] at hmember
      simp only [set, hmember]
      exact ⟨by simp [hk], rfl, Nat.le_refl _, fun _ _ _ => rfl,
        fun hnone => absurd hnone (Option.some_ne_none _)⟩

end Empty

theorem isEmpty_toValue_of_cell {g : Graph} {p : Nat} {e : Part × Part} {es : List (Part × Part)}
    (hroot : g.root = .cell p) (hcell : g.cells[p]? = some (.map (e :: es))) :
    g.toValue.isEmpty = false := by
  rw [toValue, value, hroot, valueOf, hcell]
  rfl

end Graph
end ThemedCss.Data
