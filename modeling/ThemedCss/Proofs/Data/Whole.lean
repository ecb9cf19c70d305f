import ThemedCss.Proofs.Data.Route

/-! Graphs in which every part has its cell. They stay so whatever is set. -/
namespace ThemedCss.Data

def Part.Within (size : Nat) : Part → Prop
  | plain _ => True
  | cell p => p < size

theorem Part.Within.mono {part : Part} {m n : Nat} (h : part.Within m) (hle : m ≤ n) :
    part.Within n := by
  cases part with
  | plain v => trivial
  | cell p => exact Nat.lt_of_lt_of_le h hle

/-- What is handed over has its cell already, or gets new ones. -/
def Given.Within (size : Nat) : Given → Prop
  | new _ => True
  | live part => part.Within size

theorem Given.Within.mono {v : Given} {m n : Nat} (h : v.Within m) (hle : m ≤ n) : v.Within n := by
  cases v with
  | new a => trivial
  | live part => exact Part.Within.mono h hle

namespace Graph

def Closed (cells : Array Cell) : Prop :=
  ∀ (p : Nat) (c : Cell), cells[p]? = some c → ∀ q ∈ c.parts, q.Within cells.size

/-- All parts of a graph have cells. -/
structure Whole (g : Graph) : Prop where
  closed : Closed g.cells
  root : g.root.Within g.cells.size

theorem whole_empty : empty.Whole := by
  refine ⟨?_, Nat.zero_lt_one⟩
  intro p c hcell q hq
  cases p with
  | zero =>
    cases hcell
    cases hq
  | succ p => cases hcell

section Closed

variable {cells : Array Cell} {c : Cell} {part last : Part} {p : Nat}

theorem Closed.within_of_leads (h : Closed cells) (hpart : part.Within cells.size)
    (hleads : Leads cells part last) : last.Within cells.size := by
  obtain ⟨route, hroute⟩ := hleads
  induction hroute with
  | here => exact hpart
  | into hcell hnext _ ih => exact ih (h _ _ hcell _ (List.mem_of_getElem? hnext))

theorem Closed.push (h : Closed cells) (hc : ∀ q ∈ c.parts, q.Within cells.size) :
    Closed (cells.push c) := by
  intro p c' hcell q hq
  rw [Array.size_push]
  rw [Array.getElem?_push] at hcell
  by_cases hp : p = cells.size
  · rw [if_pos hp] at hcell
    cases hcell
    exact (hc q hq).mono (Nat.le_succ _)
  · rw [if_neg hp] at hcell
    exact (h p c' hcell q hq).mono (Nat.le_succ _)

theorem Closed.setIfInBounds (h : Closed cells) (p : Nat)
    (hc : ∀ q ∈ c.parts, q.Within cells.size) : Closed (cells.setIfInBounds p c) := by
  intro p' c' hcell q hq
  rw [Array.size_setIfInBounds]
  by_cases hp : p = p'
  · subst hp
    rw [Array.getElem?_setIfInBounds_self] at hcell
    split at hcell
    · cases hcell
      exact hc q hq
    · cases hcell
  · rw [Array.getElem?_setIfInBounds_ne hp] at hcell
    exact h p' c' hcell q hq

theorem forall_mem_parts_map {es : List (Part × Part)} {P : Part → Prop} :
    (∀ q ∈ (Cell.map es).parts, P q) ↔ ∀ e ∈ es, P e.1 ∧ P e.2 := by
  simp only [Cell.parts, List.mem_append, List.mem_map]
  constructor
  · intro h e he
    exact ⟨h _ (.inl ⟨e, he, rfl⟩), h _ (.inr ⟨e, he, rfl⟩)⟩
  · rintro h q (⟨e, he, rfl⟩ | ⟨e, he, rfl⟩)
    · exact (h e he).1
    · exact (h e he).2

theorem forall_mem_insert (cells : Array Cell) {es : List (Part × Part)} {k v : Part}
    {P : Part → Prop} (h : ∀ e ∈ es, P e.1 ∧ P e.2) (hk : P k) (hv : P v) :
    ∀ e ∈ insert cells k v es, P e.1 ∧ P e.2 := by
  induction es with
  | nil => exact List.forall_mem_cons.mpr ⟨⟨hk, hv⟩, h⟩
  | cons e es ih =>
    obtain ⟨he, hes⟩ := List.forall_mem_cons.mp h
    rw [insert]
    split
    · exact List.forall_mem_cons.mpr ⟨⟨he.1, hv⟩, hes⟩
    · exact List.forall_mem_cons.mpr ⟨he, ih hes⟩

end Closed

mutual
/-- What is added has all its cells. -/
theorem closed_add {cells : Array Cell} (h : Closed cells) : ∀ v : Value,
    Closed (add cells v).1 ∧ (add cells v).2.Within (add cells v).1.size
  | .list items => by
    obtain ⟨hclosed, hitems⟩ := closed_addAll h items
    exact ⟨hclosed.push hitems, by simp [add, Graph.push, Part.Within]⟩
  | .set members => by
    obtain ⟨hclosed, hmembers⟩ := closed_addAll h members
    exact ⟨hclosed.push hmembers, by simp [add, Graph.push, Part.Within]⟩
  | .map entries => by
    obtain ⟨hclosed, hentries⟩ := closed_addEntries h entries
    exact ⟨hclosed.push (forall_mem_parts_map.mpr hentries), by simp [add, Graph.push, Part.Within]⟩
  | .pair a b => by
    obtain ⟨ha, hpart⟩ := closed_add h a
    obtain ⟨hb, hpart'⟩ := closed_add ha b
    obtain ⟨_, _, _, hgrown⟩ := add_spec (add cells a).1 b
    have hparts : ∀ q ∈ (Cell.pair (add cells a).2 (add (add cells a).1 b).2).parts,
        q.Within (add (add cells a).1 b).1.size :=
      List.forall_mem_cons.mpr ⟨hpart.mono hgrown.size, List.forall_mem_singleton.mpr hpart'⟩
    exact ⟨hb.push hparts, by simp [add, Graph.push, Part.Within]⟩
  | .date d => ⟨h.push (by simp [Cell.parts]), by simp [add, Graph.push, Part.Within]⟩
  | .moment m => ⟨h.push (by simp [Cell.parts]), by simp [add, Graph.push, Part.Within]⟩
  | .null | .bool _ | .int _ | .float _ | .text _ | .bytes _ | .enclosing _ => ⟨h, trivial⟩

theorem closed_addAll {cells : Array Cell} (h : Closed cells) : ∀ vs : List Value,
    Closed (addAll cells vs).1 ∧ ∀ q ∈ (addAll cells vs).2, q.Within (addAll cells vs).1.size
  | [] => ⟨h, by simp [addAll]⟩
  | v :: vs => by
    obtain ⟨hv, hpart⟩ := closed_add h v
    obtain ⟨hvs, hparts⟩ := closed_addAll hv vs
    obtain ⟨_, _, _, hgrown⟩ := addAll_spec (add cells v).1 vs
    exact ⟨hvs, List.forall_mem_cons.mpr ⟨hpart.mono hgrown.size, hparts⟩⟩

theorem closed_addEntries {cells : Array Cell} (h : Closed cells) : ∀ es : List (Value × Value),
    Closed (addEntries cells es).1 ∧
      ∀ e ∈ (addEntries cells es).2, e.1.Within (addEntries cells es).1.size ∧
      e.2.Within (addEntries cells es).1.size
  | [] => ⟨h, by simp [addEntries]⟩
  | (k, v) :: es => by
    obtain ⟨hk, hkey⟩ := closed_add h k
    obtain ⟨hv, hvalue⟩ := closed_add hk v
    obtain ⟨hes, hparts⟩ := closed_addEntries hv es
    obtain ⟨_, _, _, hgrown⟩ := add_spec (add cells k).1 v
    obtain ⟨_, _, _, hgrown'⟩ := addEntries_spec (add (add cells k).1 v).1 es
    refine ⟨hes, List.forall_mem_cons.mpr ⟨⟨?_, hvalue.mono hgrown'.size⟩, hparts⟩⟩
    exact hkey.mono (Nat.le_trans hgrown.size hgrown'.size)
end

/-- Parts have their cells, and data of a caller get them. -/
theorem place_spec (cells : Array Cell) (v : Given) :
    cells.size ≤ (v.place cells).1.size ∧ ∀ q < cells.size, (v.place cells).1[q]? = cells[q]? := by
  cases v with
  | new a =>
    obtain ⟨_, _, _, hgrown⟩ := add_spec cells a
    exact ⟨hgrown.size, hgrown.old⟩
  | live part => exact ⟨Nat.le_refl _, fun _ _ => rfl⟩

private theorem closed_place {cells : Array Cell} (h : Closed cells) {v : Given}
    (hv : v.Within cells.size) :
    Closed (v.place cells).1 ∧ (v.place cells).2.Within (v.place cells).1.size := by
  cases v with
  | new a => exact closed_add h a
  | live part => exact ⟨h, hv⟩

section Whole

variable {g g' : Graph} {target v : Part} {k : Value}

/-- To assign a part replaces one cell by one with no other parts than before, the new one and the
key. A mapping is replaced by a mapping. -/
theorem exists_of_assign (h : g.assign target k v = .ok g') :
    ∃ p c c', target = .cell p ∧ g.cells[p]? = some c ∧ g' = ⟨g.cells.setIfInBounds p c', g.root⟩ ∧
      (∀ q ∈ c'.parts, q ∈ c.parts ∨ q = v ∨ q = .plain k) ∧ ∀ es, c = .map es →
      ∃ es', c' = .map es' := by
  cases target with
  | plain w => cases h
  | cell p =>
    have hlook : cell? g.cells (.cell p) = g.cells[p]? := rfl
    unfold Graph.assign at h
    rw [hlook] at h
    cases hcell : g.cells[p]? with
    | none => simp [hcell] at h
    | some c =>
      cases c with
      | map entries =>
        simp only [hcell] at h
        by_cases hk : k.isKey
        · rw [if_pos hk] at h
          cases h
          have hold : ∀ q ∈ (Cell.map entries).parts, q ∈ (Cell.map entries).parts ∨ q = v ∨
              q = .plain k :=
            fun q hq => .inl hq
          have hnew :=
            forall_mem_insert g.cells (k := .plain k) (v := v) (forall_mem_parts_map.mp hold)
              (.inr (.inr rfl)) (.inr (.inl rfl))
          exact ⟨p, _, _, rfl, hcell, rfl, forall_mem_parts_map.mpr hnew, fun _ _ => ⟨_, rfl⟩⟩
        · rw [if_neg hk] at h
          cases h
      | list items =>
        simp only [hcell] at h
        cases hn : k.int? with
        | none => simp [hn] at h
        | some n =>
          cases hi : position? items.length n with
          | none => simp [hn, hi] at h
          | some i =>
            simp only [hn, hi, Except.ok.injEq] at h
            refine ⟨p, _, _, rfl, hcell, h.symm, fun q hq => ?_, nofun⟩
            exact (List.mem_or_eq_of_mem_set hq).imp_right .inl
      | _ => simp [hcell] at h

private theorem size_of_assign (h : g.assign target k v = .ok g') :
    g'.cells.size = g.cells.size := by
  obtain ⟨p, c, c', -, -, rfl, -, -⟩ := exists_of_assign h
  exact Array.size_setIfInBounds

private theorem root_of_assign (h : g.assign target k v = .ok g') : g'.root = g.root := by
  obtain ⟨p, c, c', -, -, rfl, -, -⟩ := exists_of_assign h
  rfl

theorem Closed.assign (h : Closed g.cells) (hv : v.Within g.cells.size)
    (hassign : g.assign target k v = .ok g') : Closed g'.cells := by
  obtain ⟨p, c, c', -, hcell, rfl, hparts, -⟩ := exists_of_assign hassign
  apply h.setIfInBounds p
  intro q hq
  rcases hparts q hq with hq | rfl | rfl
  · exact h p c hcell q hq
  · exact hv
  · trivial

theorem Whole.assign (h : g.Whole) (hv : v.Within g.cells.size)
    (hassign : g.assign target k v = .ok g') : g'.Whole := by
  refine ⟨h.closed.assign hv hassign, ?_⟩
  rw [root_of_assign hassign, size_of_assign hassign]
  exact h.root

/-- To set something is to assign it, after a new mapping was assigned for each key on the way that
has none. A change that fails is not made. -/
theorem set_induction {P : Graph → Prop} {v : Given}
    (hpush : ∀ (g g' : Graph) (target : Part) (k : Value), P g →
      assign ⟨g.cells.push (.map []), g.root⟩ target k (.cell g.cells.size) = .ok g' → P g')
    (hplace : ∀ (g g' : Graph) (target : Part) (k : Value), P g →
      assign ⟨(v.place g.cells).1, g.root⟩ target k (v.place g.cells).2 = .ok g' → P g')
    (h : P g) (target : Part) (k : Value) (rest : List Value) : P (g.set target k v rest).1 := by
  induction rest generalizing g target k with
  | nil =>
    rw [Graph.set]
    cases hassign : Graph.assign ⟨(v.place g.cells).1, g.root⟩ target k (v.place g.cells).2 with
    | ok g' => simpa only [hassign] using hplace g g' target k h hassign
    | error f => simpa only [hassign] using h
  | cons next rest ih =>
    rw [Graph.set]
    cases hmember : g.member? target k with
    | error f => exact h
    | ok inner =>
      cases inner with
      | some inner => exact ih h inner next
      | none =>
        dsimp only [Graph.push]
        cases hassign : Graph.assign ⟨g.cells.push (.map []), g.root⟩ target k
          (.cell g.cells.size) with
        | ok g' => exact ih (hpush g g' target k h hassign) _ next
        | error f => exact h

theorem Whole.set (h : g.Whole) (target : Part) (k : Value) {v : Given} (hv : v.Within g.cells.size)
    (rest : List Value) : (g.set target k v rest).1.Whole := by
  have hboth : (g.set target k v rest).1.Whole ∧ v.Within (g.set target k v rest).1.cells.size := by
    refine set_induction (P := fun g => g.Whole ∧ v.Within g.cells.size) ?_ ?_ ⟨h, hv⟩ target k rest
    · intro g g' target k hg hassign
      have hpushed : Whole ⟨g.cells.push (.map []), g.root⟩ :=
        ⟨hg.1.closed.push (by simp [Cell.parts]), hg.1.root.mono (by simp)⟩
      refine ⟨hpushed.assign (by simp [Part.Within]) hassign, ?_⟩
      rw [size_of_assign hassign]
      exact hg.2.mono (by simp)
    · intro g g' target k hg hassign
      obtain ⟨hclosed, hpart⟩ := closed_place hg.1.closed hg.2
      have hsize := (place_spec g.cells v).1
      have hplaced : Whole ⟨(v.place g.cells).1, g.root⟩ := ⟨hclosed, hg.1.root.mono hsize⟩
      refine ⟨hplaced.assign hpart hassign, ?_⟩
      rw [size_of_assign hassign]
      exact hg.2.mono hsize
  exact hboth.1

end Whole

section Mappings

variable {g g' : Graph} {part : Part}

theorem isSome_entries?_of_old {cells cells' : Array Cell}
    (hold : ∀ q < cells.size, cells'[q]? = cells[q]?) (h : (entries? cells part).isSome) :
    (entries? cells' part).isSome := by
  obtain ⟨es, hes⟩ := Option.isSome_iff_exists.mp h
  obtain ⟨p, rfl, hcell⟩ := exists_cell_of_entries? hes
  rw [entries?_of_cell ((hold p (Array.getElem?_eq_some_iff.mp hcell).1).trans hcell)]
  rfl

theorem isSome_entries?_of_assign {target v : Part} {k : Value}
    (hassign : g.assign target k v = .ok g') (h : (entries? g.cells part).isSome) :
    (entries? g'.cells part).isSome := by
  obtain ⟨es, hes⟩ := Option.isSome_iff_exists.mp h
  obtain ⟨q, rfl, hcell⟩ := exists_cell_of_entries? hes
  obtain ⟨p, c, c', -, hp, rfl, -, hmap⟩ := exists_of_assign hassign
  by_cases hq : p = q
  · subst hq
    obtain ⟨es', rfl⟩ := hmap es (Option.some.inj (hp.symm.trans hcell))
    have hsize := (Array.getElem?_eq_some_iff.mp hcell).1
    rw [entries?_of_cell (Array.getElem?_setIfInBounds_self_of_lt hsize)]
    rfl
  · rw [entries?_of_cell ((Array.getElem?_setIfInBounds_ne hq).trans hcell)]
    rfl

/-- The root stays, and mappings stay mappings. -/
theorem mappings_set (g : Graph) (target : Part) (k : Value) (v : Given) (rest : List Value) :
    (g.set target k v rest).1.root = g.root ∧
      ∀ part, (entries? g.cells part).isSome →
      (entries? (g.set target k v rest).1.cells part).isSome := by
  refine set_induction (P := fun g' => g'.root = g.root ∧
    ∀ part, (entries? g.cells part).isSome → (entries? g'.cells part).isSome) ?_ ?_
    ⟨rfl, fun _ h => h⟩ target k rest
  · rintro g₁ g₂ target k ⟨hroot, hmappings⟩ hassign
    have hgrown := (Grown.nil g₁.cells).push (.map [])
    refine ⟨(root_of_assign hassign).trans hroot, fun part h => ?_⟩
    exact isSome_entries?_of_assign hassign (isSome_entries?_of_old hgrown.old (hmappings part h))
  · rintro g₁ g₂ target k ⟨hroot, hmappings⟩ hassign
    have hold := (place_spec g₁.cells v).2
    refine ⟨(root_of_assign hassign).trans hroot, fun part h => ?_⟩
    exact isSome_entries?_of_assign hassign (isSome_entries?_of_old hold (hmappings part h))

end Mappings

structure WholeMapping (g : Graph) : Prop extends Whole g where
  mapping : (entries? g.cells g.root).isSome

theorem wholeMapping_empty : empty.WholeMapping :=
  ⟨whole_empty, rfl⟩

end Graph
end ThemedCss.Data
