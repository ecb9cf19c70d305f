import ThemedCss.Proofs.Data.Layout

/-! Routes through a graph. The value of a part, and what is found behind keys in it, depend only on
the cells it leads to. -/
namespace ThemedCss.Data

namespace Cell

/-- The parts of a cell. The keys of a mapping come before what stands behind them. -/
def parts : Cell → List Part
  | lone _ => []
  | list items => items
  | pair a b => [a, b]
  | set members => members
  | map entries => entries.map (·.1) ++ entries.map (·.2)

theorem value_congr {c : Cell} {f f' : Part → Value} (h : ∀ q ∈ c.parts, f q = f' q) :
    c.value f = c.value f' := by
  cases c with
  | lone v => rfl
  | list items => exact congrArg Value.list (List.map_congr_left h)
  | pair a b =>
    have ha : f a = f' a := h a List.mem_cons_self
    have hb : f b = f' b := h b (List.mem_cons_of_mem _ List.mem_cons_self)
    rw [value, value, ha, hb]
  | set members => exact congrArg Value.set (List.map_congr_left h)
  | map entries =>
    have hentries : ∀ e ∈ entries, (f e.1, f e.2) = (f' e.1, f' e.2) := by
      intro e he
      rw [h e.1 (List.mem_append_left _ (List.mem_map_of_mem he)),
        h e.2 (List.mem_append_right _ (List.mem_map_of_mem he))]
    rw [value, value, List.map_congr_left hentries]

/-- What stands behind a key comes as far after the keys as the key after the first one. -/
theorem parts_map_value {entries : List (Part × Part)} {e : Part × Part} {i : Nat}
    (h : entries[i]? = some e) : (map entries).parts[entries.length + i]? = some e.2 := by
  rw [parts, List.getElem?_append_right (by simp), List.length_map, Nat.add_sub_cancel_left,
    List.getElem?_map, h]
  rfl

end Cell

namespace Graph

/-- The way from a part to one inside it, by the positions to take in each cell. -/
inductive Route (cells : Array Cell) : Part → List Nat → Part → Prop
  | here (part : Part) : Route cells part [] part
  | into {p i : Nat} {c : Cell} {next last : Part} {route : List Nat} (hcell : cells[p]? = some c)
      (hnext : c.parts[i]? = some next) (hrest : Route cells next route last) :
        Route cells (.cell p) (i :: route) last

def Leads (cells : Array Cell) (part last : Part) : Prop :=
  ∃ route, Route cells part route last

section Leads

variable {cells cells' : Array Cell} {part last : Part} {p : Nat} {c : Cell}

theorem Leads.refl (cells : Array Cell) (part : Part) : Leads cells part part :=
  ⟨[], .here part⟩

theorem Leads.into {next : Part} (hcell : cells[p]? = some c) (hnext : next ∈ c.parts)
    (h : Leads cells next last) : Leads cells (.cell p) last := by
  obtain ⟨i, hi⟩ := List.getElem?_of_mem hnext
  obtain ⟨route, hroute⟩ := h
  exact ⟨i :: route, .into hcell hi hroute⟩

/-- All cells that a part leads to are the same in both arrays. -/
def SameFrom (cells cells' : Array Cell) (part : Part) : Prop :=
  ∀ p, Leads cells part (.cell p) → cells'[p]? = cells[p]?

theorem SameFrom.at (h : SameFrom cells cells' (.cell p)) : cells'[p]? = cells[p]? :=
  h p (.refl cells _)

theorem SameFrom.into {next : Part} (h : SameFrom cells cells' (.cell p))
    (hcell : cells[p]? = some c) (hnext : next ∈ c.parts) : SameFrom cells cells' next :=
  fun q hq => h q (hq.into hcell hnext)

theorem SameFrom.cell? (h : SameFrom cells cells' part) : cell? cells' part = cell? cells part := by
  cases part with
  | plain v => rfl
  | cell p => exact h.at

theorem SameFrom.lone? (h : SameFrom cells cells' part) : lone? cells' part = lone? cells part := by
  cases part with
  | plain v => rfl
  | cell p => simp only [Graph.lone?, h.at]

theorem SameFrom.entries? (h : SameFrom cells cells' part) :
    entries? cells' part = entries? cells part := by
  rw [Graph.entries?, Graph.entries?, h.cell?]

end Leads

section Values

variable {cells cells' : Array Cell} {part : Part}

private theorem valueOf_congr (h : SameFrom cells cells' part) (bound : Nat) (around : List Nat) :
    valueOf cells' bound around part = valueOf cells bound around part := by
  induction bound generalizing part around with
  | zero => cases part <;> rfl
  | succ bound ih =>
    cases part with
    | plain v => rfl
    | cell p =>
      rw [valueOf, valueOf, h.at]
      cases hcell : cells[p]? with
      | none => rfl
      | some c =>
        have hinner : c.value (valueOf cells' bound (p :: around)) =
            c.value (valueOf cells bound (p :: around)) :=
          Cell.value_congr fun q hq => ih (h.into hcell hq) _
        simp only [hinner]

/-- A larger bound changes nothing: the collections around a part have places of their own. -/
theorem valueOf_of_le {bound bound' : Nat} {around : List Nat} (hnodup : around.Nodup)
    (hlt : ∀ p ∈ around, p < cells.size) (hbound : cells.size < bound + around.length)
    (hle : bound ≤ bound') (part : Part) :
    valueOf cells bound' around part = valueOf cells bound around part := by
  induction bound generalizing bound' around part with
  | zero =>
    have hlength := length_le_of_nodup hnodup hlt
    omega
  | succ bound ih =>
    obtain ⟨bound', rfl⟩ : ∃ n, bound' = n + 1 := ⟨bound' - 1, by omega⟩
    cases part with
    | plain v => rfl
    | cell p =>
      rw [valueOf, valueOf]
      cases hcell : cells[p]? with
      | none => rfl
      | some c =>
        by_cases hp : p ∈ around
        · simp only [List.contains_iff_mem.mpr hp, if_true]
        · have hsize : p < cells.size := (Array.getElem?_eq_some_iff.mp hcell).1
          have hinner : c.value (valueOf cells bound' (p :: around)) =
              c.value (valueOf cells bound (p :: around)) := by
            apply Cell.value_congr
            intro q _
            apply ih (List.nodup_cons.mpr ⟨hp, hnodup⟩)
            · exact List.forall_mem_cons.mpr ⟨hsize, hlt⟩
            · rw [List.length_cons]
              omega
            · omega
          simp only [hinner]

theorem value_congr {g g' : Graph} (hsize : g.cells.size ≤ g'.cells.size)
    (h : SameFrom g.cells g'.cells part) : g'.value part = g.value part := by
  rw [value, value, valueOf_congr h]
  exact valueOf_of_le List.nodup_nil (by simp) (by simp) (by omega) part

end Values

section Keys

variable {cells cells' : Array Cell} {k : String} {t : Part} {es : List (Part × Part)}

/-- A part is a text as a key if it is that text, or a cell that holds it. -/
theorem sameKey_text {part : Part} :
    sameKey cells part (.plain (.text k)) = true ↔ lone? cells part = some (.text k) := by
  cases part with
  | plain v =>
    rw [sameKey, Value.sameKey_text, lone?, Option.some.injEq]
  | cell p =>
    simp only [sameKey]
    cases hlone : lone? cells (.cell p) with
    | none => simp
    | some v => cases v <;> simp [Value.sameKey, Value.int?]

theorem sameKey_congr {part : Part} (h : lone? cells' part = lone? cells part) :
    sameKey cells' part (.plain (.text k)) = sameKey cells part (.plain (.text k)) := by
  rw [Bool.eq_iff_iff, sameKey_text, sameKey_text, h]

theorem find?_congr (h : ∀ e ∈ es, lone? cells' e.1 = lone? cells e.1) :
    find? cells' (.plain (.text k)) es = find? cells (.plain (.text k)) es := by
  induction es with
  | nil => rfl
  | cons e es ih =>
    obtain ⟨he, hes⟩ := List.forall_mem_cons.mp h
    rw [find?, find?, sameKey_congr he, ih hes]

theorem insert_congr (h : ∀ e ∈ es, lone? cells' e.1 = lone? cells e.1) :
    insert cells' (.plain (.text k)) t es = insert cells (.plain (.text k)) t es := by
  induction es with
  | nil => rfl
  | cons e es ih =>
    obtain ⟨he, hes⟩ := List.forall_mem_cons.mp h
    rw [insert, insert, sameKey_congr he, ih hes]

theorem find?_insert_self (cells : Array Cell) (k : String) (t : Part) (es : List (Part × Part)) :
    find? cells (.plain (.text k)) (insert cells (.plain (.text k)) t es) = some t := by
  induction es with
  | nil =>
    rw [insert, find?, if_pos (sameKey_text.mpr rfl)]
  | cons e es ih =>
    rw [insert]
    by_cases he : sameKey cells e.1 (.plain (.text k))
    · rw [if_pos he, find?, if_pos he]
    · rw [if_neg he, find?, if_neg he, ih]

theorem find?_insert_of_ne {x : String} (hne : x ≠ k) :
    find? cells (.plain (.text x)) (insert cells (.plain (.text k)) t es) =
      find? cells (.plain (.text x)) es := by
  have hother : ∀ part, sameKey cells part (.plain (.text k)) →
      ¬sameKey cells part (.plain (.text x)) := by
    intro part hk hx
    rw [sameKey_text] at hk hx
    exact hne (Value.text.inj (Option.some.inj (hx.symm.trans hk)))
  induction es with
  | nil =>
    have hself := hother (.plain (.text k)) (sameKey_text.mpr rfl)
    simp [insert, find?, hself]
  | cons e es ih =>
    rw [insert]
    by_cases he : sameKey cells e.1 (.plain (.text k))
    · rw [if_pos he, find?, if_neg (hother _ he), find?, if_neg (hother _ he)]
    · rw [if_neg he, find?, find?, ih]

/-- Where the entry of a key stands. -/
theorem exists_of_find? (h : find? cells (.plain (.text k)) es = some t) :
    ∃ (i : Nat) (e : Part × Part), es[i]? = some e ∧ e.2 = t ∧
      lone? cells e.1 = some (.text k) := by
  induction es with
  | nil => cases h
  | cons e es ih =>
    rw [find?] at h
    by_cases he : sameKey cells e.1 (.plain (.text k))
    · rw [if_pos he] at h
      exact ⟨0, e, rfl, Option.some.inj h, sameKey_text.mp he⟩
    · rw [if_neg he] at h
      obtain ⟨i, f, hf, ht, hkey⟩ := ih h
      exact ⟨i + 1, f, hf, ht, hkey⟩

end Keys

section Get

variable {g g' : Graph} {part : Part} {p : Nat} {k : String} {t : Part} {es : List (Part × Part)}

theorem entries?_of_cell {cells : Array Cell} (h : cells[p]? = some (.map es)) :
    entries? cells (.cell p) = some es := by
  have hcell : cell? cells (.cell p) = some (.map es) := h
  rw [entries?, hcell]

theorem exists_cell_of_entries? {cells : Array Cell} (h : entries? cells part = some es) :
    ∃ p, part = .cell p ∧ cells[p]? = some (.map es) := by
  cases part with
  | plain v => cases h
  | cell p =>
    refine ⟨p, rfl, ?_⟩
    rw [entries?, cell?] at h
    cases hcell : cells[p]? with
    | none => simp [hcell] at h
    | some c => cases c <;> simp_all

/-- To look behind a text needs a mapping, and goes on at what stands behind it. -/
theorem get?_cons (g : Graph) (part : Part) (k : String) (keys : List String) :
    g.get? part ((k :: keys).map .text) =
      match (entries? g.cells part).bind (find? g.cells (.plain (.text k))) with
      | some next => g.get? next (keys.map .text)
      | none => .ok none := by
  rw [List.map_cons, get?]
  cases entries? g.cells part with
  | none => rfl
  | some es => rfl

/-- The same part is found behind a chain of keys in two graphs, if any, and it has the same
value. -/
def SameFound (g g' : Graph) (part : Part) (keys : List String) : Prop :=
  ∃ found, g.get? part (keys.map .text) = .ok found ∧ g'.get? part (keys.map .text) = .ok found ∧
    found.map g'.value = found.map g.value

/-- What stands behind a chain of keys can be looked for in any graph with the same cells. -/
theorem sameFound_of_sameFrom (hsize : g.cells.size ≤ g'.cells.size)
    (h : SameFrom g.cells g'.cells part) (keys : List String) : SameFound g g' part keys := by
  induction keys generalizing part with
  | nil => exact ⟨some part, rfl, rfl, congrArg some (value_congr hsize h)⟩
  | cons k keys ih =>
    rw [SameFound, get?_cons, get?_cons, h.entries?]
    cases hes : entries? g.cells part with
    | none => exact ⟨none, rfl, rfl, rfl⟩
    | some es =>
      obtain ⟨p, rfl, hcell⟩ := exists_cell_of_entries? hes
      have hkeys : ∀ e ∈ es, lone? g'.cells e.1 = lone? g.cells e.1 := fun e he =>
        (h.into hcell (List.mem_append_left _ (List.mem_map_of_mem he))).lone?
      rw [Option.bind_some, Option.bind_some, find?_congr hkeys]
      cases hfind : find? g.cells (.plain (.text k)) es with
      | none => exact ⟨none, rfl, rfl, rfl⟩
      | some next =>
        obtain ⟨i, e, he, rfl, -⟩ := exists_of_find? hfind
        have hmem : e.2 ∈ (Cell.map es).parts := List.mem_of_getElem? (Cell.parts_map_value he)
        exact ih (h.into hcell hmem)

/-- To look behind texts never fails. -/
theorem exists_get? (g : Graph) (part : Part) (keys : List String) :
    ∃ found, g.get? part (keys.map .text) = .ok found := by
  have hsame : SameFound g g part keys :=
    sameFound_of_sameFrom (Nat.le_refl _) (fun _ _ => rfl) keys
  obtain ⟨found, h, -⟩ := hsame
  exact ⟨found, h⟩

end Get

end Graph
end ThemedCss.Data
