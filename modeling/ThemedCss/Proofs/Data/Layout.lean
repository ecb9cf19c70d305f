import Mathlib.Data.List.Perm.Subperm
import Mathlib.Data.List.Range
import ThemedCss.Data.Graph
import ThemedCss.Proofs.Data.Mapping

/-! Graphs without shared parts: what is set in one place is seen there and nowhere else. -/
namespace ThemedCss.Data

namespace Value

/-- Values that hold no others. -/
def isPlain : Value → Bool
  | .list _ | .pair .. | .set _ | .map _ => false
  | _ => true

end Value

/-- Data without shared parts, with a place for each cell. -/
inductive Layout where
  | plain (v : Value) (h : v.isPlain)
  | lone (place : Nat) (v : Value) (h : v.isPlain)
  | list (place : Nat) (items : List Layout)
  | pair (place : Nat) (first second : Layout)
  | set (place : Nat) (members : List Layout)
  | map (place : Nat) (entries : List (Layout × Layout))

namespace Layout

def part : Layout → Part
  | plain v _ => .plain v
  | lone p _ _ | list p _ | pair p _ _ | set p _ | map p _ => .cell p

def entries? : Layout → Option (List (Layout × Layout))
  | map _ es => some es
  | _ => none

def entryParts (es : List (Layout × Layout)) : List (Part × Part) :=
  es.map fun e => (e.1.part, e.2.part)

mutual
def value : Layout → Value
  | plain v _ | lone _ v _ => v
  | list _ items => .list (values items)
  | pair _ a b => .pair a.value b.value
  | set _ members => .set (values members)
  | map _ entries => .map (entryValues entries)

def values : List Layout → List Value
  | [] => []
  | t :: ts => t.value :: values ts

def entryValues : List (Layout × Layout) → List (Value × Value)
  | [] => []
  | (k, t) :: es => (k.value, t.value) :: entryValues es
end

mutual
def cells : Layout → List (Nat × Cell)
  | plain _ _ => []
  | lone p v _ => [(p, .lone v)]
  | list p items => (p, .list (items.map part)) :: cellsAll items
  | pair p a b => (p, .pair a.part b.part) :: (a.cells ++ b.cells)
  | set p members => (p, .set (members.map part)) :: cellsAll members
  | map p entries => (p, .map (entryParts entries)) :: entryCells entries

def cellsAll : List Layout → List (Nat × Cell)
  | [] => []
  | t :: ts => t.cells ++ cellsAll ts

def entryCells : List (Layout × Layout) → List (Nat × Cell)
  | [] => []
  | (k, t) :: es => k.cells ++ t.cells ++ entryCells es
end

theorem values_eq (ts : List Layout) : values ts = ts.map value := by
  induction ts with
  | nil => rfl
  | cons t ts ih => rw [values, List.map_cons, ih]

private theorem entryValues_eq (es : List (Layout × Layout)) :
    entryValues es = es.map fun e => (e.1.value, e.2.value) := by
  induction es with
  | nil => rfl
  | cons e es ih => rw [entryValues, List.map_cons, ih]

theorem entries?_value (t : Layout) : t.value.entries? = t.entries?.map entryValues := by
  cases t with
  | plain v hv | lone p v hv => cases v <;> first | rfl | cases hv
  | _ => rfl

theorem cells_sublist_cellsAll {t : Layout} {ts : List Layout} (h : t ∈ ts) :
    t.cells.Sublist (cellsAll ts) := by
  induction ts with
  | nil => cases h
  | cons s ts ih =>
    rw [cellsAll]
    rcases List.mem_cons.mp h with rfl | h
    · exact List.sublist_append_left _ _
    · exact (ih h).trans (List.sublist_append_right _ _)

private theorem cells_sublist_entryCells {e : Layout × Layout} {es : List (Layout × Layout)}
    (h : e ∈ es) : (e.1.cells ++ e.2.cells).Sublist (entryCells es) := by
  induction es with
  | nil => cases h
  | cons s es ih =>
    rw [entryCells]
    rcases List.mem_cons.mp h with rfl | h
    · exact List.sublist_append_left _ _
    · exact (ih h).trans (List.sublist_append_right _ _)

end Layout

/-- There are no more places than there is room for. -/
theorem length_le_of_nodup {places : List Nat} {n : Nat} (hnodup : places.Nodup)
    (hlt : ∀ p ∈ places, p < n) : places.length ≤ n := by
  have hsub : places ⊆ List.range n := fun p hp => List.mem_range.mpr (hlt p hp)
  have hle := (List.subperm_of_subset hnodup hsub).length_le
  rwa [List.length_range] at hle

/-- An array holds the given cells, each at a place of its own. -/
structure Held (cells : Array Cell) (l : List (Nat × Cell)) : Prop where
  held : ∀ e ∈ l, cells[e.1]? = some e.2
  nodup : (l.map (·.1)).Nodup

namespace Held

variable {cells : Array Cell} {l l' : List (Nat × Cell)}

theorem sublist (h : Held cells l) (hl : l'.Sublist l) : Held cells l' where
  held := fun e he => h.held e (hl.subset he)
  nodup := h.nodup.sublist (hl.map _)

theorem head {e : Nat × Cell} (h : Held cells (e :: l)) : cells[e.1]? = some e.2 :=
  h.held e List.mem_cons_self

theorem lt_size (h : Held cells l) {e : Nat × Cell} (he : e ∈ l) : e.1 < cells.size := by
  have hcell := h.held e he
  exact (Array.getElem?_eq_some_iff.mp hcell).1

theorem length_le (h : Held cells l) : l.length ≤ cells.size := by
  have hlt : ∀ p ∈ l.map (·.1), p < cells.size := by
    intro p hp
    obtain ⟨e, he, rfl⟩ := List.mem_map.mp hp
    exact h.lt_size he
  rw [← List.length_map]
  exact length_le_of_nodup h.nodup hlt

end Held

namespace Graph

variable {cells : Array Cell} {t : Layout}

/-- The value of a part whose cells are held, if no collection around it has one of its places. -/
theorem valueOf_part {bound : Nat} {around : List Nat} (h : Held cells t.cells)
    (hbound : t.cells.length ≤ bound) (haround : ∀ e ∈ t.cells, e.1 ∉ around) :
    valueOf cells bound around t.part = t.value := by
  induction bound generalizing t around with
  | zero =>
    cases t with
    | plain v hv => rfl
    | _ => simp [Layout.cells] at hbound
  | succ bound ih =>
    -- A part inside a cell has fewer cells, none of them at the place of the cell.
    have below {p : Nat} {c : Cell} {l : List (Nat × Cell)} (hcells : t.cells = (p, c) :: l)
        {s : Layout}
        (hs : s.cells.Sublist l) : valueOf cells bound (p :: around) s.part = s.value := by
      rw [hcells] at h hbound haround
      have hnodup := List.nodup_cons.mp h.nodup
      apply ih
      · exact h.sublist (hs.trans (List.sublist_cons_self _ _))
      · have hle := hs.length_le
        rw [List.length_cons] at hbound
        omega
      · intro e he hmem
        rcases List.mem_cons.mp hmem with heq | hmem
        · have hplace : e.1 ∈ l.map (·.1) := List.mem_map_of_mem (hs.subset he)
          exact hnodup.1 (heq ▸ hplace)
        · exact haround e (List.mem_cons_of_mem _ (hs.subset he)) hmem
    have outside {p : Nat} {c : Cell} {l : List (Nat × Cell)} (hcells : t.cells = (p, c) :: l) :
        valueOf cells (bound + 1) around (.cell p) =
          c.value (valueOf cells bound (p :: around)) := by
      rw [hcells] at h haround
      have hp : cells[p]? = some c := h.head
      have hnot : around.contains p = false := by simpa using haround _ List.mem_cons_self
      simp only [valueOf, hp, hnot, Bool.false_eq_true, if_false]
    cases t with
    | plain v hv => rfl
    | lone p v hv => exact outside rfl
    | list p items =>
      have hitems : ∀ s ∈ items, valueOf cells bound (p :: around) s.part = s.value :=
        fun s hs => below rfl (Layout.cells_sublist_cellsAll hs)
      rw [Layout.part, outside rfl, Layout.value, Layout.values_eq, Cell.value, List.map_map]
      exact congrArg Value.list (List.map_congr_left hitems)
    | set p members =>
      have hmembers : ∀ s ∈ members, valueOf cells bound (p :: around) s.part = s.value :=
        fun s hs => below rfl (Layout.cells_sublist_cellsAll hs)
      rw [Layout.part, outside rfl, Layout.value, Layout.values_eq, Cell.value, List.map_map]
      exact congrArg Value.set (List.map_congr_left hmembers)
    | pair p a b =>
      have ha : valueOf cells bound (p :: around) a.part = a.value :=
        below rfl (List.sublist_append_left _ _)
      have hb : valueOf cells bound (p :: around) b.part = b.value :=
        below rfl (List.sublist_append_right _ _)
      rw [Layout.part, outside rfl, Layout.value, Cell.value, ha, hb]
    | map p entries =>
      have hentries : ∀ e ∈ entries, (valueOf cells bound (p :: around) e.1.part,
          valueOf cells bound (p :: around) e.2.part) = (e.1.value, e.2.value) := by
        intro e he
        have hsub := Layout.cells_sublist_entryCells he
        rw [below rfl ((List.sublist_append_left _ _).trans hsub),
          below rfl ((List.sublist_append_right _ _).trans hsub)]
      rw [Layout.part, outside rfl, Layout.value, Layout.entryValues_eq, Cell.value,
        Layout.entryParts, List.map_map]
      exact congrArg Value.map (List.map_congr_left hentries)

private theorem value_part {g : Graph} (h : Held g.cells t.cells) : g.value t.part = t.value := by
  apply valueOf_part h
  · have hle := h.length_le
    omega
  · intro e _
    exact List.not_mem_nil

/-- New cells stand behind the old ones, which stay. -/
structure Grown (cells cells' : Array Cell) (l : List (Nat × Cell)) : Prop where
  size : cells.size ≤ cells'.size
  old : ∀ q < cells.size, cells'[q]? = cells[q]?
  held : Held cells' l
  new : ∀ e ∈ l, cells.size ≤ e.1

theorem Grown.nil (cells : Array Cell) : Grown cells cells [] :=
  ⟨Nat.le_refl _, fun _ _ => rfl, ⟨by simp, List.nodup_nil⟩, by simp⟩

theorem Grown.append {cells₁ cells₂ : Array Cell} {l₁ l₂ : List (Nat × Cell)}
    (h₁ : Grown cells cells₁ l₁) (h₂ : Grown cells₁ cells₂ l₂) : Grown cells cells₂ (l₁ ++ l₂) := by
  have hsize := h₁.size
  refine ⟨by have := h₂.size; omega, ?old, ⟨?held, ?nodup⟩, ?new⟩
  case old =>
    intro q hq
    rw [h₂.old q (by omega), h₁.old q hq]
  case held =>
    intro e he
    rcases List.mem_append.mp he with he | he
    · rw [h₂.old e.1 (h₁.held.lt_size he), h₁.held.held e he]
    · exact h₂.held.held e he
  case nodup =>
    rw [List.map_append]
    refine List.nodup_append.mpr ⟨h₁.held.nodup, h₂.held.nodup, ?_⟩
    intro p hp q hq heq
    obtain ⟨e, he, rfl⟩ := List.mem_map.mp hp
    obtain ⟨f, hf, rfl⟩ := List.mem_map.mp hq
    have hlt := h₁.held.lt_size he
    have hle := h₂.new f hf
    omega
  case new =>
    intro e he
    rcases List.mem_append.mp he with he | he
    · exact h₁.new e he
    · have hle := h₂.new e he
      omega

theorem Grown.push {cells' : Array Cell} {l : List (Nat × Cell)} (h : Grown cells cells' l)
    (c : Cell) : Grown cells (cells'.push c) ((cells'.size, c) :: l) := by
  have hsize := h.size
  have hpush : ∀ q < cells'.size, (cells'.push c)[q]? = cells'[q]? := by
    intro q hq
    rw [Array.getElem?_push_lt hq, Array.getElem?_eq_getElem hq]
  refine ⟨by rw [Array.size_push]; omega, ?old, ⟨?held, ?nodup⟩, ?new⟩
  case old =>
    intro q hq
    rw [hpush q (by omega), h.old q hq]
  case held =>
    intro e he
    rcases List.mem_cons.mp he with rfl | he
    · exact Array.getElem?_push_size
    · rw [hpush e.1 (h.held.lt_size he), h.held.held e he]
  case nodup =>
    refine List.nodup_cons.mpr ⟨fun hmem => ?_, h.held.nodup⟩
    obtain ⟨e, he, heq⟩ := List.mem_map.mp hmem
    have hlt := h.held.lt_size he
    dsimp only at heq
    omega
  case new =>
    intro e he
    rcases List.mem_cons.mp he with rfl | he
    · exact hsize
    · exact h.new e he

mutual
/-- A value that is added has cells of its own. -/
theorem add_spec (cells : Array Cell) :
    ∀ v : Value, ∃ t : Layout, (add cells v).2 = t.part ∧ t.value = v ∧
    Grown cells (add cells v).1 t.cells
  | .list items => by
    obtain ⟨ts, hparts, hvalues, hgrown⟩ := addAll_spec cells items
    refine ⟨.list (addAll cells items).1.size ts, rfl, ?_, ?_⟩
    · rw [Layout.value, hvalues]
    · rw [Layout.cells, ← hparts]
      exact hgrown.push _
  | .set members => by
    obtain ⟨ts, hparts, hvalues, hgrown⟩ := addAll_spec cells members
    refine ⟨.set (addAll cells members).1.size ts, rfl, ?_, ?_⟩
    · rw [Layout.value, hvalues]
    · rw [Layout.cells, ← hparts]
      exact hgrown.push _
  | .map entries => by
    obtain ⟨es, hparts, hvalues, hgrown⟩ := addEntries_spec cells entries
    refine ⟨.map (addEntries cells entries).1.size es, rfl, ?_, ?_⟩
    · rw [Layout.value, hvalues]
    · rw [Layout.cells, ← hparts]
      exact hgrown.push _
  | .pair a b => by
    obtain ⟨s, hs, hsv, hsg⟩ := add_spec cells a
    obtain ⟨t, ht, htv, htg⟩ := add_spec (add cells a).1 b
    refine ⟨.pair (add (add cells a).1 b).1.size s t, rfl, ?_, ?_⟩
    · rw [Layout.value, hsv, htv]
    · rw [Layout.cells, ← hs, ← ht]
      exact (hsg.append htg).push _
  | .date d => ⟨.lone cells.size (.date d) rfl, rfl, rfl, (Grown.nil cells).push _⟩
  | .moment m => ⟨.lone cells.size (.moment m) rfl, rfl, rfl, (Grown.nil cells).push _⟩
  | .null => ⟨.plain .null rfl, rfl, rfl, .nil cells⟩
  | .bool b => ⟨.plain (.bool b) rfl, rfl, rfl, .nil cells⟩
  | .int n => ⟨.plain (.int n) rfl, rfl, rfl, .nil cells⟩
  | .float x => ⟨.plain (.float x) rfl, rfl, rfl, .nil cells⟩
  | .text s => ⟨.plain (.text s) rfl, rfl, rfl, .nil cells⟩
  | .bytes b => ⟨.plain (.bytes b) rfl, rfl, rfl, .nil cells⟩
  | .enclosing b => ⟨.plain (.enclosing b) rfl, rfl, rfl, .nil cells⟩

theorem addAll_spec (cells : Array Cell) : ∀ vs : List Value, ∃ ts : List Layout,
    (addAll cells vs).2 = ts.map Layout.part ∧ Layout.values ts = vs ∧
    Grown cells (addAll cells vs).1 (Layout.cellsAll ts)
  | [] => ⟨[], rfl, rfl, .nil cells⟩
  | v :: vs => by
    obtain ⟨t, hpart, hvalue, hgrown⟩ := add_spec cells v
    obtain ⟨ts, hparts, hvalues, hall⟩ := addAll_spec (add cells v).1 vs
    refine ⟨t :: ts, ?_, ?_, hgrown.append hall⟩
    · rw [addAll, List.map_cons, ← hpart, ← hparts]
    · rw [Layout.values, hvalue, hvalues]

theorem addEntries_spec (cells : Array Cell) :
    ∀ vs : List (Value × Value), ∃ es : List (Layout × Layout),
    (addEntries cells vs).2 = Layout.entryParts es ∧ Layout.entryValues es = vs ∧
      Grown cells (addEntries cells vs).1 (Layout.entryCells es)
  | [] => ⟨[], rfl, rfl, .nil cells⟩
  | (k, v) :: vs => by
    obtain ⟨s, hs, hsv, hsg⟩ := add_spec cells k
    obtain ⟨t, ht, htv, htg⟩ := add_spec (add cells k).1 v
    obtain ⟨es, hparts, hvalues, hall⟩ := addEntries_spec (add (add cells k).1 v).1 vs
    refine ⟨(s, t) :: es, ?_, ?_, (hsg.append htg).append hall⟩
    · rw [addEntries, Layout.entryParts, List.map_cons, ← hs, ← ht, ← Layout.entryParts, ← hparts]
    · rw [Layout.entryValues, hsv, htv, hvalues]
end

end Graph

namespace Layout

def isKey (k : String) (t : Layout) : Bool :=
  Value.sameKey t.value (.text k)

def find? (k : String) : List (Layout × Layout) → Option Layout
  | [] => none
  | (k', t) :: es => if k'.isKey k then some t else find? k es

/-- Set what stands behind a key, as in a mapping. -/
def insert (k : String) (t : Layout) : List (Layout × Layout) → List (Layout × Layout)
  | [] => [(.plain (.text k) rfl, t)]
  | (k', t') :: es => if k'.isKey k then (k', t) :: es else (k', t') :: insert k t es

variable {k : String} {t t' : Layout} {es : List (Layout × Layout)} {cells : Array Cell}

theorem entryValues_insert :
    entryValues (insert k t es) = Value.insert (.text k) t.value (entryValues es) := by
  induction es with
  | nil => rfl
  | cons e es ih =>
    rw [insert, entryValues, Value.insert, ← isKey]
    by_cases h : e.1.isKey k
    · rw [if_pos h, if_pos h, entryValues]
    · rw [if_neg h, if_neg h, entryValues, ih]

theorem find?_entryValues : Value.find? (.text k) (entryValues es) = (find? k es).map value := by
  induction es with
  | nil => rfl
  | cons e es ih =>
    rw [find?, entryValues, Value.find?, ← isKey]
    by_cases h : e.1.isKey k
    · rw [if_pos h, if_pos h, Option.map_some]
    · rw [if_neg h, if_neg h, ih]

/-- Keys are compared by their values. -/
theorem sameKey_part (h : Held cells t.cells) :
    Graph.sameKey cells t.part (.plain (.text k)) = t.isKey k := by
  unfold isKey
  cases t with
  | plain v hv => rfl
  | lone p v hv =>
    have hp : Graph.lone? cells (.cell p) = some v := by
      rw [Graph.lone?, show cells[p]? = some (.lone v) from h.head]
    show Graph.sameKey cells (.cell p) (.plain (.text k)) = v.sameKey (.text k)
    simp only [Graph.sameKey, hp]
    cases v <;> simp [Value.sameKey, Value.int?]
  | list p _ | pair p _ _ | set p _ | map p _ =>
    have hp : Graph.lone? cells (.cell p) = none := by
      rw [Graph.lone?, show cells[p]? = some _ from h.head]
    show Graph.sameKey cells (.cell p) (.plain (.text k)) = false
    simp only [Graph.sameKey, hp]
    rfl

theorem find?_entryParts (h : Held cells (entryCells es)) :
    Graph.find? cells (.plain (.text k)) (entryParts es) = (find? k es).map part := by
  induction es with
  | nil => rfl
  | cons e es ih =>
    have hkey : Graph.sameKey cells e.1.part (.plain (.text k)) = e.1.isKey k :=
      sameKey_part (h.sublist ((List.sublist_append_left _ _).trans (List.sublist_append_left _ _)))
    have hrest : Held cells (entryCells es) := h.sublist (List.sublist_append_right _ _)
    rw [find?, entryParts, List.map_cons, Graph.find?, hkey]
    by_cases hk : e.1.isKey k
    · rw [if_pos hk, if_pos hk, Option.map_some]
    · rw [if_neg hk, if_neg hk, ← ih hrest, entryParts]

private theorem insert_entryParts (h : Held cells (entryCells es)) :
    Graph.insert cells (.plain (.text k)) t.part (entryParts es) = entryParts (insert k t es) := by
  induction es with
  | nil => rfl
  | cons e es ih =>
    have hkey : Graph.sameKey cells e.1.part (.plain (.text k)) = e.1.isKey k :=
      sameKey_part (h.sublist ((List.sublist_append_left _ _).trans (List.sublist_append_left _ _)))
    have hrest : Held cells (entryCells es) := h.sublist (List.sublist_append_right _ _)
    rw [insert, entryParts, List.map_cons, Graph.insert, hkey]
    by_cases hk : e.1.isKey k
    · rw [if_pos hk, if_pos hk, entryParts, List.map_cons]
    · rw [if_neg hk, if_neg hk, ← entryParts, ih hrest, entryParts, entryParts, List.map_cons]

/-- To put a layout with the same part behind a key changes no part of the mapping. -/
theorem entryParts_insert_of_part (h : find? k es = some t) (hpart : t'.part = t.part) :
    entryParts (insert k t' es) = entryParts es := by
  induction es with
  | nil => cases h
  | cons e es ih =>
    rw [find?] at h
    rw [insert]
    by_cases hk : e.1.isKey k
    · rw [if_pos hk] at h
      cases h
      rw [if_pos hk, entryParts, entryParts, List.map_cons, List.map_cons, hpart]
    · rw [if_neg hk] at h
      rw [if_neg hk, entryParts, List.map_cons, ← entryParts, ih h, entryParts, entryParts,
        List.map_cons]

theorem find?_insert : find? k (insert k t es) = some t := by
  induction es with
  | nil => simp [insert, find?, isKey, value, Value.sameKey, Value.int?]
  | cons e es ih =>
    rw [insert]
    by_cases h : e.1.isKey k
    · rw [if_pos h, find?, if_pos h]
    · rw [if_neg h, find?, if_neg h, ih]

theorem cells_sublist_of_find? (h : find? k es = some t) : t.cells.Sublist (entryCells es) := by
  induction es with
  | nil => cases h
  | cons e es ih =>
    rw [find?] at h
    rw [entryCells]
    by_cases hk : e.1.isKey k
    · rw [if_pos hk] at h
      cases h
      exact (List.sublist_append_right _ _).trans (List.sublist_append_left _ _)
    · rw [if_neg hk] at h
      exact (ih h).trans (List.sublist_append_right _ _)

theorem held_of_find? {p : Nat} (h : Held cells (map p es).cells) (hfind : find? k es = some t) :
    Held cells t.cells :=
  h.sublist ((cells_sublist_of_find? hfind).trans (List.sublist_cons_self _ _))

/-- The cells of what a key had before are gone. -/
theorem mem_entryCells_insert (h : ((entryCells es).map (·.1)).Nodup) {e : Nat × Cell}
    (he : e ∈ entryCells (insert k t es)) :
    e ∈ t.cells ∨ (e ∈ entryCells es ∧ ∀ t' ∈ find? k es, e.1 ∉ t'.cells.map (·.1)) := by
  induction es with
  | nil => exact .inl (by simpa [insert, entryCells, cells] using he)
  | cons f es ih =>
    rw [entryCells, List.map_append, List.map_append] at h
    obtain ⟨hhead, hrest, hdisjoint⟩ := List.nodup_append.mp h
    obtain ⟨_, _, hkv⟩ := List.nodup_append.mp hhead
    have hplace : ∀ {l : List (Nat × Cell)}, e ∈ l → e.1 ∈ l.map (·.1) :=
      fun h => List.mem_map_of_mem h
    rw [insert] at he
    rw [find?]
    by_cases hk : f.1.isKey k
    · rw [if_pos hk, entryCells] at he
      rw [if_pos hk]
      simp only [entryCells, List.mem_append, Option.mem_some_iff, forall_eq'] at he ⊢
      grind
    · rw [if_neg hk, entryCells] at he
      rw [if_neg hk]
      have hinside : ∀ t' ∈ find? k es, ∀ p ∈ t'.cells.map (·.1), p ∈ (entryCells es).map (·.1) :=
        fun t' ht' p hp => ((cells_sublist_of_find? ht').map _).subset hp
      simp only [entryCells, List.mem_append] at he ⊢
      grind

/-- Entries stay apart if what is put among them has no place of an entry but the one it
replaces. -/
theorem nodup_insert (h : ((entryCells es).map (·.1)).Nodup) (ht : (t.cells.map (·.1)).Nodup)
    (hapart : ∀ p ∈ t.cells.map (·.1), p ∈ (entryCells es).map (·.1) →
      ∃ t' ∈ find? k es, p ∈ t'.cells.map (·.1)) :
    ((entryCells (insert k t es)).map (·.1)).Nodup := by
  induction es with
  | nil => simpa [insert, entryCells, cells] using ht
  | cons e es ih =>
    rw [entryCells, List.map_append, List.map_append] at h
    obtain ⟨hhead, hrest, hdisjoint⟩ := List.nodup_append.mp h
    obtain ⟨hkey, hvalue, hkv⟩ := List.nodup_append.mp hhead
    rw [insert]
    by_cases hk : e.1.isKey k
    · rw [if_pos hk, entryCells, List.map_append, List.map_append]
      simp only [entryCells, find?, if_pos hk, Option.mem_some_iff, exists_eq_left'] at hapart
      refine List.nodup_append.mpr ⟨List.nodup_append.mpr ⟨hkey, ht, ?_⟩, hrest, ?_⟩
      · grind
      · grind
    · rw [if_neg hk, entryCells, List.map_append, List.map_append]
      simp only [entryCells, find?, if_neg hk] at hapart
      have hinside : ∀ t' ∈ find? k es, ∀ p ∈ t'.cells.map (·.1), p ∈ (entryCells es).map (·.1) :=
        fun t' ht' p hp => ((cells_sublist_of_find? ht').map _).subset hp
      refine List.nodup_append.mpr ⟨hhead, ih hrest ?_, ?_⟩
      · grind
      · intro p hp q hq heq
        obtain ⟨f, hf, rfl⟩ := List.mem_map.mp hq
        have hplace : ∀ {l : List (Nat × Cell)}, f ∈ l → f.1 ∈ l.map (·.1) :=
          fun h => List.mem_map_of_mem h
        rcases mem_entryCells_insert hrest hf with hf | hf
        · grind
        · grind

end Layout

namespace Graph

variable {cells cells' : Array Cell} {k : String} {p : Nat} {t : Layout}
  {es : List (Layout × Layout)}

/-- Where one layout takes the place of another, all cells elsewhere stay, and new ones stand behind
the old ones. -/
structure Changed (cells cells' : Array Cell) (old new : List (Nat × Cell)) : Prop where
  size : cells.size ≤ cells'.size
  frame : ∀ q < cells.size, q ∉ old.map (·.1) → cells'[q]? = cells[q]?
  held : Held cells' new
  places : ∀ q ∈ new.map (·.1), q ∈ old.map (·.1) ∨ cells.size ≤ q

/-- A mapping in which the value of a key is replaced by one that is held. -/
theorem changed_insert (h : Held cells (Layout.map p es).cells) (hsize : cells.size ≤ cells'.size)
    (hcell : cells'[p]? = some (.map (Layout.entryParts (Layout.insert k t es))))
    (hframe : ∀ q < cells.size, q ≠ p → (∀ t' ∈ Layout.find? k es, q ∉ t'.cells.map (·.1)) →
      cells'[q]? = cells[q]?)
    (ht : Held cells' t.cells)
    (hplaces : ∀ q ∈ t.cells.map (·.1), (∃ t' ∈ Layout.find? k es, q ∈ t'.cells.map (·.1)) ∨
      cells.size ≤ q) :
    Changed cells cells' (Layout.map p es).cells (Layout.map p (Layout.insert k t es)).cells := by
  rw [Layout.cells] at h ⊢
  rw [Layout.cells]
  obtain ⟨hp, hnodup⟩ := List.nodup_cons.mp h.nodup
  have hes : ∀ q ∈ (Layout.entryCells es).map (·.1), q < cells.size := by
    intro q hq
    obtain ⟨e, he, rfl⟩ := List.mem_map.mp hq
    exact h.lt_size (List.mem_cons_of_mem _ he)
  have hpsize : p < cells.size := h.lt_size List.mem_cons_self
  have hinside : ∀ t' ∈ Layout.find? k es, ∀ q ∈ t'.cells.map (·.1), q ∈
      (Layout.entryCells es).map (·.1) :=
    fun t' ht' q hq => ((Layout.cells_sublist_of_find? ht').map _).subset hq
  have hnew : ∀ q ∈ (Layout.entryCells (Layout.insert k t es)).map (·.1),
      q ∈ (Layout.entryCells es).map (·.1) ∨ cells.size ≤ q := by
    intro q hq
    obtain ⟨e, he, rfl⟩ := List.mem_map.mp hq
    rcases Layout.mem_entryCells_insert hnodup he with he | ⟨he, -⟩
    · rcases hplaces _ (List.mem_map_of_mem he) with ⟨t', ht', hq⟩ | hle
      · exact .inl (hinside t' ht' _ hq)
      · exact .inr hle
    · exact .inl (List.mem_map_of_mem he)
  refine ⟨hsize, ?frame, ⟨?held, ?nodup⟩, ?places⟩
  case frame =>
    intro q hq hnot
    rw [List.map_cons, List.mem_cons, not_or] at hnot
    exact hframe q hq hnot.1 fun t' ht' hmem => hnot.2 (hinside t' ht' q hmem)
  case held =>
    intro e he
    rcases List.mem_cons.mp he with rfl | he
    · exact hcell
    rcases Layout.mem_entryCells_insert hnodup he with he | ⟨he, hgone⟩
    · exact ht.held e he
    · have hmem : e.1 ∈ (Layout.entryCells es).map (·.1) := List.mem_map_of_mem he
      have hne : e.1 ≠ p := fun heq => hp (heq ▸ hmem)
      rw [hframe e.1 (h.lt_size (List.mem_cons_of_mem _ he)) hne hgone]
      exact h.held e (List.mem_cons_of_mem _ he)
  case nodup =>
    refine List.nodup_cons.mpr ⟨fun hmem => ?_, ?_⟩
    · rcases hnew p hmem with hmem | hle
      · exact hp hmem
      · omega
    · apply Layout.nodup_insert hnodup ht.nodup
      intro q hq hmem
      rcases hplaces q hq with hin | hle
      · exact hin
      · have hlt := hes q hmem
        omega
  case places =>
    intro q hq
    rw [List.map_cons, List.mem_cons] at hq ⊢
    rcases hq with rfl | hq
    · exact .inl (.inl rfl)
    · exact (hnew q hq).imp_left .inr

/-- To assign a new part to a key of a mapping sets the value of the key. -/
theorem assign_spec (h : Held cells (Layout.map p es).cells) (hg : Grown cells cells' t.cells)
    (root : Part) :
    ∃ cells'', assign ⟨cells', root⟩ (.cell p) (.text k) t.part = .ok ⟨cells'', root⟩ ∧
      Changed cells cells'' (Layout.map p es).cells
        (Layout.map p (Layout.insert k t es)).cells := by
  have hp : cells'[p]? = some (.map (Layout.entryParts es)) := by
    rw [hg.old p (h.lt_size List.mem_cons_self)]
    exact h.head
  have hsize := hg.size
  have hpsize : p < cells.size := h.lt_size List.mem_cons_self
  have hentries : Held cells' (Layout.entryCells es) := by
    refine ⟨fun e he => ?_, (List.nodup_cons.mp h.nodup).2⟩
    rw [hg.old e.1 (h.lt_size (List.mem_cons_of_mem _ he))]
    exact h.held e (List.mem_cons_of_mem _ he)
  refine ⟨cells'.setIfInBounds p (.map (Layout.entryParts (Layout.insert k t es))), ?_, ?_⟩
  · have hcell : cell? cells' (.cell p) = some (.map (Layout.entryParts es)) := hp
    simp only [assign, hcell, Value.isKey, if_true, Layout.insert_entryParts hentries]
  · have hother : ∀ q, q ≠ p →
        (cells'.setIfInBounds p (.map (Layout.entryParts (Layout.insert k t es))))[q]? =
          cells'[q]? :=
      fun q hq => Array.getElem?_setIfInBounds_ne (Ne.symm hq)
    apply changed_insert h
    · rw [Array.size_setIfInBounds]
      exact hsize
    · rw [Array.getElem?_setIfInBounds_self_of_lt (by omega)]
    · intro q hq hne _
      rw [hother q hne, hg.old q hq]
    · refine ⟨fun e he => ?_, hg.held.nodup⟩
      have hnew := hg.new e he
      rw [hother e.1 (by omega)]
      exact hg.held.held e he
    · intro q hq
      obtain ⟨e, he, rfl⟩ := List.mem_map.mp hq
      exact .inr (hg.new e he)

theorem Changed.trans {cells₁ cells₂ : Array Cell} {l l₁ l₂ : List (Nat × Cell)}
    (h₁ : Changed cells cells₁ l l₁) (h₂ : Changed cells₁ cells₂ l₁ l₂) :
    Changed cells cells₂ l l₂ := by
  have hsize := h₁.size
  refine ⟨by have := h₂.size; omega, ?frame, h₂.held, ?places⟩
  case frame =>
    intro q hq hnot
    have hmid : q ∉ l₁.map (·.1) := by
      intro hmem
      rcases h₁.places q hmem with hmem | hle
      · exact hnot hmem
      · omega
    rw [h₂.frame q (by omega) hmid, h₁.frame q hq hnot]
  case places =>
    intro q hq
    rcases h₂.places q hq with hmem | hle
    · exact h₁.places q hmem
    · exact .inr (by omega)

/-- A change inside a mapping inside a mapping. -/
theorem changed_inner {q : Nat} {inner inner' : List (Layout × Layout)}
    (h : Held cells (Layout.map p es).cells) (hfind : Layout.find? k es = some (.map q inner))
    (hchanged : Changed cells cells' (Layout.map q inner).cells (Layout.map q inner').cells) :
    Changed cells cells' (Layout.map p es).cells
      (Layout.map p (Layout.insert k (.map q inner') es)).cells := by
  have hpsize : p < cells.size := h.lt_size List.mem_cons_self
  have hnot : p ∉ (Layout.map q inner).cells.map (·.1) := fun hmem =>
    (List.nodup_cons.mp h.nodup).1 (((Layout.cells_sublist_of_find? hfind).map _).subset hmem)
  apply changed_insert h hchanged.size
  · have hparts : Layout.entryParts (Layout.insert k (.map q inner') es) = Layout.entryParts es :=
      Layout.entryParts_insert_of_part hfind rfl
    rw [hchanged.frame p hpsize hnot, hparts]
    exact h.head
  · intro q' hq' _ hgone
    exact hchanged.frame q' hq' (hgone _ hfind)
  · exact hchanged.held
  · intro q' hq'
    exact (hchanged.places q' hq').imp_left fun hmem => ⟨_, hfind, hmem⟩

theorem entries?_part (h : Held cells t.cells) :
    entries? cells t.part = t.entries?.map Layout.entryParts := by
  cases t with
  | plain v hv => rfl
  | lone p _ _ | list p _ | pair p _ _ | set p _ | map p _ =>
    show entries? cells (.cell p) = _
    rw [entries?, show cell? cells (.cell p) = some _ from h.head]
    rfl

theorem member?_of_cell (g : Graph) {part : Part} {entries : List (Part × Part)}
    (h : cell? g.cells part = some (.map entries)) :
    g.member? part (.text k) =
      .ok ((find? g.cells (.plain (.text k)) entries).bind fun q =>
        (entries? g.cells q).map fun _ => q) := by
  simp only [member?, h, Value.isKey, if_true]
  rfl

/-- The mapping that is behind a key of a mapping, if there is one. -/
theorem member?_spec (g : Graph) (h : Held g.cells (Layout.map p es).cells) :
    g.member? (.cell p) (.text k) =
      .ok ((Layout.find? k es).bind fun t => t.entries?.map fun _ => t.part) := by
  have hcell : cell? g.cells (.cell p) = some (.map (Layout.entryParts es)) := h.head
  have hentries : Held g.cells (Layout.entryCells es) := h.sublist (List.sublist_cons_self _ _)
  rw [member?_of_cell g hcell, Layout.find?_entryParts hentries]
  cases hk : Layout.find? k es with
  | none => rfl
  | some t =>
    simp only [Option.map_some, Option.bind_some, entries?_part (Layout.held_of_find? h hk),
      Option.map_map]
    rfl

/-- To set a value behind a chain of keys puts it there and changes nothing else. -/
theorem set_spec (g : Graph) (h : Held g.cells (Layout.map p es).cells) (v : Value)
    (rest : List String) :
    ∃ cells' es', g.set (.cell p) (.text k) (.new v) (rest.map .text) = (⟨cells', g.root⟩, none) ∧
      Changed g.cells cells' (Layout.map p es).cells (Layout.map p es').cells ∧
      Layout.entryValues es' = Value.put v (k :: rest) (Layout.entryValues es) := by
  induction rest generalizing g p k es with
  | nil =>
    obtain ⟨t, hpart, hvalue, hgrown⟩ := add_spec g.cells v
    obtain ⟨cells', hassign, hchanged⟩ := assign_spec (k := k) h hgrown g.root
    refine ⟨cells', Layout.insert k t es, ?_, hchanged, ?_⟩
    · simp only [List.map_nil, set, Given.place, hpart, hassign]
    · rw [Layout.entryValues_insert, hvalue, Value.put]
  | cons next rest ih =>
    have hmember := member?_spec (k := k) g h
    by_cases hmap : ∃ q inner, Layout.find? k es = some (.map q inner)
    · obtain ⟨q, inner, hfind⟩ := hmap
      obtain ⟨cells', inner', hset, hchanged, hvalues⟩ :=
        ih (k := next) g (Layout.held_of_find? h hfind)
      refine ⟨cells', Layout.insert k (.map q inner') es, ?_, changed_inner h hfind hchanged, ?_⟩
      · rw [hfind] at hmember
        simp only [List.map_cons, set, hmember]
        exact hset
      · have hentries : ((Value.find? (.text k) (Layout.entryValues es)).bind Value.entries?).getD
            [] = Layout.entryValues inner := by
          rw [Layout.find?_entryValues, hfind, Option.map_some, Option.bind_some,
            Layout.entries?_value]
          rfl
        rw [Layout.entryValues_insert, Layout.value, hvalues, Value.put, hentries]
    · -- A new mapping takes the place of what stands in the way.
      obtain ⟨cells₁, hassign, hchanged₁⟩ := assign_spec (k := k) (t := .map g.cells.size []) h
        ((Grown.nil g.cells).push (.map [])) g.root
      have hfind : Layout.find? k (Layout.insert k (.map g.cells.size []) es) =
          some (.map g.cells.size []) :=
        Layout.find?_insert
      have hinner := Layout.held_of_find? hchanged₁.held hfind
      obtain ⟨cells', inner', hset, hchanged, hvalues⟩ := ih (k := next) ⟨cells₁, g.root⟩ hinner
      have hnone : ∀ t ∈ Layout.find? k es, t.entries? = none := by
        intro t ht
        cases t with
        | map q inner => exact absurd ⟨q, inner, ht⟩ hmap
        | _ => rfl
      refine ⟨cells', _, ?_, hchanged₁.trans (changed_inner hchanged₁.held hfind hchanged), ?_⟩
      · have hbind : ((Layout.find? k es).bind fun t => t.entries?.map fun _ => t.part) = none := by
          rw [Option.bind_eq_none_iff]
          intro t ht
          rw [hnone t ht, Option.map_none]
        rw [hbind] at hmember
        simp only [Layout.part] at hassign
        simp only [List.map_cons, set, hmember, push, hassign]
        exact hset
      · have hentries : (Value.find? (.text k) (Layout.entryValues es)).bind Value.entries? =
            none := by
          rw [Layout.find?_entryValues, Option.bind_eq_none_iff]
          intro v hv
          obtain ⟨t, ht, rfl⟩ := Option.map_eq_some_iff.mp hv
          rw [Layout.entries?_value, hnone t ht, Option.map_none]
        rw [Layout.entryValues_insert, Layout.entryValues_insert, Value.insert_insert, Layout.value,
          hvalues, Value.put, hentries]
        rfl

/-- A part without shared parts stands for a value. -/
def SpellsAt (g : Graph) (part : Part) (v : Value) : Prop :=
  ∃ t : Layout, t.part = part ∧ Held g.cells t.cells ∧ t.value = v

namespace SpellsAt

variable {g : Graph} {part : Part} {v : Value}

theorem value (h : g.SpellsAt part v) : g.value part = v := by
  obtain ⟨t, rfl, hheld, rfl⟩ := h
  exact value_part hheld

private theorem isSome_entries? (h : g.SpellsAt part v) :
    (entries? g.cells part).isSome = v.entries?.isSome := by
  obtain ⟨t, rfl, hheld, rfl⟩ := h
  rw [entries?_part hheld, Layout.entries?_value, Option.isSome_map, Option.isSome_map]

/-- What is found behind a chain of keys is what the value has there. -/
theorem get? (h : g.SpellsAt part v) (keys : List String) :
    (v.walk? keys = none ∧ g.get? part (keys.map .text) = .ok none) ∨
      ∃ w q, v.walk? keys = some w ∧ g.get? part (keys.map .text) = .ok (some q) ∧
      g.SpellsAt q w := by
  induction keys generalizing part v with
  | nil => exact .inr ⟨v, part, rfl, rfl, h⟩
  | cons k rest ih =>
    obtain ⟨t, rfl, hheld, rfl⟩ := h
    rw [List.map_cons, Graph.get?, entries?_part hheld, Value.walk?, Layout.entries?_value]
    cases hes : t.entries? with
    | none => exact .inl ⟨rfl, rfl⟩
    | some es =>
      have hentries : Held g.cells (Layout.entryCells es) := by
        cases t <;> cases hes
        exact hheld.sublist (List.sublist_cons_self _ _)
      simp only [Option.map_some, Value.isKey, Layout.find?_entryParts hentries, Option.bind_some,
        Layout.find?_entryValues]
      cases hfind : Layout.find? k es with
      | none => exact .inl ⟨rfl, rfl⟩
      | some s => exact ih ⟨s, rfl, hentries.sublist (Layout.cells_sublist_of_find? hfind), rfl⟩

end SpellsAt

def Spells (g : Graph) (v : Value) : Prop :=
  g.SpellsAt g.root v

theorem spells_empty : empty.Spells (.map []) := by
  have hcells : (Layout.map 0 []).cells = [(0, .map [])] := rfl
  refine ⟨.map 0 [], rfl, ?_, rfl⟩
  rw [hcells]
  constructor
  · simp [empty]
  · simp

section Spells

variable {g : Graph} {v : Value} {m : List (Value × Value)}

theorem Spells.toValue (h : g.Spells v) : g.toValue = v :=
  h.value

theorem Spells.set (h : g.Spells (.map m)) (k : String) (rest : List String) (v : Value) :
    ∃ g', g.set g.root (.text k) (.new v) (rest.map .text) = (g', none) ∧
      g'.Spells (.map (Value.put v (k :: rest) m)) := by
  obtain ⟨t, hpart, hheld, hvalue⟩ := h
  have hentries := t.entries?_value
  rw [hvalue] at hentries
  cases t with
  | map p es =>
    cases hvalue
    obtain ⟨cells', es', hset, hchanged, hvalues⟩ := set_spec (k := k) g hheld v rest
    rw [← hpart]
    exact ⟨_, hset, .map p es', hpart, hchanged.held, by rw [Layout.value, hvalues]⟩
  | _ => cases hentries

end Spells

end Graph

/-- What was handed over stands for a value, without shared parts. -/
def Given.Spells (g : Graph) (v : Value) : Given → Prop
  | new a => a = v
  | live part => g.SpellsAt part v

namespace Given.Spells

variable {g : Graph} {v : Value} {given : Given}

theorem value (h : given.Spells g v) : given.value g = v := by
  cases given with
  | new a => exact h
  | live part => exact Graph.SpellsAt.value h

theorem isMapping (h : given.Spells g v) : given.isMapping g = v.entries?.isSome := by
  cases given with
  | new a =>
    obtain rfl : a = v := h
    rfl
  | live part => exact Graph.SpellsAt.isSome_entries? h

end Given.Spells
end ThemedCss.Data
