import Mathlib.Data.Finset.Card
import Mathlib.Data.List.Forall2
import Mathlib.Logic.Relation
import ThemedCss.Table

/-! Look-up in tables, what a table holds once it has stopped growing, and tables with related
values. -/
namespace ThemedCss.Table

variable {κ α : Type}

theorem mem_keys {t : Table κ α} {k : κ} : k ∈ t.keys ↔ ∃ a, (k, a) ∈ t := by
  simp [keys]

@[simp] theorem keys_append (t u : Table κ α) : keys (t ++ u) = keys t ++ keys u :=
  List.map_append

theorem keys_flatMap {β : Type} (f : β → Table κ α) (l : List β) :
    keys (l.flatMap f) = l.flatMap fun b => keys (f b) :=
  List.map_flatMap

@[simp] theorem keys_map_pair (f : κ → α) (ks : List κ) : keys (ks.map fun k => (k, f k)) = ks := by
  simp [keys, Function.comp_def]

/-- No later entry has the key. -/
def Last (entries : Table κ α) (k : κ) (a : α) : Prop :=
  ∃ before after, entries = before ++ (k, a) :: after ∧ k ∉ keys after

theorem exists_last {entries : Table κ α} {k : κ} (h : k ∈ entries.keys) :
    ∃ a, entries.Last k a := by
  induction entries with
  | nil => cases h
  | cons e rest ih =>
    by_cases hrest : k ∈ keys rest
    · obtain ⟨a, before, after, rfl, hafter⟩ := ih hrest
      exact ⟨a, e :: before, after, rfl, hafter⟩
    · obtain rfl : k = e.1 := (List.mem_cons.mp h).resolve_right hrest
      exact ⟨e.2, [], rest, rfl, hrest⟩

theorem Last.mem_keys {entries : Table κ α} {k : κ} {a : α} (h : entries.Last k a) :
    k ∈ entries.keys := by
  obtain ⟨before, after, rfl, -⟩ := h
  simp [keys]

variable [DecidableEq κ]

theorem mem_of_get? {t : Table κ α} {k : κ} {a : α} (h : t.get? k = some a) : (k, a) ∈ t := by
  induction t with
  | nil => simp [get?] at h
  | cons e rest ih =>
    simp only [get?] at h
    split_ifs at h with he
    · obtain rfl := Option.some.inj h
      simp [← he]
    · exact List.mem_cons_of_mem _ (ih h)

theorem get?_eq_none_iff {t : Table κ α} {k : κ} : t.get? k = none ↔ k ∉ t.keys := by
  induction t with
  | nil => simp [get?, keys]
  | cons e rest ih =>
    have hc : keys (e :: rest) = e.1 :: keys rest := rfl
    by_cases he : e.1 = k
    · simp [get?, hc, he]
    · simp [get?, hc, he, ih, Ne.symm he]

theorem mem_keys_insert {t : Table κ α} {k j : κ} {a : α} :
    j ∈ (t.insert k a).keys ↔ j ∈ t.keys ∨ j = k := by
  induction t with
  | nil => simp [insert, keys]
  | cons e rest ih =>
    rw [insert]
    split_ifs with he
    · simp [keys, he]
      tauto
    · simp only [keys, List.map_cons, List.mem_cons] at ih ⊢
      rw [ih, or_assoc]

/-- A known key keeps its place. -/
theorem keys_insert_of_mem {t : Table κ α} {k : κ} (a : α) (h : k ∈ t.keys) :
    (t.insert k a).keys = t.keys := by
  induction t with
  | nil => simp [keys] at h
  | cons e rest ih =>
    rw [insert]
    split_ifs with he
    · rfl
    · have hrest : k ∈ keys rest := (List.mem_cons.mp h).resolve_left (Ne.symm he)
      exact congrArg (e.1 :: ·) (ih hrest)

theorem insert_eq_append {t : Table κ α} {k : κ} (a : α) (h : k ∉ t.keys) :
    t.insert k a = t ++ [(k, a)] := by
  induction t with
  | nil => rfl
  | cons e rest ih =>
    simp only [keys, List.map_cons, List.mem_cons, not_or] at h
    rw [insert, if_neg (Ne.symm h.1), ih h.2, List.cons_append]

theorem insert_append_cons {t : Table κ α} {k : κ} (h : k ∉ t.keys) (a b : α) (u : Table κ α) :
    insert k a (t ++ (k, b) :: u) = t ++ (k, a) :: u := by
  induction t with
  | nil => simp [insert]
  | cons e rest ih =>
    simp only [keys, List.map_cons, List.mem_cons, not_or] at h
    rw [List.cons_append, insert, if_neg (Ne.symm h.1), ih h.2, List.cons_append]

/-- New keys come in one after the other. -/
theorem insertAll_eq_append {entries t : Table κ α} (h : (t ++ entries).keys.Nodup) :
    insertAll entries t = t ++ entries := by
  induction entries generalizing t with
  | nil => simp [insertAll]
  | cons e rest ih =>
    have hsplit : t ++ e :: rest = t ++ [e] ++ rest := by simp
    have hnew : e.1 ∉ t.keys := by
      rw [keys_append] at h
      exact fun hmem => (List.nodup_append.mp h).2.2 _ hmem _ List.mem_cons_self rfl
    have hstep : insertAll (e :: rest) t = insertAll rest (t.insert e.1 e.2) := rfl
    rw [hsplit] at h ⊢
    rw [hstep, insert_eq_append e.2 hnew, ih h]

@[simp] theorem has_iff {t : Table κ α} {k : κ} : t.has k = true ↔ k ∈ t.keys := by
  rw [← not_iff_not, ← get?_eq_none_iff]
  simp [has]

theorem has_eq_false {t : Table κ α} {k : κ} : t.has k = false ↔ k ∉ t.keys := by
  rw [Bool.eq_false_iff, Ne, has_iff]

theorem get?_append (t u : Table κ α) (k : κ) : get? (t ++ u) k = (t.get? k).or (u.get? k) := by
  induction t with
  | nil => rfl
  | cons e rest ih =>
    simp only [List.cons_append, get?]
    split_ifs
    · rfl
    · exact ih

theorem get?_eq_some_of_mem {t : Table κ α} (ht : t.keys.Nodup) {k : κ} {a : α} (h : (k, a) ∈ t) :
    t.get? k = some a := by
  induction t with
  | nil => simp at h
  | cons e rest ih =>
    obtain ⟨he, hr⟩ := List.nodup_cons.mp (show (e.1 :: keys rest).Nodup from ht)
    rcases List.mem_cons.mp h with rfl | h
    · simp [get?]
    · have hne : e.1 ≠ k := fun hk => he (hk ▸ mem_keys.mpr ⟨a, h⟩)
      simp [get?, hne, ih hr h]

theorem get?_insert (t : Table κ α) (k j : κ) (a : α) :
    (t.insert k a).get? j = if k = j then some a else t.get? j := by
  induction t with
  | nil => rfl
  | cons e rest ih =>
    rw [insert]
    split_ifs with he hkj hkj
    · simp [get?, he, hkj]
    · simp [get?, he, hkj]
    · rw [get?, if_neg (hkj ▸ he), ih, if_pos hkj]
    · rw [get?, ih, if_neg hkj, get?]

theorem insertAll_append (entries later t : Table κ α) :
    insertAll (entries ++ later) t = insertAll later (insertAll entries t) :=
  List.foldl_append

theorem get?_insertAll_of_not_mem {entries t : Table κ α} {k : κ} (h : k ∉ entries.keys) :
    (insertAll entries t).get? k = t.get? k := by
  induction entries generalizing t with
  | nil => rfl
  | cons e rest ih =>
    have hne : e.1 ≠ k ∧ k ∉ keys rest := by
      simpa [keys, eq_comm] using h
    have hstep : insertAll (e :: rest) t = insertAll rest (t.insert e.1 e.2) := rfl
    rw [hstep, ih hne.2, get?_insert, if_neg hne.1]

/-- What is found after several values were set is one of them, or it was there before. -/
theorem mem_or_of_get?_insertAll {entries t : Table κ α} {k : κ} {a : α}
    (h : (insertAll entries t).get? k = some a) : (k, a) ∈ entries ∨ t.get? k = some a := by
  induction entries generalizing t with
  | nil => exact .inr h
  | cons e rest ih =>
    have hstep : insertAll (e :: rest) t = insertAll rest (t.insert e.1 e.2) := rfl
    rw [hstep] at h
    rcases ih h with hrest | hinsert
    · exact .inl (List.mem_cons_of_mem e hrest)
    · rw [get?_insert] at hinsert
      split_ifs at hinsert with he
      · obtain rfl := Option.some.inj hinsert
        exact .inl (by simp [← he])
      · exact .inr hinsert

theorem get?_insertAll_map {ks : List κ} {k : κ} (a : α) (t : Table κ α) (h : k ∈ ks) :
    (insertAll (ks.map (·, a)) t).get? k = some a := by
  induction ks generalizing t with
  | nil => cases h
  | cons j rest ih =>
    have hstep : insertAll ((j :: rest).map (·, a)) t =
        insertAll (rest.map (·, a)) (t.insert j a) := rfl
    rw [hstep]
    by_cases hrest : k ∈ rest
    · exact ih _ hrest
    · have hj : j = k := ((List.mem_cons.mp h).resolve_right hrest).symm
      rw [get?_insertAll_of_not_mem (by simpa [keys, Function.comp_def] using hrest),
        get?_insert, if_pos hj]

/-- Of several values set for a key the last one is found. -/
theorem Last.get?_insertAll {entries : Table κ α} {k : κ} {a : α} (h : entries.Last k a)
    (t : Table κ α) : (insertAll entries t).get? k = some a := by
  obtain ⟨before, after, rfl, hafter⟩ := h
  have hstep : insertAll ((k, a) :: after) (insertAll before t) =
      insertAll after ((insertAll before t).insert k a) := rfl
  rw [insertAll_append, hstep, get?_insertAll_of_not_mem hafter, get?_insert, if_pos rfl]

theorem mem_keys_insertAll {entries t : Table κ α} {k : κ} :
    k ∈ (insertAll entries t).keys ↔ k ∈ entries.keys ∨ k ∈ t.keys := by
  induction entries generalizing t with
  | nil => simp [insertAll, keys]
  | cons e rest ih =>
    have hstep : insertAll (e :: rest) t = insertAll rest (t.insert e.1 e.2) := rfl
    have hkeys : keys (e :: rest) = e.1 :: keys rest := rfl
    rw [hstep, ih, mem_keys_insert, hkeys, List.mem_cons]
    tauto

theorem nodup_keys_insert {t : Table κ α} (ht : t.keys.Nodup) (k : κ) (a : α) :
    (t.insert k a).keys.Nodup := by
  by_cases h : k ∈ t.keys
  · rw [keys_insert_of_mem a h]
    exact ht
  · rw [insert_eq_append a h, keys_append]
    refine List.nodup_append.mpr ⟨ht, List.nodup_singleton k, ?_⟩
    intro j hj i hi hji
    obtain rfl : i = k := List.mem_singleton.mp hi
    exact h (hji ▸ hj)

theorem nodup_keys_insertAll (entries : Table κ α) {t : Table κ α} (ht : t.keys.Nodup) :
    (insertAll entries t).keys.Nodup := by
  induction entries generalizing t with
  | nil => exact ht
  | cons e rest ih => exact ih (nodup_keys_insert ht e.1 e.2)

/-- A table made from a function gives its values back. -/
theorem get?_map_pair (f : κ → α) (ks : List κ) (k : κ) :
    get? (ks.map fun k => (k, f k)) k = if k ∈ ks then some (f k) else none := by
  induction ks with
  | nil => rfl
  | cons j rest ih =>
    by_cases h : j = k
    · simp [get?, h]
    · simp [get?, h, ih, Ne.symm h]

theorem nodup_eraseDups (ks : List κ) : ks.eraseDups.Nodup := by
  induction h : ks.length using Nat.strong_induction_on generalizing ks with
  | _ n ih =>
    cases ks with
    | nil => simp
    | cons a rest =>
      have hlen : (rest.filter fun b => !b == a).length < n := by
        have := List.length_filter_le (fun b => !b == a) rest
        simp only [List.length_cons] at h
        omega
      rw [List.eraseDups_cons, List.nodup_cons]
      exact ⟨by simp [List.mem_eraseDups], ih _ hlen _ rfl⟩

/-- When keys are added to a list and one of them was missing from it, fewer keys of a set are
missing. -/
theorem card_sdiff_append_lt (U : Finset κ) {ks new : List κ} {k : κ} (hU : k ∈ U) (hks : k ∉ ks)
    (hnew : k ∈ new) : (U \ (ks ++ new).toFinset).card < (U \ ks.toFinset).card := by
  have hsub : U \ (ks ++ new).toFinset ⊆ U \ ks.toFinset := by
    intro j hj
    simp only [Finset.mem_sdiff, List.mem_toFinset, List.mem_append, not_or] at hj ⊢
    exact ⟨hj.1, hj.2.1⟩
  refine Finset.card_lt_card ((Finset.ssubset_iff_of_subset hsub).mpr ⟨k, ?_, ?_⟩)
  · simp [hU, hks]
  · simp [hnew]

section Growth

variable (value : κ → α) (names : α → List κ)

def Names (k j : κ) : Prop :=
  j ∈ names (value k)

/-- One round: either nothing is new, or the new keys come in, each once, and the next round goes on
from them. -/
theorem grow_succ (rounds : Nat) (ks : List κ) (t : Table κ α) :
    (∀ k ∈ ks, k ∈ t.keys) ∧ grow value names (rounds + 1) ks t = t ∨
      ∃ new : List κ, new ≠ [] ∧ new.Nodup ∧ (∀ k, k ∈ new ↔ k ∈ ks ∧ k ∉ t.keys) ∧
        grow value names (rounds + 1) ks t =
          grow value names rounds (new.flatMap fun k => names (value k))
            (t ++ new.map fun k => (k, value k)) := by
  have hmem : ∀ k, k ∈ (ks.filter fun k => !t.has k).eraseDups ↔ k ∈ ks ∧ k ∉ t.keys := by
    intro k
    simp [List.mem_eraseDups, List.mem_filter, ← has_iff]
  have hnd := nodup_eraseDups (ks.filter fun k => !t.has k)
  simp only [grow]
  generalize (ks.filter fun k => !t.has k).eraseDups = new at hmem hnd
  cases new with
  | nil =>
    refine .inl ⟨fun k hk => ?_, rfl⟩
    by_contra h
    simpa using (hmem k).mpr ⟨hk, h⟩
  | cons k rest => exact .inr ⟨k :: rest, by simp, hnd, hmem, by simp [List.flatMap_map]⟩

/-- Growth only appends: new keys, each once and with its own value, that the given keys lead to. -/
theorem grow_eq_append (rounds : Nat) (ks : List κ) (t : Table κ α) :
    ∃ new : List κ, grow value names rounds ks t =
      t ++ new.map (fun k => (k, value k)) ∧ new.Nodup ∧
      (∀ k ∈ new, k ∉ t.keys) ∧
      ∀ k ∈ new, ∃ j ∈ ks, Relation.ReflTransGen (Names value names) j k := by
  induction rounds generalizing ks t with
  | zero => exact ⟨[], by simp [grow]⟩
  | succ rounds ih =>
    obtain ⟨-, heq⟩ | ⟨first, -, hnd, hmem, heq⟩ := grow_succ value names rounds ks t
    · exact ⟨[], by simp [heq]⟩
    · obtain ⟨new, hnew, hnd', hout, hreach⟩ := ih (first.flatMap fun k => names (value k))
        (t ++ first.map fun k => (k, value k))
      simp only [keys_append, keys_map_pair, List.mem_append, not_or] at hout
      refine ⟨first ++ new, ?_, ?_, ?_, ?_⟩
      · rw [heq, hnew, List.map_append, List.append_assoc]
      · exact List.nodup_append'.mpr ⟨hnd, hnd', fun k hk hk' => (hout k hk').2 hk⟩
      · intro k hk
        rcases List.mem_append.mp hk with h | h
        · exact ((hmem k).mp h).2
        · exact (hout k h).1
      · intro k hk
        rcases List.mem_append.mp hk with h | h
        · exact ⟨k, ((hmem k).mp h).1, .refl⟩
        · obtain ⟨i, hi, hik⟩ := hreach k h
          obtain ⟨j, hj, hji⟩ := List.mem_flatMap.mp hi
          exact ⟨j, ((hmem j).mp hj).1, .head hji hik⟩

theorem keys_subset_grow (rounds : Nat) (ks : List κ) (t : Table κ α) :
    t.keys ⊆ (grow value names rounds ks t).keys := by
  obtain ⟨new, heq, -⟩ := grow_eq_append value names rounds ks t
  rw [heq, keys_append]
  exact List.subset_append_left _ _

theorem nodup_keys_grow (rounds : Nat) (ks : List κ) {t : Table κ α} (ht : t.keys.Nodup) :
    (grow value names rounds ks t).keys.Nodup := by
  obtain ⟨new, heq, hnew, hout, -⟩ := grow_eq_append value names rounds ks t
  rw [heq, keys_append, keys_map_pair]
  exact List.nodup_append'.mpr ⟨ht, hnew, fun k hk hk' => hout k hk' hk⟩

/-- Entries that were there stay, and every other entry has its own value. -/
theorem get?_grow (rounds : Nat) (ks : List κ) (t : Table κ α) {k : κ}
    (hk : k ∈ (grow value names rounds ks t).keys) :
    (grow value names rounds ks t).get? k = some ((t.get? k).getD (value k)) := by
  obtain ⟨new, heq, -, -, -⟩ := grow_eq_append value names rounds ks t
  rw [heq, keys_append, keys_map_pair] at hk
  rw [heq, get?_append, get?_map_pair]
  cases hg : t.get? k with
  | some a => rfl
  | none =>
    have hn : k ∈ new := (List.mem_append.mp hk).resolve_left (get?_eq_none_iff.mp hg)
    simp [hn]

/-- If all keys that can come up lie in a set that leaves fewer new ones than there are rounds,
nothing is left out: the given keys are in the table, and so is all that its new entries name. -/
theorem grow_closed (U : Finset κ) (hU : ∀ k ∈ U, ∀ j ∈ names (value k), j ∈ U) (rounds : Nat)
    (ks : List κ) (t : Table κ α) (hks : ∀ k ∈ ks, k ∈ U)
    (hr : (U \ t.keys.toFinset).card < rounds) :
    (∀ k ∈ ks, k ∈ (grow value names rounds ks t).keys) ∧
      ∀ k ∈ (grow value names rounds ks t).keys, k ∉ t.keys →
        ∀ j ∈ names (value k), j ∈ (grow value names rounds ks t).keys := by
  induction rounds generalizing ks t with
  | zero => omega
  | succ rounds ih =>
    obtain ⟨hall, heq⟩ | ⟨first, hne, -, hmem, heq⟩ := grow_succ value names rounds ks t
    · rw [heq]
      exact ⟨hall, fun k hk hk' => absurd hk hk'⟩
    · have hkeys : keys (t ++ first.map fun k => (k, value k)) = t.keys ++ first := by simp
      have hcard : (U \ (t.keys ++ first).toFinset).card < rounds := by
        -- the first new key is in `U` and was not in the table, so fewer keys are left
        obtain ⟨k, hk⟩ := List.exists_mem_of_ne_nil first hne
        obtain ⟨hks', hkt⟩ := (hmem k).mp hk
        have hlt := card_sdiff_append_lt U (hks k hks') hkt hk
        omega
      obtain ⟨hnext, hclosed⟩ :=
        ih (first.flatMap fun k => names (value k)) (t ++ first.map fun k => (k, value k))
          (fun j hj => by
            obtain ⟨k, hk, hkj⟩ := List.mem_flatMap.mp hj
            exact hU k (hks k ((hmem k).mp hk).1) j hkj)
          (by rwa [hkeys])
      have hsub := keys_subset_grow value names rounds (first.flatMap fun k => names (value k))
        (t ++ first.map fun k => (k, value k))
      rw [← heq] at hnext hclosed hsub
      rw [hkeys] at hclosed hsub
      refine ⟨fun k hk => ?_, fun k hk hkt j hj => ?_⟩
      · by_cases hkt : k ∈ t.keys
        · exact hsub (List.mem_append_left _ hkt)
        · exact hsub (List.mem_append_right _ ((hmem k).mpr ⟨hk, hkt⟩))
      · by_cases hkf : k ∈ first
        · exact hnext j (List.mem_flatMap.mpr ⟨k, hkf, hj⟩)
        · exact hclosed k hk (by simp [hkt, hkf]) j hj

end Growth

section Related

variable {κ α β : Type} {R : α → β → Prop} {t : Table κ α} {u : Table κ β}

/-- Tables with the same keys in the same order, and with related values. -/
def Related (R : α → β → Prop) (t : Table κ α) (u : Table κ β) : Prop :=
  List.Forall₂ (fun e f => f.1 = e.1 ∧ R e.2 f.2) t u

namespace Related

theorem keys (h : Related R t u) : Table.keys u = Table.keys t := by
  induction h with
  | nil => rfl
  | cons hef _ ih =>
    simp only [Table.keys, List.map_cons] at ih ⊢
    rw [hef.1, ih]

variable [DecidableEq κ]

theorem get? (h : Related R t u) (k : κ) : Option.Rel R (t.get? k) (u.get? k) := by
  induction h with
  | nil => exact .none
  | cons hef _ ih =>
    rw [Table.get?, Table.get?, hef.1]
    split_ifs
    · exact .some hef.2
    · exact ih

theorem insert (h : Related R t u) (k : κ) {a : α} {b : β} (hab : R a b) :
    Related R (t.insert k a) (u.insert k b) := by
  induction h with
  | nil => exact .cons ⟨rfl, hab⟩ .nil
  | cons hef hall ih =>
    rw [Table.insert, Table.insert, hef.1]
    split_ifs
    · exact .cons ⟨rfl, hab⟩ hall
    · exact .cons ⟨rfl, hef.2⟩ ih

theorem insertAll {entries : Table κ α} {entries' : Table κ β}
    (hentries : Related R entries entries') (h : Related R t u) :
    Related R (Table.insertAll entries t) (Table.insertAll entries' u) := by
  refine List.rel_foldl (P := Related R) (fun t u h e f hef => ?_) h hentries
  dsimp only
  rw [hef.1]
  exact h.insert e.1 hef.2

end Related

end Related
end ThemedCss.Table
