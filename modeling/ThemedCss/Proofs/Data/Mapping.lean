import Mathlib.Data.List.Forall2
import ThemedCss.Data.Value

/-! Mappings inside mappings: what is set behind a chain of keys, and what is found there. -/
namespace ThemedCss.Data.Value

/-- A mapping with a value set behind a chain of keys. What stands in the way and is no mapping
becomes one. -/
def put (v : Value) : List String → List (Value × Value) → List (Value × Value)
  | [], m => m
  | [k], m => insert (.text k) v m
  | k :: next :: rest, m =>
    let inner := ((find? (.text k) m).bind entries?).getD []
    insert (.text k) (.map (put v (next :: rest) inner)) m

/-- The value behind a chain of keys of mappings, if there is one. -/
def walk? : List String → Value → Option Value
  | [], v => some v
  | k :: rest, v => (v.entries?.bind (find? (.text k))).bind (walk? rest)

theorem sameKey_text {k : String} {v : Value} : v.sameKey (.text k) ↔ v = .text k := by
  cases v <;> simp [sameKey, int?]

theorem insert_insert (k : String) (v w : Value) (m : List (Value × Value)) :
    insert (.text k) w (insert (.text k) v m) = insert (.text k) w m := by
  induction m with
  | nil => simp [insert, sameKey_text]
  | cons e m ih =>
    by_cases h : e.1.sameKey (.text k)
    · simp only [insert, h, if_true]
    · simp only [insert, h, Bool.false_eq_true, if_false, ih]

theorem text_sameKey {k : String} {v : Value} : sameKey (.text k) v ↔ v = .text k := by
  cases v with
  | text s =>
    simp only [sameKey, int?, beq_iff_eq, text.injEq]
    exact eq_comm
  | _ => simp [sameKey, int?]

theorem find?_insert (k : String) (v k' : Value) (m : List (Value × Value)) :
    find? k' (insert (.text k) v m) = if sameKey (.text k) k' then some v else find? k' m := by
  induction m with
  | nil => rfl
  | cons e m ih =>
    by_cases he : e.1.sameKey (.text k)
    · have hkey := sameKey_text.mp he
      rw [insert, if_pos he, find?, find?, hkey]
      by_cases hk : sameKey (.text k) k' <;> simp [hk]
    · simp only [insert, he, Bool.false_eq_true, if_false, find?, ih]
      by_cases hk : sameKey (.text k) k'
      · have hne : ¬e.1.sameKey k' := fun h => he (text_sameKey.mp hk ▸ h)
        simp [hk, hne]
      · simp [hk]

theorem find?_insert_self (k : String) (v : Value) (m : List (Value × Value)) :
    find? (.text k) (insert (.text k) v m) = some v := by
  rw [find?_insert, if_pos (text_sameKey.mpr rfl)]

theorem length_insert (k : String) (v : Value) (m : List (Value × Value)) :
    (insert (.text k) v m).length = if (find? (.text k) m).isSome then m.length
      else m.length + 1 := by
  induction m with
  | nil => rfl
  | cons e m ih =>
    by_cases he : e.1.sameKey (.text k)
    · simp [insert, find?, he]
    · simp only [insert, find?, he, Bool.false_eq_true, if_false, List.length_cons, ih]
      by_cases hf : (find? (.text k) m).isSome <;> simp [hf]

/-- What was set is found. -/
theorem walk?_put (v : Value) {keys : List String} (h : keys ≠ []) (m : List (Value × Value)) :
    walk? keys (.map (put v keys m)) = some v := by
  induction keys generalizing m with
  | nil => exact absurd rfl h
  | cons k rest ih =>
    cases rest with
    | nil => simp [walk?, entries?, put, find?_insert_self]
    | cons next rest =>
      rw [walk?, put, entries?, Option.bind_some, find?_insert_self, Option.bind_some]
      exact ih (List.cons_ne_nil _ _) _

/-- Values that are the same but for the order of keys in mappings and of members in sets. -/
inductive Same : Value → Value → Prop
  | refl (v : Value) : Same v v
  | list {vs ws : List Value} : List.Forall₂ Same vs ws → Same (.list vs) (.list ws)
  | set {vs ws : List Value} : vs.Perm ws → Same (.set vs) (.set ws)
  | map {m n : List (Value × Value)} :
      m.length = n.length → (∀ k, (find? k m).isSome = (find? k n).isSome) →
      (∀ k v w, find? k m = some v → find? k n = some w → Same v w) → Same (.map m) (.map n)

namespace Same

variable {v w : Value} {m n : List (Value × Value)}

theorem map_iff :
    Same (.map m) (.map n) ↔ m.length = n.length ∧ (∀ k, (find? k m).isSome = (find? k n).isSome) ∧
    ∀ k v w, find? k m = some v → find? k n = some w → Same v w := by
  constructor
  · intro h
    cases h with
    | refl =>
      refine ⟨rfl, fun _ => rfl, fun k v w hv hw => ?_⟩
      obtain rfl := Option.some.inj (hv.symm.trans hw)
      exact .refl v
    | map hlength hkeys hvalues => exact ⟨hlength, hkeys, hvalues⟩
  · rintro ⟨hlength, hkeys, hvalues⟩
    exact .map hlength hkeys hvalues

/-- What one of two same mappings has behind a key, the other has too. -/
theorem find? (h : Same (.map m) (.map n)) (k : Value) :
    (Value.find? k m = none ∧ Value.find? k n = none) ∨
      ∃ v w, Value.find? k m = some v ∧ Value.find? k n = some w ∧ Same v w := by
  obtain ⟨-, hkeys, hvalues⟩ := map_iff.mp h
  have hk := hkeys k
  cases hm : Value.find? k m with
  | none =>
    cases hn : Value.find? k n with
    | none => exact .inl ⟨rfl, rfl⟩
    | some w => simp [hm, hn] at hk
  | some v =>
    cases hn : Value.find? k n with
    | none => simp [hm, hn] at hk
    | some w => exact .inr ⟨v, w, rfl, rfl, hvalues k v w hm hn⟩

theorem entries? (h : Same v w) :
    (v.entries? = none ∧ w.entries? = none) ∨
      ∃ m n, v.entries? = some m ∧ w.entries? = some n ∧ Same (.map m) (.map n) := by
  cases h with
  | refl =>
    cases hv : v.entries? with
    | none => exact .inl ⟨rfl, rfl⟩
    | some m => exact .inr ⟨m, m, rfl, rfl, .refl _⟩
  | list | set => exact .inl ⟨rfl, rfl⟩
  | map hlength hkeys hvalues => exact .inr ⟨_, _, rfl, rfl, .map hlength hkeys hvalues⟩

theorem insert (h : Same (.map m) (.map n)) (k : String) (hv : Same v w) :
    Same (.map (Value.insert (.text k) v m)) (.map (Value.insert (.text k) w n)) := by
  obtain ⟨hlength, hkeys, hvalues⟩ := map_iff.mp h
  refine .map ?_ ?_ ?_
  · rw [length_insert, length_insert, hkeys, hlength]
  · intro k'
    rw [find?_insert, find?_insert]
    by_cases hk : sameKey (.text k) k'
    · rw [if_pos hk, if_pos hk]
      rfl
    · rw [if_neg hk, if_neg hk, hkeys]
  · intro k' x y hx hy
    rw [find?_insert] at hx hy
    by_cases hk : sameKey (.text k) k'
    · rw [if_pos hk] at hx hy
      cases hx
      cases hy
      exact hv
    · rw [if_neg hk] at hx hy
      exact hvalues k' x y hx hy

theorem put (h : Same (.map m) (.map n)) (v : Value) (keys : List String) :
    Same (.map (Value.put v keys m)) (.map (Value.put v keys n)) := by
  induction keys generalizing m n with
  | nil => exact h
  | cons k rest ih =>
    cases rest with
    | nil => exact h.insert k (.refl v)
    | cons next rest =>
      have hinner : Same (.map (((Value.find? (.text k) m).bind Value.entries?).getD []))
          (.map (((Value.find? (.text k) n).bind Value.entries?).getD [])) := by
        obtain ⟨hm, hn⟩ | ⟨x, y, hm, hn, hxy⟩ := h.find? (.text k)
        · rw [hm, hn]
          exact .refl _
        · rw [hm, hn, Option.bind_some, Option.bind_some]
          obtain ⟨hx, hy⟩ | ⟨xs, ys, hx, hy, hsame⟩ := hxy.entries?
          · rw [hx, hy]
            exact .refl _
          · rw [hx, hy]
            exact hsame
      exact h.insert k (ih hinner)

theorem walk? (h : Same v w) (keys : List String) :
    (v.walk? keys = none ∧ w.walk? keys = none) ∨
      ∃ x y, v.walk? keys = some x ∧ w.walk? keys = some y ∧ Same x y := by
  induction keys generalizing v w with
  | nil => exact .inr ⟨v, w, rfl, rfl, h⟩
  | cons k rest ih =>
    rw [Value.walk?, Value.walk?]
    obtain ⟨hv, hw⟩ | ⟨m, n, hv, hw, hsame⟩ := h.entries?
    · rw [hv, hw]
      exact .inl ⟨rfl, rfl⟩
    · rw [hv, hw, Option.bind_some, Option.bind_some]
      obtain ⟨hm, hn⟩ | ⟨x, y, hm, hn, hxy⟩ := hsame.find? (.text k)
      · rw [hm, hn]
        exact .inl ⟨rfl, rfl⟩
      · rw [hm, hn]
        exact ih hxy

theorem exists_map (h : Same (.map m) v) : ∃ n, v = .map n := by
  cases h with
  | refl => exact ⟨m, rfl⟩
  | map => exact ⟨_, rfl⟩

theorem isEmpty (h : Same v w) : v.isEmpty = w.isEmpty := by
  have lengths {α : Type} {xs ys : List α} (h : xs.length = ys.length) :
      xs.isEmpty = ys.isEmpty := by
    rw [Bool.eq_iff_iff, List.isEmpty_iff, List.isEmpty_iff, ← List.length_eq_zero_iff, h,
      List.length_eq_zero_iff]
  cases h with
  | refl => rfl
  | list hitems => exact lengths hitems.length_eq
  | set hmembers => exact lengths hmembers.length_eq
  | map hlength => exact lengths hlength

end Same

end ThemedCss.Data.Value
