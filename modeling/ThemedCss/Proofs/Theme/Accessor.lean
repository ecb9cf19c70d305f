import Mathlib.Data.List.Infix
import ThemedCss.Theme.Environment

/-! The chains that a theme allows are those that can be walked in its data. -/
namespace ThemedCss.Theme
open ThemedCss.Data

def isLeaf : Value → Bool
  | .map _ => false
  | _ => true

/-- Walk a chain of members down from a mapping. Several keys may be shown alike; one that leads on
is enough. Behind something that is no mapping anything goes. -/
def walks : List String → List (Value × Value) → Bool
  | [], _ => true
  | segment :: rest, entries =>
    entries.any fun e => e.1.shown == segment &&
      match e.2 with
      | .map inner => walks rest inner
      | _ => true

/-- A value of a mapping, or of a mapping in it. -/
inductive Inside (v : Value) : List (Value × Value) → Prop
  | here {k entries} : (k, v) ∈ entries → Inside v entries
  | deeper {k inner entries} : (k, .map inner) ∈ entries → Inside v inner → Inside v entries

/-- An accessor leads to a value of a mapping, or of a mapping in it; `leaf` tells whether the value
is no mapping. -/
inductive Accessor : List (Value × Value) → List String → Bool → Prop
  | here {k v entries} : (k, v) ∈ entries → Accessor entries [k.shown] (isLeaf v)
  | deeper {k inner entries way leaf} : (k, .map inner) ∈ entries → Accessor inner way leaf →
      Accessor entries (k.shown :: way) leaf

section Entries

variable {entries rest : List (Value × Value)} {k v w : Value} {way : List String} {leaf : Bool}

@[simp] theorem not_inside_nil : ¬Inside v [] := by
  intro h
  cases h with
  | here hmem | deeper hmem => cases hmem

@[simp] theorem not_accessor_nil : ¬Accessor [] way leaf := by
  intro h
  cases h with
  | here hmem | deeper hmem => cases hmem

theorem inside_cons :
    Inside w ((k, v) :: rest) ↔
      v = w ∨ (∃ inner, v = .map inner ∧ Inside w inner) ∨ Inside w rest := by
  constructor
  · intro h
    cases h with
    | here hmem =>
      rcases List.mem_cons.mp hmem with heq | hmem
      · exact .inl (Prod.mk.inj heq).2.symm
      · exact .inr (.inr (.here hmem))
    | deeper hmem hinner =>
      rcases List.mem_cons.mp hmem with heq | hmem
      · exact .inr (.inl ⟨_, (Prod.mk.inj heq).2.symm, hinner⟩)
      · exact .inr (.inr (.deeper hmem hinner))
  · rintro (rfl | ⟨inner, rfl, hinner⟩ | h)
    · exact .here List.mem_cons_self
    · exact .deeper List.mem_cons_self hinner
    · cases h with
      | here hmem => exact .here (List.mem_cons_of_mem _ hmem)
      | deeper hmem hinner => exact .deeper (List.mem_cons_of_mem _ hmem) hinner

theorem accessor_cons :
    Accessor ((k, v) :: rest) way leaf ↔ (way = [k.shown] ∧ leaf = isLeaf v) ∨
      (∃ inner tail, v = .map inner ∧ way = k.shown :: tail ∧ Accessor inner tail leaf) ∨
      Accessor rest way leaf := by
  constructor
  · intro h
    cases h with
    | here hmem =>
      rcases List.mem_cons.mp hmem with heq | hmem
      · obtain ⟨rfl, rfl⟩ := Prod.mk.inj heq
        exact .inl ⟨rfl, rfl⟩
      · exact .inr (.inr (.here hmem))
    | deeper hmem hinner =>
      rcases List.mem_cons.mp hmem with heq | hmem
      · obtain ⟨rfl, rfl⟩ := Prod.mk.inj heq
        exact .inr (.inl ⟨_, _, rfl, rfl, hinner⟩)
      · exact .inr (.inr (.deeper hmem hinner))
  · rintro (⟨rfl, rfl⟩ | ⟨inner, tail, rfl, rfl, hinner⟩ | h)
    · exact .here List.mem_cons_self
    · exact .deeper List.mem_cons_self hinner
    · cases h with
      | here hmem => exact .here (List.mem_cons_of_mem _ hmem)
      | deeper hmem hinner => exact .deeper (List.mem_cons_of_mem _ hmem) hinner

theorem Accessor.ne_nil (h : Accessor entries way leaf) : way ≠ [] := by
  cases h <;> simp

end Entries

private theorem waysOf?_of_isLeaf {v : Value} (hleaf : isLeaf v = true) (hv : v ≠ .enclosing true)
    (base : List String) : waysOf? base v = some [] := by
  cases v with
  | map inner => cases hleaf
  | enclosing isMap =>
    cases isMap with
    | true => exact absurd rfl hv
    | false => rfl
  | _ => rfl

/-- The ways below `base` are the accessors of a mapping. There are none exactly if a mapping in it
holds itself. -/
def Lists (base : List String) (entries : List (Value × Value)) :
    Option (List (List String × Bool)) → Prop
  | none => Inside (.enclosing true) entries
  | some ways => ¬Inside (.enclosing true) entries ∧
      ∀ p leaf, (p, leaf) ∈ ways ↔ ∃ way, p = base ++ way ∧ Accessor entries way leaf

theorem waysOfEntries?_cons (base : List String) (k v : Value) (rest : List (Value × Value)) :
    waysOfEntries? base ((k, v) :: rest) = (waysOf? (base ++ [k.shown]) v).bind fun inner =>
      (waysOfEntries? base rest).map fun ways => (base ++ [k.shown], isLeaf v) ::
        (inner ++ ways) := by
  rw [waysOfEntries?.eq_def]
  dsimp only
  cases waysOf? (base ++ [k.shown]) v with
  | none => rfl
  | some inner =>
    cases waysOfEntries? base rest with
    | none => rfl
    | some ways => cases v <;> rfl

private theorem lists_cons_leaf {base : List String} {k v : Value} {rest : List (Value × Value)}
    (hleaf : isLeaf v = true) (hrest : Lists base rest (waysOfEntries? base rest)) :
    Lists base ((k, v) :: rest) (waysOfEntries? base ((k, v) :: rest)) := by
  have hinner : ∀ inner, v ≠ .map inner := by
    rintro inner rfl
    cases hleaf
  rw [waysOfEntries?_cons]
  by_cases hv : v = .enclosing true
  · subst hv
    exact .here List.mem_cons_self
  · rw [waysOf?_of_isLeaf hleaf hv, Option.bind_some]
    cases hways : waysOfEntries? base rest with
    | none =>
      rw [hways] at hrest
      exact inside_cons.mpr (.inr (.inr hrest))
    | some ways =>
      rw [hways] at hrest
      obtain ⟨hfinite, hmem⟩ := hrest
      constructor
      · simp [inside_cons, hv, hinner, hfinite]
      · intro p leaf
        simp only [List.nil_append, List.mem_cons, Prod.mk.injEq, hmem, accessor_cons, hinner,
          false_and, exists_false, false_or, and_or_left, exists_or]
        refine or_congr_left ⟨?_, ?_⟩
        · rintro ⟨rfl, rfl⟩
          exact ⟨_, rfl, rfl, rfl⟩
        · rintro ⟨way, rfl, rfl, rfl⟩
          exact ⟨rfl, rfl⟩

private theorem lists_cons_map {base : List String} {k : Value} {inner rest : List (Value × Value)}
    (hinner : Lists (base ++ [k.shown]) inner (waysOfEntries? (base ++ [k.shown]) inner))
    (hrest : Lists base rest (waysOfEntries? base rest)) :
    Lists base ((k, .map inner) :: rest) (waysOfEntries? base ((k, .map inner) :: rest)) := by
  rw [waysOfEntries?_cons, waysOf?]
  cases hin : waysOfEntries? (base ++ [k.shown]) inner with
  | none =>
    rw [hin] at hinner
    exact .deeper List.mem_cons_self hinner
  | some below =>
    rw [hin] at hinner
    obtain ⟨hfiniteInner, hmemInner⟩ := hinner
    rw [Option.bind_some]
    cases hways : waysOfEntries? base rest with
    | none =>
      rw [hways] at hrest
      exact inside_cons.mpr (.inr (.inr hrest))
    | some ways =>
      rw [hways] at hrest
      obtain ⟨hfinite, hmem⟩ := hrest
      constructor
      · simp [inside_cons, hfiniteInner, hfinite]
      · intro p leaf
        simp only [List.mem_cons, List.mem_append, Prod.mk.injEq, hmem, hmemInner, accessor_cons,
          and_or_left, exists_or]
        refine or_congr ⟨?_, ?_⟩ (or_congr_left ⟨?_, ?_⟩)
        · rintro ⟨rfl, rfl⟩
          exact ⟨_, rfl, rfl, rfl⟩
        · rintro ⟨way, rfl, rfl, rfl⟩
          exact ⟨rfl, rfl⟩
        · rintro ⟨way, rfl, haccessor⟩
          exact ⟨k.shown :: way, by simp, inner, way, rfl, rfl, haccessor⟩
        · rintro ⟨way, rfl, inner', tail, heq, rfl, haccessor⟩
          obtain rfl := Value.map.inj heq
          exact ⟨tail, by simp, haccessor⟩

theorem lists_waysOfEntries? : ∀ (entries : List (Value × Value)) (base : List String),
    Lists base entries (waysOfEntries? base entries)
  | [], base => by simp [waysOfEntries?, Lists]
  | (k, v) :: rest, base => by
    have hrest := lists_waysOfEntries? rest base
    cases v with
    | map inner => exact lists_cons_map (lists_waysOfEntries? inner (base ++ [k.shown])) hrest
    | _ => exact lists_cons_leaf rfl hrest

/-- Each accessor passes through the values on its way. -/
theorem Accessor.of_start {entries : List (Value × Value)} {way start : List String} {leaf : Bool}
    (h : Accessor entries way leaf) (hne : start ≠ []) (hstart : start <+: way) :
    ∃ leaf', Accessor entries start leaf' := by
  induction h generalizing start with
  | @here k v entries hmem =>
    obtain ⟨segment, tail, rfl⟩ := List.exists_cons_of_ne_nil hne
    obtain ⟨rfl, htail⟩ := List.cons_prefix_cons.mp hstart
    rw [List.prefix_nil.mp htail]
    exact ⟨_, .here hmem⟩
  | @deeper k inner entries way leaf hmem _ ih =>
    obtain ⟨segment, tail, rfl⟩ := List.exists_cons_of_ne_nil hne
    obtain ⟨rfl, htail⟩ := List.cons_prefix_cons.mp hstart
    by_cases hempty : tail = []
    · rw [hempty]
      exact ⟨_, .here hmem⟩
    · obtain ⟨leaf', haccessor⟩ := ih hempty htail
      exact ⟨leaf', .deeper hmem haccessor⟩

/-- One step of a walk ends behind something that is no mapping, or goes on in a mapping. -/
theorem walks_cons {segment : String} {rest : List String} {entries : List (Value × Value)} :
    walks (segment :: rest) entries = true ↔
      (∃ k v, (k, v) ∈ entries ∧ k.shown = segment ∧ isLeaf v = true) ∨
      ∃ k inner, (k, .map inner) ∈ entries ∧ k.shown = segment ∧ walks rest inner = true := by
  simp only [walks, List.any_eq_true, Bool.and_eq_true, beq_iff_eq, Prod.exists]
  constructor
  · rintro ⟨k, v, hmem, hshown, hwalks⟩
    cases v with
    | map inner => exact .inr ⟨k, inner, hmem, hshown, hwalks⟩
    | _ => exact .inl ⟨k, _, hmem, hshown, rfl⟩
  · rintro (⟨k, v, hmem, hshown, hleaf⟩ | ⟨k, inner, hmem, hshown, hwalks⟩)
    · refine ⟨k, v, hmem, hshown, ?_⟩
      cases v with
      | map inner => cases hleaf
      | _ => rfl
    · exact ⟨k, .map inner, hmem, hshown, hwalks⟩

/-- A chain can be walked if it is an accessor, or goes on behind one that leads to no mapping. -/
theorem walks_iff {chain : List String} {entries : List (Value × Value)} :
    walks chain entries = true ↔ chain = [] ∨ (∃ leaf, Accessor entries chain leaf) ∨
      ∃ way, way <+: chain ∧ Accessor entries way true := by
  induction chain generalizing entries with
  | nil => simp [walks]
  | cons segment rest ih =>
    rw [walks_cons]
    constructor
    · rintro (⟨k, v, hmem, rfl, hleaf⟩ | ⟨k, inner, hmem, rfl, hwalks⟩)
      · exact .inr (.inr ⟨[k.shown], by simp, hleaf ▸ .here hmem⟩)
      · rcases ih.mp hwalks with rfl | ⟨leaf, haccessor⟩ | ⟨way, hway, haccessor⟩
        · exact .inr (.inl ⟨_, .here hmem⟩)
        · exact .inr (.inl ⟨leaf, .deeper hmem haccessor⟩)
        · exact .inr (.inr ⟨_, List.cons_prefix_cons.mpr ⟨rfl, hway⟩, .deeper hmem haccessor⟩)
    · rintro (hnil | ⟨leaf, haccessor⟩ | ⟨way, hway, haccessor⟩)
      · cases hnil
      · cases haccessor with
        | @here k v _ hmem =>
          cases v with
          | map inner => exact .inr ⟨k, inner, hmem, rfl, rfl⟩
          | _ => exact .inl ⟨k, _, hmem, rfl, rfl⟩
        | deeper hmem haccessor =>
          exact .inr ⟨_, _, hmem, rfl, ih.mpr (.inr (.inl ⟨leaf, haccessor⟩))⟩
      · obtain ⟨leaf, hleaf, haccessor⟩ : ∃ leaf, leaf = true ∧ Accessor entries way leaf :=
          ⟨true, rfl, haccessor⟩
        cases haccessor with
        | here hmem =>
          obtain ⟨hshown, -⟩ := List.cons_prefix_cons.mp hway
          exact .inl ⟨_, _, hmem, hshown, hleaf⟩
        | @deeper _ _ _ tail _ hmem haccessor =>
          obtain ⟨hshown, htail⟩ := List.cons_prefix_cons.mp hway
          subst hleaf
          exact .inr ⟨_, _, hmem, hshown, ih.mpr (.inr (.inr ⟨tail, htail, haccessor⟩))⟩

structure Environment.Describes (e : Environment) (data : List (Value × Value)) : Prop where
  paths : ∀ way, way ∈ e.paths ↔ ∃ leaf, Accessor data way leaf
  leaves : ∀ way, way ∈ e.leaves ↔ Accessor data way true

namespace Environment.Describes

variable {e : Environment} {data : List (Value × Value)} (h : e.Describes data)
include h

theorem leaves_subset : e.leaves ⊆ e.paths := by
  intro way hway
  rw [h.paths]
  exact ⟨true, (h.leaves way).mp hway⟩

theorem mem_paths_of_start {way start : List String} (hway : way ∈ e.paths) (hne : start ≠ [])
    (hstart : start <+: way) : start ∈ e.paths := by
  obtain ⟨leaf, haccessor⟩ := (h.paths way).mp hway
  exact (h.paths start).mpr (haccessor.of_start hne hstart)

/-- Following a chain from the end of `way` stops at the first leaf; no way to a leaf leaves what is
known. -/
theorem allowsFrom_iff {way chain : List String} :
    e.allowsFrom way chain = true ↔ chain = [] ∨ way ++ chain ∈ e.paths ∨
      ∃ start, start ≠ [] ∧ start <+: chain ∧ way ++ start ∈ e.leaves := by
  induction chain generalizing way with
  | nil => simp [allowsFrom]
  | cons segment rest ih =>
    have happend : ∀ tail, way ++ segment :: tail = way ++ [segment] ++ tail := by simp
    -- whatever is known further on is known here
    have hhere : ∀ tail, way ++ segment :: tail ∈ e.paths → way ++ [segment] ∈ e.paths := by
      intro tail hmem
      apply h.mem_paths_of_start hmem (by simp)
      rw [happend tail]
      exact List.prefix_append _ _
    unfold allowsFrom
    dsimp only
    split_ifs with hleaf hpath
    · have hmem : way ++ [segment] ∈ e.leaves := by simpa using hleaf
      exact iff_of_true rfl (.inr (.inr ⟨[segment], by simp, by simp, hmem⟩))
    · have hmem : way ++ [segment] ∈ e.paths := by simpa using hpath
      have hnot : way ++ [segment] ∉ e.leaves := by simpa using hleaf
      rw [ih, happend rest]
      constructor
      · rintro (rfl | hrest | ⟨start, hne, hstart, hend⟩)
        · exact .inr (.inl (by simpa using hmem))
        · exact .inr (.inl hrest)
        · refine .inr
            (.inr ⟨segment :: start, by simp, List.cons_prefix_cons.mpr ⟨rfl, hstart⟩, ?_⟩)
          rw [happend start]
          exact hend
      · rintro (hnil | hrest | ⟨start, hne, hstart, hend⟩)
        · cases hnil
        · exact .inr (.inl hrest)
        · obtain ⟨first, tail, rfl⟩ := List.exists_cons_of_ne_nil hne
          obtain ⟨rfl, htail⟩ := List.cons_prefix_cons.mp hstart
          have htailNe : tail ≠ [] := by
            rintro rfl
            exact hnot hend
          exact .inr (.inr ⟨tail, htailNe, htail, happend tail ▸ hend⟩)
    · have hnot : way ++ [segment] ∉ e.paths := by simpa using hpath
      refine iff_of_false (by simp) ?_
      rintro (hnil | hrest | ⟨start, hne, hstart, hend⟩)
      · cases hnil
      · exact hnot (hhere rest hrest)
      · obtain ⟨first, tail, rfl⟩ := List.exists_cons_of_ne_nil hne
        obtain ⟨rfl, -⟩ := List.cons_prefix_cons.mp hstart
        exact hnot (hhere tail (h.leaves_subset hend))

theorem allows_iff {chain : List String} :
    e.allows chain = true ↔ chain = [] ∨ chain ∈ e.paths ∨
      ∃ start, start ≠ [] ∧ start <+: chain ∧ start ∈ e.leaves := by
  unfold allows
  rw [h.allowsFrom_iff, List.nil_append]
  simp only [List.nil_append]

theorem allows_eq_walks (chain : List String) : e.allows chain = walks chain data := by
  rw [Bool.eq_iff_iff, h.allows_iff, walks_iff, h.paths]
  refine or_congr_right (or_congr_right ⟨?_, ?_⟩)
  · rintro ⟨start, -, hstart, hend⟩
    exact ⟨start, hstart, (h.leaves start).mp hend⟩
  · rintro ⟨way, hway, haccessor⟩
    exact ⟨way, haccessor.ne_nil, hway, (h.leaves way).mpr haccessor⟩

private theorem allows_start {chain start : List String} (hstart : start <+: chain)
    (hchain : e.allows chain = true) : e.allows start = true := by
  by_cases hne : start = []
  · rw [hne]
    rfl
  rcases h.allows_iff.mp hchain with rfl | hpath | ⟨way, hway, hprefix, hleaf⟩
  · exact absurd (List.prefix_nil.mp hstart) hne
  · exact h.allows_iff.mpr (.inr (.inl (h.mem_paths_of_start hpath hne hstart)))
  · rcases List.prefix_or_prefix_of_prefix hstart hprefix with hshorter | hlonger
    · exact h.allows_iff.mpr
        (.inr (.inl (h.mem_paths_of_start (h.leaves_subset hleaf) hne hshorter)))
    · exact h.allows_iff.mpr (.inr (.inr ⟨way, hway, hlonger, hleaf⟩))

end Environment.Describes

/-- A key that may stand at the root of a theme: text, or bytes that are text in UTF-8. -/
def isRootKey : Value → Bool
  | .text _ => true
  | .bytes b => (Text.decode b).toOption.isSome
  | _ => false

theorem textKeys_foreign (data : List (Value × Value)) :
    (textKeys data).2 = [] ↔ ∀ entry ∈ data, isRootKey entry.1 = true := by
  induction data with
  | nil => simp [textKeys]
  | cons entry rest ih =>
    obtain ⟨k, v⟩ := entry
    rw [List.forall_mem_cons, ← ih]
    cases k with
    | text s => simp [textKeys, isRootKey]
    | bytes b => cases hb : Text.decode b <;> simp [textKeys, isRootKey, hb, Except.toOption]
    | _ => simp [textKeys, isRootKey]

/-- A theme is made of data whose root has proper keys and in which no mapping holds itself. It
lists their accessors. -/
theorem ofData_spec (path : Path) (data : List (Value × Value)) :
    (∃ e, Environment.ofData path data = .ok e ∧ e.Describes data ∧ ¬Inside (.enclosing true) data ∧
        ∀ entry ∈ data, isRootKey entry.1 = true) ∨
      (∃ f, Environment.ofData path data = .error f) ∧
        (Inside (.enclosing true) data ∨ ¬∀ entry ∈ data, isRootKey entry.1 = true) := by
  have hlists := lists_waysOfEntries? data []
  have hforeign := textKeys_foreign data
  unfold Environment.ofData
  cases hways : waysOfEntries? [] data with
  | none =>
    rw [hways] at hlists
    exact .inr ⟨⟨_, rfl⟩, .inl hlists⟩
  | some ways =>
    rw [hways] at hlists
    obtain ⟨hfinite, hmem⟩ := hlists
    cases hkeys : textKeys data with
    | mk entries foreign =>
      rw [hkeys] at hforeign
      cases foreign with
      | cons key keys => exact .inr ⟨⟨_, rfl⟩, .inr fun hall => by simpa using hforeign.mpr hall⟩
      | nil =>
        refine .inl ⟨_, rfl, ⟨fun way => ?_, fun way => ?_⟩, hfinite, hforeign.mp rfl⟩
        · simp [hmem]
        · simp [hmem]

/-- A theme is made exactly of data whose root has proper keys and in which no mapping holds itself.
The chains that it allows are those that can be walked in the data. Its accessors hold the leaves
and all that lies on the way to an accessor; the root itself is none. With a chain, all that it
starts with is allowed. -/
theorem theme_allows_walks (path : Path) (data : List (Value × Value)) :
    ((∃ e, Environment.ofData path data = .ok e) ↔
      ¬Inside (.enclosing true) data ∧ ∀ entry ∈ data, isRootKey entry.1 = true) ∧
    ∀ e, Environment.ofData path data = .ok e →
      (∀ chain, e.allows chain = walks chain data) ∧
      (∀ way ∈ e.paths, ∀ start, start ≠ [] → start <+: way → start ∈ e.paths) ∧
      e.leaves ⊆ e.paths ∧
      ∀ chain start, start <+: chain → e.allows chain = true → e.allows start = true := by
  obtain ⟨e, hok, hdescribes, hproper⟩ | ⟨⟨f, herror⟩, hnot⟩ := ofData_spec path data
  · constructor
    · exact iff_of_true ⟨e, hok⟩ hproper
    · intro e' hok'
      obtain rfl : e = e' := Except.ok.inj (hok.symm.trans hok')
      refine ⟨hdescribes.allows_eq_walks, ?_, hdescribes.leaves_subset, ?_⟩
      · intro way hway start hne hstart
        exact hdescribes.mem_paths_of_start hway hne hstart
      · intro chain start hstart hchain
        exact hdescribes.allows_start hstart hchain
  · constructor
    · refine iff_of_false ?_ ?_
      · rintro ⟨e, hok⟩
        rw [herror] at hok
        cases hok
      · rintro ⟨hfinite, hkeys⟩
        rcases hnot with hinside | hforeign
        · exact hfinite hinside
        · exact hforeign hkeys
    · intro e hok
      rw [herror] at hok
      cases hok

/-- Two keys are shown alike, the number and the text `1`. Behind the text anything goes, although
there is a mapping behind the number. -/
theorem theme_allows_walks_alike :
    let data : List (Value × Value) :=
      [(.text "a", .map [(.int 1, .map [(.bool true, .map [])]), (.text "1", .null)]),
        (.text "b", .map [])]
    ∃ e, Environment.ofData ⟨true, ["t.json"]⟩ data = .ok e ∧
      e.paths = [["a"], ["a", "1"], ["a", "1", "True"], ["b"]] ∧ e.leaves = [["a", "1"]] ∧
      walks ["a", "1", "c", "d"] data = true ∧ e.allows ["a", "1", "c", "d"] = true ∧
      walks ["b", "c"] data = false ∧ e.allows ["b", "c"] = false ∧
      e.allows ["a", "1", "c"] = true := by
  intro data
  have hsets : (Environment.ofData ⟨true, ["t.json"]⟩ data).toOption.map
      (fun e => (e.paths, e.leaves)) =
      some ([["a"], ["a", "1"], ["a", "1", "True"], ["b"]], [["a", "1"]]) := by
    decide +kernel
  have hlong : walks ["a", "1", "c", "d"] data = true := by decide +kernel
  have hunknown : walks ["b", "c"] data = false := by decide +kernel
  cases hmade : Environment.ofData ⟨true, ["t.json"]⟩ data with
  | error f =>
    rw [hmade] at hsets
    cases hsets
  | ok e =>
    rw [hmade] at hsets
    obtain ⟨hpaths, hleaves⟩ := Prod.mk.inj (Option.some.inj hsets)
    obtain ⟨hwalks, -, -, hstart⟩ := (theme_allows_walks ⟨true, ["t.json"]⟩ data).2 e hmade
    have hallows : e.allows ["a", "1", "c", "d"] = true := by rw [hwalks, hlong]
    have hforbids : e.allows ["b", "c"] = false := by rw [hwalks, hunknown]
    exact ⟨e, rfl, hpaths, hleaves, hlong, hallows, hunknown, hforbids,
      hstart _ _ ⟨["d"], rfl⟩ hallows⟩

end ThemedCss.Theme
