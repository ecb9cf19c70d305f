import Mathlib.Algebra.Order.BigOperators.Group.List
import Mathlib.Algebra.Order.Group.Nat
import Mathlib.Data.Finset.Prod
import ThemedCss.Proofs.Dependency.Program

/-! The answers given for names are those of the rules, however exports lead to each other. -/
namespace ThemedCss.Dependency
open ThemedCss.Syntax ThemedCss.Scope ThemedCss.Style

/-- The answer has no fault exactly if the question leads somewhere, and then it is the node the
question leads to. -/
def Answer.Tells (a : Answer) (g : Ground) (q : Question) : Prop :=
  ∀ k, Means g q k ↔ a.fault = none ∧ k = a.key

namespace Answer

variable {g : Ground}

/-- An answer that names a node outright. -/
theorem tells_of_eq {q : Question} {k : Key} (h : ∀ j, Means g q j ↔ j = k) :
    Tells ⟨k, [], none⟩ g q := by
  intro j
  simp [h]

/-- The first star export that is not dynamic answers for all of them. -/
theorem tells_firstKnown {seen : List (Path × String)} {p : Path} {n : String}
    {ask : String → Answer} {sources : List String}
    (h : ∀ source ∈ sources, (ask source).Tells g (.imported seen p source n)) :
    (firstKnown ask sources).Tells g (.starred seen p n sources) := by
  induction sources with
  | nil => exact tells_of_eq fun k => means_starred_nil
  | cons source rest ih =>
    have hs := h source List.mem_cons_self
    have hr := ih fun s hs => h s (List.mem_cons_of_mem _ hs)
    intro k
    rw [means_starred_cons, hs, hs, hr, firstKnown]
    by_cases hd : (ask source).key = .dynamic
    · simp only [hd, ne_eq, not_true, if_false, Option.or_eq_none_iff]
      constructor
      · rintro (⟨⟨-, rfl⟩, hk⟩ | ⟨⟨hf, -⟩, hf', hk⟩)
        · exact absurd rfl hk
        · exact ⟨⟨hf, hf'⟩, hk⟩
      · rintro ⟨⟨hf, hf'⟩, hk⟩
        exact .inr ⟨⟨hf, trivial⟩, hf', hk⟩
    · simp only [ne_eq, hd, Ne.symm hd, not_false_eq_true, if_true, and_false, false_and, or_false]
      constructor
      · exact fun h => h.1
      · rintro ⟨hf, rfl⟩
        exact ⟨⟨hf, rfl⟩, hd⟩

end Answer

variable {program : Program} {g : Ground}

/-- An import is answered by the module it leads to, or by what is known of packages. -/
theorem tells_importKey (hl : program.Loaded g) {seen : List (Path × String)} {p : Path}
    {m : Module} {source n : String} {ask : Path → String → Answer} (hp : p ∈ Table.keys program)
    (hm : g.module? p = some m) (hs : source ∈ m.sources)
    (ha : ∀ q ∈ Table.keys program, (ask q n).Tells g (.exported seen q n)) :
    (importKey g.pureModules ask m source n).Tells g (.imported seen p source n) := by
  intro k
  rw [means_imported, importKey]
  by_cases hrel : Module.isRelative source
  · rw [if_pos hrel, if_pos hrel, hl.link hp hm hs hrel]
    cases hlink : g.link p source with
    | missing => simp [Answer.dynamic]
    | faulty f => simp
    | found q => exact ha q (hl.target hp hm hs hrel hlink) k
  · rw [if_neg hrel, if_neg hrel]
    by_cases hpure : source ∈ g.pureModules <;> simp [hpure, Answer.dynamic]

/-- The names under which modules of a program export something of another module. -/
def Program.reexportedNames (program : Program) : List String :=
  program.flatMap fun (_, m) => (m.map fun m => m.exports.filterMap fun
    | (_, .reexported _ name) => some name
    | _ => none).getD []

theorem Program.mem_reexportedNames {p : Path} {m : Module} {n source name : String}
    (hm : program.module? p = some m) (h : m.exports.get? n = some (.reexported source name)) :
    name ∈ program.reexportedNames := by
  obtain ⟨o, ho, rfl⟩ : ∃ o, Table.get? program p = some o ∧ o = some m := by
    simpa [module?, Option.join_eq_some_iff] using hm
  refine List.mem_flatMap.mpr ⟨(p, some m), Table.mem_of_get? ho, ?_⟩
  exact List.mem_filterMap.mpr ⟨(n, .reexported source name), Table.mem_of_get? h, rfl⟩

/-- The exports that a question for the name `n` can lead to. -/
def Program.askable (program : Program) (n : String) : Finset (Path × String) :=
  (Table.keys program).toFinset ×ˢ (n :: program.reexportedNames).toFinset

theorem Program.card_askable_lt (program : Program) (n : String) :
    (program.askable n).card < exportDepth program := by
  have hnames : program.reexportedNames.length ≤
      (program.map fun (_, m) => ((m.map (·.exports.length)).getD 0)).sum := by
    rw [reexportedNames, List.length_flatMap]
    refine List.sum_le_sum fun ⟨_, m⟩ _ => ?_
    cases m with
    | none => simp
    | some m => exact List.length_filterMap_le _ _
  have hkeys : (Table.keys program).toFinset.card ≤ program.length :=
    (List.toFinset_card_le _).trans (by simp [Table.keys])
  have hcard : (n :: program.reexportedNames).toFinset.card ≤
      (program.map fun (_, m) => ((m.map (·.exports.length)).getD 0)).sum + 1 :=
    (List.toFinset_card_le _).trans (by simpa using hnames)
  rw [askable, Finset.card_product, exportDepth]
  exact Nat.lt_succ_of_le (Nat.mul_le_mul hkeys hcard)

/-- With a level for each export that can still come up, an export is answered as the rules say. -/
theorem tells_exportKey_of_depth (hl : program.Loaded g) (n₀ : String) {depth : Nat}
    {seen : List (Path × String)} {p : Path} {n : String} (hp : p ∈ Table.keys program)
    (hn : n ∈ n₀ :: program.reexportedNames)
    (hd : (program.askable n₀ \ seen.toFinset).card < depth) :
    (exportKey program g.pureModules depth seen p n).Tells g (.exported seen p n) := by
  induction depth generalizing seen p n with
  | zero => omega
  | succ depth ih =>
    unfold exportKey
    by_cases hseen : (p, n) ∈ seen
    · rw [if_pos (by simpa using hseen)]
      exact Answer.tells_of_eq fun k => means_exported_of_mem hseen
    rw [if_neg (by simpa using hseen), hl.module p hp]
    -- asking on from here, one export fewer can come up
    have hnext : (program.askable n₀ \ ((p, n) :: seen).toFinset).card < depth := by
      have hin : (p, n) ∈ program.askable n₀ \ seen.toFinset := by
        simpa [Program.askable, hseen, hp] using hn
      have hlt := Finset.card_erase_lt_of_mem hin
      rw [List.toFinset_cons, Finset.sdiff_insert]
      omega
    cases hm : g.module? p with
    | none => exact Answer.tells_of_eq fun k => means_exported_of_none hm
    | some m =>
      intro k
      rw [means_exported hseen hm]
      dsimp only
      cases he : m.exports.get? n with
      | none =>
        refine Answer.tells_firstKnown (fun source hs => ?_) k
        exact tells_importKey hl hp hm (Module.mem_sources_of_mem_stars hs) fun q hq =>
          ih hq hn hnext
      | some origin =>
        cases origin with
        | own own =>
          by_cases hb : own ∈ m.bindings.keys
          · simp [hb, Table.has_iff.mpr hb]
          · simp [hb, Answer.dynamic]
        | reexported source name =>
          have hn' :=
            List.mem_cons_of_mem n₀ (Program.mem_reexportedNames ((hl.module p hp).trans hm) he)
          exact tells_importKey hl hp hm (Module.mem_sources_of_reexported he)
            (fun q hq => ih hq hn' hnext) k

theorem tells_exportKey (hl : program.Loaded g) {p : Path} {n : String}
    (hp : p ∈ Table.keys program) :
    (exportKey program g.pureModules (exportDepth program) [] p n).Tells g (.exported [] p n) := by
  refine tells_exportKey_of_depth hl n hp List.mem_cons_self ?_
  simpa using program.card_askable_lt n

end ThemedCss.Dependency
