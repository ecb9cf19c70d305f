import Mathlib.Logic.Function.Iterate
import Mathlib.Logic.Relation
import ThemedCss.Dependency.Graph
import ThemedCss.Proofs.Table

/-! The nodes from which a node can be reached. -/
namespace ThemedCss.Dependency.Graph
open Relation (ReflTransGen)

variable {κ : Type}

/-- Some entry of the graph says that `k` depends on `d`. -/
def Edge (g : Graph κ) (k d : κ) : Prop :=
  ∃ deps, (k, deps) ∈ g ∧ d ∈ deps

variable {g : Graph κ} {target k : κ}

namespace Search

variable {s : Search κ}

/-- The target can be reached from all that is found, and only the dependants of what is in the
queue may be missing. -/
structure Sound (g : Graph κ) (target : κ) (s : Search κ) : Prop where
  target_mem : target ∈ s.found
  reachable : ∀ k ∈ s.found, ReflTransGen g.Edge k target
  queued : ∀ d ∈ s.queue, d ∈ s.found
  closed : ∀ k d, g.Edge k d → d ∈ s.found → d ∉ s.queue → k ∈ s.found

theorem sound_start (g : Graph κ) (target : κ) : (start target).Sound g target where
  target_mem := List.mem_singleton_self target
  reachable := by
    intro k hk
    rw [List.mem_singleton.mp hk]
  queued := fun _ hd => hd
  closed := fun _ _ _ hd hqueue => absurd hd hqueue

variable [DecidableEq κ]

theorem Sound.step (h : s.Sound g target) : (s.step g).Sound g target := by
  obtain ⟨queue, found⟩ := s
  cases queue with
  | nil => exact h
  | cons d queue =>
    obtain ⟨htarget, hreach, hqueue, hclosed⟩ := h
    refine ⟨List.mem_append_left _ htarget, ?reachable, ?queued, ?closed⟩
    case reachable =>
      intro k hk
      rcases List.mem_append.mp hk with hk | hk
      · exact hreach k hk
      · obtain ⟨-, hedge⟩ := mem_dependants.mp hk
        exact .head hedge (hreach d (hqueue d List.mem_cons_self))
    case queued =>
      intro e he
      rcases List.mem_append.mp he with he | he
      · exact List.mem_append_left _ (hqueue e (List.mem_cons_of_mem _ he))
      · exact List.mem_append_right _ he
    case closed =>
      intro k e hedge he hnot
      rw [Search.step, List.mem_append, not_or] at hnot
      by_cases hk : k ∈ found
      · exact List.mem_append_left _ hk
      · have hfound : e ∈ found := (List.mem_append.mp he).resolve_right hnot.2
        -- `e` waits no longer, so it is the node whose dependants were looked for
        obtain rfl : e = d := by
          by_contra hne
          exact hk (hclosed k e hedge hfound fun hmem => (List.mem_cons.mp hmem).elim hne hnot.1)
        exact List.mem_append_right _ (mem_dependants.mpr ⟨hk, hedge⟩)

/-- A run makes no more steps than there are nodes left, and ends with an empty queue. -/
theorem exists_iterate_eq_run (g : Graph κ) (s : Search κ) :
    ∃ n ≤ s.left g, ((step g)^[n] s).queue = [] ∧ ((step g)^[n] s).found = s.run g := by
  fun_induction run g s with
  | case1 s hempty => exact ⟨0, Nat.zero_le _, List.isEmpty_iff.mp hempty, rfl⟩
  | case2 s hne ih =>
    obtain ⟨n, hn, hqueue, hfound⟩ := ih
    have hlt := left_step_lt g (mt List.isEmpty_iff.mpr hne)
    exact ⟨n + 1, by omega, hqueue, hfound⟩

theorem Sound.iterate (h : s.Sound g target) (n : Nat) :
    ((Search.step g)^[n] s).Sound g target := by
  induction n generalizing s with
  | zero => exact h
  | succ n ih => exact ih h.step

end Search

variable [DecidableEq κ]

/-- The nodes found are exactly those from which the target can be reached. -/
theorem mem_reaching : k ∈ g.reaching target ↔ ReflTransGen g.Edge k target := by
  obtain ⟨n, -, hqueue, hfound⟩ := Search.exists_iterate_eq_run g (.start target)
  have hsound := (Search.sound_start g target).iterate n
  rw [reaching, ← hfound]
  constructor
  · exact hsound.reachable k
  · intro h
    induction h using ReflTransGen.head_induction_on with
    | refl => exact hsound.target_mem
    | head hedge _ ih =>
      apply hsound.closed _ _ hedge ih
      rw [hqueue]
      exact List.not_mem_nil

section Additions

variable {dynamic static : κ} {adds : List (κ × List κ)} {d : κ}

/-- What was said last about `k` is that it depends on `d`, among others. -/
def DependsOn (adds : List (κ × List κ)) (k d : κ) : Prop :=
  ∃ deps, Table.Last adds k deps ∧ d ∈ deps

/-- The roots of a graph depend on nothing until something is said about them. -/
theorem edge_insertAll_iff (hne : dynamic ≠ static) :
    Edge (Table.insertAll adds [(dynamic, []), (static, [])]) k d ↔ DependsOn adds k d := by
  have hnodup : (Table.keys [(dynamic, ([] : List κ)), (static, [])]).Nodup := by
    simpa [Table.keys] using hne
  constructor
  · rintro ⟨deps, hmem, hd⟩
    have hget := Table.get?_eq_some_of_mem (Table.nodup_keys_insertAll adds hnodup) hmem
    by_cases hk : k ∈ Table.keys adds
    · obtain ⟨last, hlast⟩ := Table.exists_last hk
      obtain rfl := Option.some.inj ((hlast.get?_insertAll _).symm.trans hget)
      exact ⟨last, hlast, hd⟩
    · rw [Table.get?_insertAll_of_not_mem hk] at hget
      have hroot := Table.mem_of_get? hget
      simp only [List.mem_cons, Prod.mk.injEq, List.not_mem_nil, or_false] at hroot
      obtain ⟨-, rfl⟩ | ⟨-, rfl⟩ := hroot <;> cases hd
  · rintro ⟨deps, hlast, hd⟩
    exact ⟨deps, Table.mem_of_get? (hlast.get?_insertAll _), hd⟩

/-- Before a search starts all nodes but the target are left, and the target waits. -/
theorem left_start_le (h : target ∈ Table.keys g) : (Search.start target).left g ≤ g.length := by
  obtain ⟨deps, hmem⟩ := Table.mem_keys.mp h
  have hlt : g.countP (fun e => !([target].contains e.1)) < g.length := by
    refine Nat.lt_of_le_of_ne List.countP_le_length fun hall => ?_
    have hne := List.countP_eq_length.mp hall _ hmem
    simp at hne
  exact hlt

/-- However a graph came about, the search comes to an end after one step for each node at most. It
finds the target and the nodes from which the target can be reached along what was said last about
each node. -/
theorem search_finds_dependants (hne : dynamic ≠ static) (adds : List (κ × List κ)) :
    let g : Graph κ := Table.insertAll adds [(dynamic, []), (static, [])]
    (∃ n ≤ g.length, ((Search.step g)^[n] (.start dynamic)).queue = [] ∧
      ((Search.step g)^[n] (.start dynamic)).found = g.reaching dynamic) ∧
    ∀ k, k ∈ g.reaching dynamic ↔
      k = dynamic ∨ (k ∈ Table.keys adds ∧ ReflTransGen (DependsOn adds) k dynamic) := by
  intro g
  constructor
  · obtain ⟨n, hn, hqueue, hfound⟩ := Search.exists_iterate_eq_run g (.start dynamic)
    have hkey : dynamic ∈ Table.keys g := Table.mem_keys_insertAll.mpr (.inr (by simp [Table.keys]))
    exact ⟨n, hn.trans (left_start_le hkey), hqueue, hfound⟩
  · intro k
    have hedges : g.Edge = DependsOn adds := by
      funext k d
      exact propext (edge_insertAll_iff hne)
    rw [mem_reaching, hedges]
    constructor
    · intro h
      rcases h.cases_head with rfl | ⟨d, ⟨deps, hlast, hd⟩, -⟩
      · exact .inl rfl
      · exact .inr ⟨hlast.mem_keys, h⟩
    · rintro (rfl | ⟨-, h⟩)
      · exact .refl
      · exact h

end Additions

/-- `a` and `b` depend on each other, and `b` is added again; `c` depends on itself and on a node
that is never added. -/
def circularAdds : List (String × List String) :=
  [("a", ["b"]), ("b", ["a"]), ("c", ["c", "x"]), ("b", ["a", "<dynamic>"]), ("<static>", ["c"]),
    ("<dynamic>", ["a"])]

theorem search_finds_dependants_circular :
    let g : Graph String := Table.insertAll circularAdds [("<dynamic>", []), ("<static>", [])]
    "a" ∈ g.reaching "<dynamic>" ∧ ¬ReflTransGen (DependsOn circularAdds) "c" "<dynamic>" := by
  intro g
  have hne : "<dynamic>" ≠ "<static>" := by decide
  obtain ⟨-, hmem⟩ := search_finds_dependants hne circularAdds
  have ha : DependsOn circularAdds "a" "b" := ⟨["b"], ⟨[], _, rfl, by decide⟩, by decide⟩
  have hb : DependsOn circularAdds "b" "<dynamic>" :=
    ⟨["a", "<dynamic>"], ⟨circularAdds.take 3, _, rfl, by decide⟩, by decide⟩
  refine ⟨(hmem "a").mpr (.inr ⟨by decide, .head ha (.single hb)⟩), ?_⟩
  intro hpath
  have hc : "c" ∈ g.reaching "<dynamic>" := (hmem "c").mpr (.inr ⟨by decide, hpath⟩)
  have hnot : "c" ∉ g.reaching "<dynamic>" := by decide +kernel
  exact hnot hc

end ThemedCss.Dependency.Graph
