import ThemedCss.Table

/-! Dependency graphs, and what depends on a node. -/
namespace ThemedCss.Dependency

abbrev Graph (κ : Type) := Table κ (List κ)

namespace Graph

variable {κ : Type} [DecidableEq κ]

/-- The nodes that are not found yet and depend on `d` directly. -/
def dependants (g : Graph κ) (found : List κ) (d : κ) : List κ :=
  (g.filter fun e => !found.contains e.1 && e.2.contains d).map (·.1)

theorem mem_dependants {g : Graph κ} {found : List κ} {d k : κ} :
    k ∈ g.dependants found d ↔ k ∉ found ∧ ∃ deps, (k, deps) ∈ g ∧ d ∈ deps := by
  simp only [dependants, List.mem_map, List.mem_filter, Bool.and_eq_true, Bool.not_eq_true',
    List.contains_eq_mem, decide_eq_false_iff_not, decide_eq_true_eq]
  constructor
  · rintro ⟨e, ⟨he, hk, hd⟩, rfl⟩
    exact ⟨hk, e.2, he, hd⟩
  · rintro ⟨hk, deps, he, hd⟩
    exact ⟨(k, deps), ⟨he, hk, hd⟩, rfl⟩

/-- The nodes found so far, and those among them whose dependants are still to be looked for. -/
structure Search (κ : Type) where
  queue : List κ
  found : List κ

namespace Search

def start (target : κ) : Search κ :=
  ⟨[target], [target]⟩

/-- Look for the dependants of the first node in the queue. -/
def step (g : Graph κ) : Search κ → Search κ
  | ⟨[], found⟩ => ⟨[], found⟩
  | ⟨d :: queue, found⟩ =>
    let new := g.dependants found d
    ⟨queue ++ new, found ++ new⟩

/-- The nodes that are not found yet or wait in the queue. A step takes one away. -/
def left (g : Graph κ) (s : Search κ) : Nat :=
  g.countP (fun e => !s.found.contains e.1) + s.queue.length

/-- What is found goes from the nodes not found yet to the queue. -/
theorem countP_dependants (g : Graph κ) (found : List κ) (d : κ) :
    g.countP (fun e => !(found ++ g.dependants found d).contains e.1) +
      (g.dependants found d).length ≤ g.countP (fun e => !found.contains e.1) := by
  rw [g.countP_eq_countP_filter_add (fun e => !found.contains e.1) (fun e => e.2.contains d),
    List.countP_filter, List.countP_filter, Nat.add_comm]
  refine Nat.add_le_add ?_ (List.countP_mono_left fun e he hnew => ?_)
  · have hlength : (g.dependants found d).length = g.countP fun e => !found.contains e.1 &&
        e.2.contains d := by
      rw [dependants, List.length_map, List.countP_eq_length_filter]
    exact Nat.le_of_eq hlength
  · have hmem : d ∈ e.2 → e.1 ∉ found → e.1 ∈ g.dependants found d :=
      fun hd hk => mem_dependants.mpr ⟨hk, e.2, he, hd⟩
    simp only [Bool.not_eq_true', List.contains_eq_mem, decide_eq_false_iff_not,
      List.mem_append, not_or, Bool.and_eq_true] at hnew ⊢
    exact ⟨hnew.1, fun hd => hnew.2 (hmem hd hnew.1)⟩

theorem left_step_lt (g : Graph κ) {s : Search κ} (h : s.queue ≠ []) :
    (s.step g).left g < s.left g := by
  obtain ⟨queue, found⟩ := s
  cases queue with
  | nil => exact absurd rfl h
  | cons d queue =>
    have hnew := countP_dependants g found d
    simp only [step, left, List.length_append, List.length_cons]
    omega

/-- Step after step until the queue is empty. -/
def run (g : Graph κ) (s : Search κ) : List κ :=
  if s.queue.isEmpty then s.found else run g (s.step g)
termination_by s.left g
decreasing_by exact left_step_lt g (by simp_all)

end Search

/-- The target and every node from which it can be reached. -/
def reaching (g : Graph κ) (target : κ) : List κ :=
  (Search.start target).run g

end Graph
end ThemedCss.Dependency
