import Mathlib.Data.List.Pairwise
import Mathlib.Logic.Relation
import Mathlib.Tactic.SplitIfs
import ThemedCss.Syntax.Node

/-! Trees whose spans are nested. -/
namespace ThemedCss.Syntax.Node
open Relation

variable {n m c root : Node}

abbrev Contains : Node → Node → Prop :=
  ReflTransGen fun n c => c ∈ n.children

mutual
theorem contains_of_mem_preorder : ∀ {n : Node}, m ∈ n.preorder → n.Contains m
  | ⟨kind, role, start, stop, text, children⟩, h => by
    rw [preorder, List.mem_cons] at h
    rcases h with rfl | h
    · exact .refl
    · obtain ⟨c, hc, hm⟩ := contains_of_mem_preorderAll h
      exact .head hc hm

theorem contains_of_mem_preorderAll :
    ∀ {ns : List Node}, m ∈ preorderAll ns → ∃ c ∈ ns, c.Contains m
  | [], h => by simp [preorderAll] at h
  | n :: ns, h => by
    rw [preorderAll, List.mem_append] at h
    rcases h with h | h
    · exact ⟨n, List.mem_cons_self, contains_of_mem_preorder h⟩
    · obtain ⟨c, hc, hm⟩ := contains_of_mem_preorderAll h
      exact ⟨c, List.mem_cons_of_mem _ hc, hm⟩
end

private theorem mem_preorderAll {ns : List Node} (hc : c ∈ ns) (hm : m ∈ c.preorder) :
    m ∈ preorderAll ns := by
  induction ns with
  | nil => simp at hc
  | cons n ns ih =>
    rw [preorderAll, List.mem_append]
    rcases List.mem_cons.mp hc with rfl | hc
    · exact .inl hm
    · exact .inr (ih hc)

theorem mem_preorder : m ∈ n.preorder ↔ n.Contains m := by
  refine ⟨contains_of_mem_preorder, fun h => ?_⟩
  induction h using ReflTransGen.head_induction_on with
  | refl => simp [preorder_eq]
  | head hc _ ih => exact preorder_eq _ ▸ List.mem_cons_of_mem _ (mem_preorderAll hc ih)

/-- Every node starts before it stops, and holds its children one after the other. -/
structure Nested (root : Node) : Prop where
  ordered : ∀ n ∈ root.preorder, n.start ≤ n.stop
  inside : ∀ n ∈ root.preorder, ∀ c ∈ n.children, n.start ≤ c.start ∧ c.stop ≤ n.stop
  disjoint : ∀ n ∈ root.preorder, n.children.Pairwise fun a b => a.stop ≤ b.start

theorem Nested.of_contains (h : root.Nested) (hn : root.Contains n) : n.Nested where
  ordered m hm := h.ordered m (mem_preorder.mpr (hn.trans (mem_preorder.mp hm)))
  inside m hm := h.inside m (mem_preorder.mpr (hn.trans (mem_preorder.mp hm)))
  disjoint m hm := h.disjoint m (mem_preorder.mpr (hn.trans (mem_preorder.mp hm)))

theorem Nested.le (h : n.Nested) : n.start ≤ n.stop :=
  h.ordered n (mem_preorder.mpr .refl)

theorem Nested.child (h : n.Nested) (hc : c ∈ n.children) : n.start ≤ c.start ∧ c.stop ≤ n.stop :=
  h.inside n (mem_preorder.mpr .refl) c hc

theorem Nested.pairwise (h : n.Nested) : n.children.Pairwise fun a b => a.stop ≤ b.start :=
  h.disjoint n (mem_preorder.mpr .refl)

theorem Nested.bounds (h : n.Nested) (hm : n.Contains m) : n.start ≤ m.start ∧ m.stop ≤ n.stop := by
  induction hm using ReflTransGen.head_induction_on with
  | refl => exact ⟨Nat.le_refl _, Nat.le_refl _⟩
  | head hc _ ih =>
    have hin := h.child hc
    have hbelow := ih (h.of_contains (.single hc))
    omega

theorem child?_mem {role : Role} (h : n.child? role = some c) : c ∈ n.children :=
  List.mem_of_find?_eq_some h

theorem contains_child? {role : Role} (h : n.child? role = some c) : n.Contains c :=
  .single (child?_mem h)

theorem named_mem (h : c ∈ n.named) : c ∈ n.children :=
  (List.mem_filter.mp h).1

theorem contains_named (h : c ∈ n.named) : n.Contains c :=
  .single (named_mem h)

theorem Nested.named_pairwise (h : n.Nested) : n.named.Pairwise fun a b => a.stop ≤ b.start :=
  h.pairwise.filter _

mutual
theorem contains_unwrap : ∀ n : Node, n.Contains n.unwrap
  | ⟨kind, role, start, stop, text, children⟩ => by
    rw [unwrap]
    split_ifs with hk
    · cases hs : unwrapSole children with
      | none => exact .refl
      | some m =>
        obtain ⟨c, hc, hm⟩ := contains_unwrapSole hs
        exact .head hc hm
    · exact .refl

theorem contains_unwrapSole :
    ∀ {ns : List Node} {m : Node}, unwrapSole ns = some m → ∃ c ∈ ns, c.Contains m
  | [], _, h => by simp [unwrapSole] at h
  | n :: ns, m, h => by
    rw [unwrapSole] at h
    split_ifs at h with hnamed hmore
    · obtain rfl := Option.some.inj h
      exact ⟨n, List.mem_cons_self, contains_unwrap n⟩
    · obtain ⟨c, hc, hm⟩ := contains_unwrapSole h
      exact ⟨c, List.mem_cons_of_mem _ hc, hm⟩
end

private theorem anyError_eq_false {ns : List Node} (h : anyError ns = false) {c : Node}
    (hc : c ∈ ns) : c.hasError = false := by
  induction ns with
  | nil => simp at hc
  | cons n ns ih =>
    rw [anyError, Bool.or_eq_false_iff] at h
    rcases List.mem_cons.mp hc with rfl | hc
    · exact h.1
    · exact ih h.2 hc

/-- All parts of a node without faults are without faults. -/
theorem hasError_of_contains {n m : Node} (hin : n.Contains m) (h : n.hasError = false) :
    m.hasError = false := by
  induction hin with
  | refl => exact h
  | @tail m c _ hc ih =>
    obtain ⟨kind, role, start, stop, text, children⟩ := m
    rw [hasError, Bool.or_eq_false_iff] at ih
    exact anyError_eq_false ih.2 hc

end ThemedCss.Syntax.Node
