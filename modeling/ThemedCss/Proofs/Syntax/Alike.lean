import Mathlib.Data.List.Forall2
import Mathlib.Tactic.SplitIfs
import ThemedCss.Scope.Name

/-! Trees that differ in the contents of some holes. -/
namespace ThemedCss.Syntax

/-- How two trees may differ: where positions go, inside which nodes holes may differ, and which
pairs of holes may. -/
structure Difference where
  move : Nat → Nat
  opens : Node → Bool
  free : Node → Node → Bool

/-- A hole may only be free if it holds one expression on both sides, with the same faults. -/
structure Difference.Fair (δ : Difference) : Prop where
  named : ∀ n m, δ.free n m = true → n.named.length = 1 ∧ m.named.length = 1
  plain : ∀ n m, δ.free n m = true →
    (∀ c ∈ n.children, c.role = .plain) ∧ ∀ c ∈ m.children, c.role = .plain
  fault : ∀ n m, δ.free n m = true → m.hasError = n.hasError

mutual
/-- Whether two nodes are equal up to a difference; `inside` tells whether holes may differ. -/
def Node.alike (δ : Difference) (inside : Bool) : Node → Node → Bool
  | ⟨kind, role, start, stop, text, children⟩, m =>
    m.kind == kind && m.role == role && m.start == δ.move start && m.stop == δ.move stop &&
      m.text == text &&
      (Node.alikeAll δ (inside || δ.opens ⟨kind, role, start, stop, text, children⟩) children
        m.children ||
        inside && kind == .substitution && role == .plain &&
        δ.free ⟨kind, role, start, stop, text, children⟩ m)

def Node.alikeAll (δ : Difference) (inside : Bool) : List Node → List Node → Bool
  | [], [] => true
  | n :: ns, m :: ms => Node.alike δ inside n m && Node.alikeAll δ inside ns ms
  | _, _ => false
end

namespace Node

variable {δ : Difference} {inside : Bool} {n m : Node}

theorem alikeAll_iff {ns ms : List Node} :
    alikeAll δ inside ns ms = true ↔ List.Forall₂ (fun n m => alike δ inside n m = true) ns ms := by
  induction ns generalizing ms with
  | nil => cases ms <;> simp [alikeAll]
  | cons n ns ih => cases ms <;> simp [alikeAll, ih]

/-- What two nodes have in common. -/
theorem alike_iff : alike δ inside n m = true ↔
    m.kind = n.kind ∧ m.role = n.role ∧ m.start = δ.move n.start ∧ m.stop = δ.move n.stop ∧
    m.text = n.text ∧
      (List.Forall₂ (fun c d => alike δ (inside || δ.opens n) c d = true) n.children m.children ∨
        inside = true ∧ n.kind = .substitution ∧ n.role = .plain ∧ δ.free n m = true) := by
  cases n
  simp [alike, alikeAll_iff, and_assoc]

mutual
theorem alike_weaken :
    ∀ {inside : Bool} {n m : Node}, alike δ inside n m = true → alike δ true n m = true
  | inside, ⟨kind, role, start, stop, text, children⟩, m, h => by
    obtain ⟨hkind, hrole, hstart, hstop, htext, hall | ⟨-, hsub, hplain, hfree⟩⟩ := alike_iff.mp h
    · exact alike_iff.mpr ⟨hkind, hrole, hstart, hstop, htext,
        .inl (alikeAll_iff.mp (alikeAll_weaken (alikeAll_iff.mpr hall)))⟩
    · exact alike_iff.mpr ⟨hkind, hrole, hstart, hstop, htext, .inr ⟨rfl, hsub, hplain, hfree⟩⟩

theorem alikeAll_weaken : ∀ {inside : Bool} {ns ms : List Node}, alikeAll δ inside ns ms = true →
    alikeAll δ true ns ms = true
  | _, [], [], _ => rfl
  | _, [], _ :: _, h => by simp [alikeAll] at h
  | _, _ :: _, [], h => by simp [alikeAll] at h
  | inside, n :: ns, m :: ms, h => by
    rw [alikeAll, Bool.and_eq_true] at h ⊢
    exact ⟨alike_weaken h.1, alikeAll_weaken h.2⟩
end

def Alike (δ : Difference) (n m : Node) : Prop :=
  alike δ true n m = true

namespace Alike

theorem of_alike (h : alike δ inside n m = true) : Alike δ n m :=
  alike_weaken h

theorem kind (h : Alike δ n m) : m.kind = n.kind :=
  (alike_iff.mp h).1

theorem role (h : Alike δ n m) : m.role = n.role :=
  (alike_iff.mp h).2.1

theorem start (h : Alike δ n m) : m.start = δ.move n.start :=
  (alike_iff.mp h).2.2.1

theorem stop (h : Alike δ n m) : m.stop = δ.move n.stop :=
  (alike_iff.mp h).2.2.2.1

theorem text (h : Alike δ n m) : m.text = n.text :=
  (alike_iff.mp h).2.2.2.2.1

theorem children_or_free (h : Alike δ n m) :
    List.Forall₂ (Alike δ) n.children m.children ∨
      n.kind = .substitution ∧ n.role = .plain ∧ δ.free n m = true := by
  rcases (alike_iff.mp h).2.2.2.2.2 with hall | ⟨-, hfree⟩
  · exact .inl hall
  · exact .inr hfree

theorem children_of_role (h : Alike δ n m) (hr : n.role ≠ .plain) :
    List.Forall₂ (Alike δ) n.children m.children :=
  h.children_or_free.resolve_right fun hfree => hr hfree.2.1

theorem children (h : Alike δ n m) (hk : n.kind ≠ .substitution) :
    List.Forall₂ (Alike δ) n.children m.children :=
  h.children_or_free.resolve_right fun hfree => hk hfree.1

/-- Outside of the nodes that open, children correspond. -/
theorem children_of_outside (h : alike δ false n m = true) :
    List.Forall₂ (Alike δ) n.children m.children := by
  rcases (alike_iff.mp h).2.2.2.2.2 with hall | ⟨hinside, -⟩
  · exact hall.imp fun _ _ hcd => of_alike hcd
  · simp at hinside

end Alike

theorem forall₂_find? {α β : Type} {R : α → β → Prop} {p : α → Bool} {q : β → Bool} {xs : List α}
    {ys : List β} (h : List.Forall₂ R xs ys) (hpq : ∀ x y, R x y → p x = q y) :
    Option.Rel R (xs.find? p) (ys.find? q) := by
  induction h with
  | nil => exact .none
  | cons hxy _ ih =>
    rw [List.find?_cons, List.find?_cons, ← hpq _ _ hxy]
    split
    · exact .some hxy
    · exact ih

theorem forall₂_any {α β : Type} {R : α → β → Prop} {p : α → Bool} {q : β → Bool} {xs : List α}
    {ys : List β} (h : List.Forall₂ R xs ys) (hpq : ∀ x y, R x y → p x = q y) :
    xs.any p = ys.any q := by
  induction h with
  | nil => rfl
  | cons hxy _ ih => rw [List.any_cons, List.any_cons, hpq _ _ hxy, ih]

theorem forall₂_imp_mem {α β : Type} {R S : α → β → Prop} {xs : List α} {ys : List β}
    (h : List.Forall₂ R xs ys) (himp : ∀ x ∈ xs, ∀ y ∈ ys, R x y → S x y) :
    List.Forall₂ S xs ys := by
  induction h with
  | nil => exact .nil
  | cons hxy _ ih =>
    refine .cons (himp _ List.mem_cons_self _ List.mem_cons_self hxy) (ih fun x hx y hy => ?_)
    exact himp x (List.mem_cons_of_mem _ hx) y (List.mem_cons_of_mem _ hy)

theorem forall₂_flatMap {α β γ : Type} {R : α → β → Prop} {f : α → List γ} {g : β → List γ}
    {xs : List α} {ys : List β} (h : List.Forall₂ R xs ys) (hfg : ∀ x y, R x y → g y = f x) :
    ys.flatMap g = xs.flatMap f := by
  induction h with
  | nil => rfl
  | cons hxy _ ih => rw [List.flatMap_cons, List.flatMap_cons, hfg _ _ hxy, ih]

theorem rel_cases {α β : Type} {R : α → β → Prop} {x : Option α} {y : Option β}
    (h : Option.Rel R x y) : x = none ∧ y = none ∨ ∃ a b, x = some a ∧ y = some b ∧ R a b := by
  cases h with
  | none => exact .inl ⟨rfl, rfl⟩
  | some hxy => exact .inr ⟨_, _, rfl, rfl, hxy⟩

private theorem rel_getD {α β : Type} {R : α → β → Prop} {x : Option α} {y : Option β} {a : α}
    {b : β} (h : Option.Rel R x y) (hab : R a b) : R (x.getD a) (y.getD b) := by
  cases h with
  | none => exact hab
  | some hxy => exact hxy

namespace Alike

theorem rel_child? (h : Alike δ n m) (hk : n.kind ≠ .substitution) (role : Role) :
    Option.Rel (Alike δ) (n.child? role) (m.child? role) :=
  forall₂_find? (h.children hk) fun _ _ hcd => by rw [hcd.role]

theorem child? (h : Alike δ n m) (hk : n.kind ≠ .substitution) (role : Role) :
    n.child? role = none ∧ m.child? role = none ∨
      ∃ c d, n.child? role = some c ∧ m.child? role = some d ∧ Alike δ c d :=
  rel_cases (h.rel_child? hk role)

/-- The contents of a free hole play no part that one could ask for. -/
theorem child?_of_fair (hδ : δ.Fair) (h : Alike δ n m) {role : Role} (hr : role ≠ .plain) :
    n.child? role = none ∧ m.child? role = none ∨
      ∃ c d, n.child? role = some c ∧ m.child? role = some d ∧ Alike δ c d := by
  rcases h.children_or_free with hall | ⟨-, -, hfree⟩
  · exact rel_cases (forall₂_find? hall fun _ _ hcd => by rw [hcd.role])
  · obtain ⟨hn, hm⟩ := hδ.plain n m hfree
    refine .inl ⟨List.find?_eq_none.mpr fun c hc => ?_, List.find?_eq_none.mpr fun c hc => ?_⟩
    · simpa [hn c hc] using hr.symm
    · simpa [hm c hc] using hr.symm

theorem named_of_children (h : List.Forall₂ (Alike δ) n.children m.children) :
    List.Forall₂ (Alike δ) n.named m.named :=
  List.rel_filter (fun _ _ hcd => by simp [hcd.kind]) h

theorem named (h : Alike δ n m) (hk : n.kind ≠ .substitution) :
    List.Forall₂ (Alike δ) n.named m.named :=
  named_of_children (h.children hk)

theorem hasChild (h : Alike δ n m) (hk : n.kind ≠ .substitution) (kind : Kind) :
    m.hasChild kind = n.hasChild kind :=
  (forall₂_any (h.children hk) fun _ _ hcd => by rw [hcd.kind]).symm

theorem plainText (h : Alike δ n m) : m.plainText = n.plainText := by
  rw [Node.plainText, Node.plainText, h.kind, h.text]

end Alike

mutual
theorem hasError_alike (hδ : δ.Fair) : ∀ {n m : Node}, Alike δ n m → m.hasError = n.hasError
  | ⟨kind, role, start, stop, text, children⟩,
      ⟨kind', role', start', stop', text', children'⟩, h => by
    rcases h.children_or_free with hall | ⟨-, -, hn⟩
    · have hkind : kind' = kind := h.kind
      rw [hasError, hasError, hkind, anyError_alike hδ hall]
    · exact hδ.fault _ _ hn

theorem anyError_alike (hδ : δ.Fair) :
    ∀ {ns ms : List Node}, List.Forall₂ (Alike δ) ns ms → anyError ms = anyError ns
  | [], [], _ => rfl
  | n :: ns, m :: ms, .cons h hall => by
    rw [anyError, anyError, hasError_alike hδ h, anyError_alike hδ hall]
end

mutual
theorem unwrap_alike : ∀ {n m : Node}, Alike δ n m → Alike δ n.unwrap m.unwrap
  | ⟨kind, role, start, stop, text, children⟩,
      ⟨kind', role', start', stop', text', children'⟩, h => by
    have hkind : kind' = kind := h.kind
    rw [unwrap, unwrap, hkind]
    split_ifs with hk
    · exact rel_getD (unwrapSole_alike (h.children (by simp [hk]))) (hkind ▸ h)
    · exact hkind ▸ h

theorem unwrapSole_alike : ∀ {ns ms : List Node}, List.Forall₂ (Alike δ) ns ms →
    Option.Rel (Alike δ) (unwrapSole ns) (unwrapSole ms)
  | [], [], _ => .none
  | n :: ns, m :: ms, .cons h hall => by
    rw [unwrapSole, unwrapSole, h.kind, ← forall₂_any hall fun _ _ hcd => by rw [hcd.kind]]
    split_ifs
    · exact .none
    · exact .some (unwrap_alike h)
    · exact unwrapSole_alike hall
end

mutual
theorem patternNames_alike : ∀ {n m : Node}, Alike δ n m → m.patternNames = n.patternNames
  | ⟨kind, role, start, stop, text, children⟩,
      ⟨kind', role', start', stop', text', children'⟩, h => by
    have hkind : kind' = kind := h.kind
    have htext : text' = text := h.text
    have hchildren : kind ≠ .substitution → List.Forall₂ (Alike δ) children children' := h.children
    subst hkind htext
    rw [patternNames.eq_def, patternNames.eq_def]
    dsimp only
    split
    · rfl
    · rfl
    · exact patternNamesAt_alike .pattern (hchildren (by simp))
    · exact patternNamesAt_alike .pattern (hchildren (by simp))
    · exact patternNamesAt_alike .left (hchildren (by simp))
    · exact patternNamesAt_alike .left (hchildren (by simp))
    · exact patternNamesAt_alike .value (hchildren (by simp))
    · exact patternNamesAll_alike (hchildren (by simp))
    · exact patternNamesAll_alike (hchildren (by simp))
    · exact patternNamesAll_alike (hchildren (by simp))
    · exact patternNamesAll_alike (hchildren (by simp))
    · rfl

theorem patternNamesAt_alike (role : Role) : ∀ {ns ms : List Node}, List.Forall₂ (Alike δ) ns ms →
    patternNamesAt role ms = patternNamesAt role ns
  | [], [], _ => rfl
  | n :: ns, m :: ms, .cons h hall => by
    rw [patternNamesAt, patternNamesAt, h.role, patternNames_alike h,
      patternNamesAt_alike role hall]

theorem patternNamesAll_alike : ∀ {ns ms : List Node}, List.Forall₂ (Alike δ) ns ms →
    patternNamesAll ms = patternNamesAll ns
  | [], [], _ => rfl
  | n :: ns, m :: ms, .cons h hall => by
    rw [patternNamesAll, patternNamesAll, patternNames_alike h, patternNamesAll_alike hall]
end

end Node
end ThemedCss.Syntax
