import ThemedCss.Scope.Read

/-! What the traversals of the children of a node collect, without their recursion. -/
namespace ThemedCss.Syntax.Node
open ThemedCss.Scope

variable (bound : List String) (role : Role) (n : Node) (ns : List Node)

theorem readsAll_eq : readsAll bound ns = ns.flatMap (reads bound) := by
  induction ns with
  | nil => rfl
  | cons n ns ih => rw [readsAll, List.flatMap_cons, ih]

theorem readsAt_eq :
    readsAt bound role n.children = (n.child? role).toList.flatMap (reads bound) := by
  rw [child?]
  induction n.children with
  | nil => rfl
  | cons n ns ih =>
    by_cases h : n.role = role
    · simp [readsAt, h]
    · simp [readsAt, h, ih]

theorem readsComputed_eq : readsComputed bound role n.children =
    ((n.child? role).filter (·.kind == .computedName)).toList.flatMap (reads bound) := by
  rw [child?]
  induction n.children with
  | nil => rfl
  | cons n ns ih =>
    by_cases h : n.role = role
    · by_cases hk : n.kind = .computedName <;> simp [readsComputed, Option.filter_some, h, hk]
    · simp [readsComputed, h, ih]

theorem readsExceptNames_eq :
    readsExceptNames bound ns = (ns.filter (·.kind != .identifier)).flatMap (reads bound) := by
  induction ns with
  | nil => rfl
  | cons n ns ih =>
    by_cases h : n.kind = .identifier <;> simp [readsExceptNames, h, ih]

theorem defaults_eq : defaults bound ns = ns.flatMap fun n => defaults bound [n] := by
  induction ns with
  | nil => rfl
  | cons n ns ih =>
    have hone : defaults bound (n :: ns) = defaults bound [n] ++ defaults bound ns := by
      cases n
      simp only [defaults, List.append_nil]
    rw [hone, List.flatMap_cons, ih]

theorem patternNamesAt_eq :
    patternNamesAt role n.children = (n.child? role).toList.flatMap patternNames := by
  rw [child?]
  induction n.children with
  | nil => rfl
  | cons n ns ih =>
    by_cases h : n.role = role
    · simp [patternNamesAt, h]
    · simp [patternNamesAt, h, ih]

theorem patternNamesAll_eq : patternNamesAll ns = ns.flatMap patternNames := by
  induction ns with
  | nil => rfl
  | cons n ns ih => rw [patternNamesAll, List.flatMap_cons, ih]

theorem writtenNamesAt_eq : writtenNamesAt role n.children = (n.child? role).map writtenNames := by
  rw [child?]
  induction n.children with
  | nil => rfl
  | cons n ns ih =>
    by_cases h : n.role = role
    · simp [writtenNamesAt, h]
    · simp [writtenNamesAt, h, ih]

theorem writtenNamesFirst_eq :
    writtenNamesFirst n.children = n.named.head?.toList.flatMap writtenNames := by
  rw [named]
  induction n.children with
  | nil => rfl
  | cons n ns ih =>
    by_cases h : n.kind.isNamed
    · simp [writtenNamesFirst, h]
    · simp [writtenNamesFirst, h, ih]

theorem objectChain?_eq : objectChain? n.children = (n.child? .object).bind chain? := by
  rw [child?]
  induction n.children with
  | nil => rfl
  | cons n ns ih =>
    by_cases h : n.role = .object
    · simp [objectChain?, h]
    · simp [objectChain?, h, ih]

theorem any_role : n.children.any (·.role == role) = (n.child? role).isSome := by
  rw [Bool.eq_iff_iff, child?, List.find?_isSome, List.any_eq_true]

variable {n m : Node}

theorem sizeOf_lt_of_mem_children (h : m ∈ n.children) : sizeOf m < sizeOf n := by
  have hlt := List.sizeOf_lt_of_mem h
  obtain ⟨kind, role, start, stop, text, children⟩ := n
  rw [Node.mk.sizeOf_spec]
  dsimp only at hlt
  omega

theorem sizeOf_lt_of_mem_child? {role : Role} (h : n.child? role = some m) : sizeOf m < sizeOf n :=
  sizeOf_lt_of_mem_children (List.mem_of_find?_eq_some h)

end ThemedCss.Syntax.Node
