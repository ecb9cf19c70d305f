import ThemedCss.Proofs.Scope.Traversal
import ThemedCss.Proofs.Syntax.Alike
import ThemedCss.Proofs.Syntax.Span

/-! Trees that differ by parentheses around operands, and the names that they declare and change. -/
namespace ThemedCss.Syntax

/-- Nodes that are expressions wherever they stand. -/
def Kind.isExpression : Kind → Bool
  | parenthesized | sequence | assignment | augmentedAssignment | await | unary | binary | ternary |
      update | new | yield
  | member | subscript | call | object | array | functionExpression | generatorExpression |
      arrowFunction
  | classExpression | template | regex | number | string | this | trueLiteral | falseLiteral |
      nullLiteral | undefined
  | metaProperty | identifier | jsxElement | jsxSelfClosing | asExpression |
      satisfiesExpression | nonNull
  | instantiation | typeAssertion => true
  | _ => false

/-- Whether a child of such a parent in such a role is an operand: it is evaluated, and neither a
name that is declared, nor a part of a pattern, nor what a loop gives its elements to. -/
def Role.isOperand (parent : Kind) (role : Role) : Bool :=
  (match parent with
    | .objectPattern | .arrayPattern | .restPattern | .pairPattern | .formalParameters |
        .classDeclaration
    | .classExpression => false
    | .assignmentPattern | .shorthandDefault | .forInStatement | .forStatement => role != .left
    | _ => true) &&
  match role with
  | .name | .newName | .property | .arguments | .parameter | .parameters | .pattern | .key |
      .declaration | .source
  | .binding => false
  | _ => true

/-- Something to check of a name and the chain of members that hangs off it. -/
abbrev ChainCheck :=
  String → List String → Bool

namespace Node

def member? (n : Node) : Option String :=
  if n.kind = .member then ((n.child? .property).filter (·.kind == .propertyName)).map (·.text)
  else none

/-- The members that hang off a child, where `tail` are those that hang off the node. -/
def tailBelow (n : Node) (tail : List String) (c : Node) : List String :=
  if c.role = .object then (n.member?.map (· :: tail)).getD [] else []

/-- A chain may be cut behind a node if all checks that the part up to there passes are passed by
the whole chain. -/
def mayCut (checks : List ChainCheck) (tail : List String) (n : Node) : Bool :=
  tail.isEmpty || n.chain?.all fun c =>
    checks.all fun check => !check c.1 c.2.2.reverse || check c.1 (c.2.2.reverse ++ tail)

mutual
/-- Whether a node is `n` with parentheses around some operands in it, or around all of it if `n` is
an operand. Chains are cut only where the checks allow it; `tail` are the members that hang off the
node. Where the nodes stand does not matter. -/
def enclosed (checks : List ChainCheck) : Kind → Role → List String → Node → Node → Bool
  | parent, role, tail, n, ⟨kind', role', _, _, text', children'⟩ =>
    role' == role &&
      (kind' == n.kind && text' == n.text &&
        enclosedAll checks n.kind (n.tailBelow tail) n.children children' ||
        kind' == .parenthesized && role.isOperand parent && n.kind.isExpression &&
        n.mayCut checks tail && enclosedSole checks n children')

def enclosedAll (checks : List ChainCheck) :
    Kind → (Node → List String) → List Node → List Node → Bool
  | _, _, [], [] => true
  | parent, tail, n :: ns, m :: ms =>
    enclosed checks parent n.role (tail n) n m && enclosedAll checks parent tail ns ms
  | _, _, _, _ => false

/-- The parentheses hold nothing else. -/
def enclosedSole (checks : List ChainCheck) : Node → List Node → Bool
  | n, [m] => enclosed checks .parenthesized .plain [] n m
  | _, _ => false
end

variable {checks : List ChainCheck} {parent : Kind} {role : Role} {tail : List String} {n m : Node}

theorem enclosedAll_iff {below : Node → List String} {ns ms : List Node} :
    enclosedAll checks parent below ns ms = true ↔
      List.Forall₂ (fun c d => enclosed checks parent c.role (below c) c d = true) ns ms := by
  induction ns generalizing ms with
  | nil => cases ms <;> simp [enclosedAll]
  | cons n ns ih => cases ms <;> simp [enclosedAll, ih]

theorem enclosedSole_iff {ms : List Node} :
    enclosedSole checks n ms = true ↔
      ∃ m, ms = [m] ∧ enclosed checks .parenthesized .plain [] n m = true := by
  match ms with
  | [] => simp [enclosedSole]
  | [m] => simp [enclosedSole]
  | _ :: _ :: _ => simp [enclosedSole]

/-- The children of two nodes differ by parentheses only, and the nodes not at all. -/
structure Parallel (checks : List ChainCheck) (tail : List String) (n m : Node) : Prop where
  kind : m.kind = n.kind
  text : m.text = n.text
  children : List.Forall₂ (fun c d => enclosed checks n.kind c.role (n.tailBelow tail c) c d = true)
    n.children m.children

/-- One node is the other in parentheses, possibly with more of them inside. -/
structure Wrapped (checks : List ChainCheck) (parent : Kind) (role : Role) (tail : List String)
    (n m c : Node) : Prop where
  kind : m.kind = .parenthesized
  children : m.children = [c]
  operand : role.isOperand parent = true
  expression : n.kind.isExpression = true
  cut : n.mayCut checks tail = true
  inner : enclosed checks .parenthesized .plain [] n c = true

theorem enclosed_iff : enclosed checks parent role tail n m = true ↔
    m.role = role ∧ (Parallel checks tail n m ∨ ∃ c, Wrapped checks parent role tail n m c) := by
  obtain ⟨kind', role', start', stop', text', children'⟩ := m
  rw [enclosed]
  simp only [Bool.and_eq_true, Bool.or_eq_true, beq_iff_eq, enclosedAll_iff, enclosedSole_iff]
  refine and_congr_right fun _ => or_congr ⟨?_, ?_⟩ ⟨?_, ?_⟩
  · rintro ⟨⟨hkind, htext⟩, hall⟩
    exact ⟨hkind, htext, hall⟩
  · rintro ⟨hkind, htext, hall⟩
    exact ⟨⟨hkind, htext⟩, hall⟩
  · rintro ⟨⟨⟨⟨hkind, hoperand⟩, hexpr⟩, hcut⟩, c, hchildren, hinner⟩
    exact ⟨c, hkind, hchildren, hoperand, hexpr, hcut, hinner⟩
  · rintro ⟨c, hkind, hchildren, hoperand, hexpr, hcut, hinner⟩
    exact ⟨⟨⟨⟨hkind, hoperand⟩, hexpr⟩, hcut⟩, c, hchildren, hinner⟩

theorem child?_of_forall₂ {R : Node → Node → Prop} (hrole : ∀ c d, R c d → d.role = c.role)
    (h : List.Forall₂ R n.children m.children) (role : Role) :
    n.child? role = none ∧ m.child? role = none ∨
      ∃ c d, n.child? role = some c ∧ m.child? role = some d ∧ c.role = role ∧ R c d := by
  have hfind : Option.Rel R (n.child? role) (m.child? role) :=
    forall₂_find? h fun c d hcd => by rw [hrole c d hcd]
  rcases rel_cases hfind with hnone | ⟨c, d, hc, hd, hcd⟩
  · exact .inl hnone
  · exact .inr ⟨c, d, hc, hd, by simpa using List.find?_some hc, hcd⟩

/-- What holds of nodes whose children are in the relation, and is kept by parentheses, holds of all
nodes in the relation. -/
theorem enclosed_induction {P : Kind → Role → List String → Node → Node → Prop}
    (parallel : ∀ parent role tail n m, m.role = role → Parallel checks tail n m →
      List.Forall₂ (fun c d => d.role = c.role ∧
        enclosed checks n.kind c.role (n.tailBelow tail c) c d = true ∧
        P n.kind c.role (n.tailBelow tail c) c d) n.children m.children → P parent role tail n m)
    (wrapped : ∀ parent role tail n m c, m.role = role → Wrapped checks parent role tail n m c →
      P .parenthesized .plain [] n c → P parent role tail n m)
    (h : enclosed checks parent role tail n m = true) : P parent role tail n m := by
  induction hsize : sizeOf m using Nat.strongRecOn generalizing parent role tail n m with
  | ind size ih =>
  subst hsize
  obtain ⟨hrole, hparallel | ⟨c, hwrapped⟩⟩ := enclosed_iff.mp h
  · refine parallel _ _ _ _ _ hrole hparallel
      (forall₂_imp_mem hparallel.children fun c _ d hd hcd => ?_)
    exact ⟨(enclosed_iff.mp hcd).1, hcd, ih _ (sizeOf_lt_of_mem_children hd) hcd rfl⟩
  · refine wrapped _ _ _ _ _ c hrole hwrapped
      (ih _ (sizeOf_lt_of_mem_children ?_) hwrapped.inner rfl)
    rw [hwrapped.children]
    exact List.mem_singleton_self c

section Kinds

theorem isNamed_of_isExpression {kind : Kind} (h : kind.isExpression = true) :
    kind.isNamed = true := by
  cases kind with
  | defaultKeyword | bindingKeyword => cases h
  | _ => rfl

/-- Only operands may stand in parentheses. -/
theorem parallel_of_not_operand (h : enclosed checks parent role tail n m = true)
    (hrole : role.isOperand parent = false) : Parallel checks tail n m := by
  obtain ⟨-, hparallel | ⟨c, hwrapped⟩⟩ := enclosed_iff.mp h
  · exact hparallel
  · exact absurd hwrapped.operand (by rw [hrole]; exact Bool.false_ne_true)

/-- Only expressions may stand in parentheses. -/
theorem parallel_of_not_expression (h : enclosed checks parent role tail n m = true)
    (hkind : n.kind.isExpression = false) : Parallel checks tail n m := by
  obtain ⟨-, hparallel | ⟨c, hwrapped⟩⟩ := enclosed_iff.mp h
  · exact hparallel
  · exact absurd hwrapped.expression (by rw [hkind]; exact Bool.false_ne_true)

theorem kind_iff_of_not_expression (h : enclosed checks parent role tail n m = true) {kind : Kind}
    (hkind : kind.isExpression = false) : m.kind = kind ↔ n.kind = kind := by
  obtain ⟨-, hparallel | ⟨c, hwrapped⟩⟩ := enclosed_iff.mp h
  · rw [hparallel.kind]
  · have hexpr := hwrapped.expression
    refine iff_of_false ?_ ?_
    · rintro rfl
      rw [hwrapped.kind] at hkind
      cases hkind
    · rintro rfl
      rw [hkind] at hexpr
      cases hexpr

theorem isNamed_enclosed (h : enclosed checks parent role tail n m = true) :
    m.kind.isNamed = n.kind.isNamed := by
  obtain ⟨-, hparallel | ⟨c, hwrapped⟩⟩ := enclosed_iff.mp h
  · rw [hparallel.kind]
  · rw [hwrapped.kind, isNamed_of_isExpression hwrapped.expression]
    rfl

end Kinds

namespace Parallel

theorem child? (h : Parallel checks tail n m) (role : Role) :
    n.child? role = none ∧ m.child? role = none ∨
    ∃ c d, n.child? role = some c ∧ m.child? role = some d ∧
      enclosed checks n.kind role (n.tailBelow tail c) c d = true := by
  rcases child?_of_forall₂ (fun c d hcd => (enclosed_iff.mp hcd).1) h.children role with hnone |
    ⟨c, d, hc, hd, rfl, hcd⟩
  · exact .inl hnone
  · exact .inr ⟨c, d, hc, hd, hcd⟩

theorem named (h : Parallel checks tail n m) :
    List.Forall₂ (fun c d => enclosed checks n.kind c.role (n.tailBelow tail c) c d = true)
      n.named m.named :=
  List.rel_filter (fun _ _ hcd => by simp [isNamed_enclosed hcd]) h.children

end Parallel

section Names

theorem hasError_eq (n : Node) :
    n.hasError = (n.kind == .error || n.children.any (·.hasError)) := by
  have hall : ∀ ns : List Node, anyError ns = ns.any (·.hasError) := by
    intro ns
    induction ns with
    | nil => rfl
    | cons n ns ih => rw [anyError, List.any_cons, ih]
  obtain ⟨kind, role, start, stop, text, children⟩ := n
  rw [hasError, hall]

theorem hasError_enclosed (h : enclosed checks parent role tail n m = true) :
    m.hasError = n.hasError := by
  refine enclosed_induction (P := fun _ _ _ n m => m.hasError = n.hasError) ?_ ?_ h
  · intro parent role tail n m _ hparallel hall
    rw [hasError_eq n, hasError_eq m, hparallel.kind, forall₂_any hall fun _ _ hcd => hcd.2.2.symm]
  · intro parent role tail n m c _ hwrapped hc
    rw [hasError_eq m, hwrapped.kind, hwrapped.children, List.any_cons, List.any_nil, Bool.or_false]
    exact hc

/-- A node with the same kind binds the same names. -/
theorem patternNames_enclosed (h : enclosed checks parent role tail n m = true)
    (hkind : m.kind = n.kind) : m.patternNames = n.patternNames := by
  revert hkind
  refine enclosed_induction
    (P := fun _ _ _ n m => m.kind = n.kind → m.patternNames = n.patternNames) ?_ ?_ h
  · intro parent role tail n m _ hparallel hall hkind
    have hat : ∀ role, role.isOperand n.kind = false →
        patternNamesAt role m.children = patternNamesAt role n.children := by
      intro role hrole
      rw [patternNamesAt_eq, patternNamesAt_eq]
      rcases child?_of_forall₂ (fun c d hcd => hcd.1) hall role with ⟨hc, hd⟩ |
        ⟨c, d, hc, hd, rfl, -, hcd, ih⟩
      · rw [hc, hd]
      · rw [hc, hd]
        simp [ih (parallel_of_not_operand hcd hrole).kind]
    have hparts : (∀ role, Role.isOperand n.kind role = false) →
        patternNamesAll m.children = patternNamesAll n.children := by
      intro hrole
      rw [patternNamesAll_eq, patternNamesAll_eq]
      exact forall₂_flatMap hall fun c d hcd =>
        hcd.2.2 (parallel_of_not_operand hcd.2.1 (hrole c.role)).kind
    have htext := hparallel.text
    obtain ⟨kind, role, start, stop, text, children⟩ := n
    obtain ⟨kind', role', start', stop', text', children'⟩ := m
    dsimp only at hkind htext hat hparts
    subst hkind htext
    rw [patternNames.eq_def, patternNames.eq_def]
    dsimp only
    split
    · rfl
    · rfl
    · exact hat .pattern rfl
    · exact hat .pattern rfl
    · exact hat .left rfl
    · exact hat .left rfl
    · exact hat .value rfl
    · exact hparts fun _ => rfl
    · exact hparts fun _ => rfl
    · exact hparts fun _ => rfl
    · exact hparts fun _ => rfl
    · rfl
  · intro parent role tail n m c _ hwrapped _ hkind
    have hm := hwrapped.kind
    rw [hm] at hkind
    obtain ⟨kind, role, start, stop, text, children⟩ := n
    obtain ⟨kind', role', start', stop', text', children'⟩ := m
    dsimp only at hkind hm
    subst hkind hm
    rfl

theorem Parallel.patternNamesAt (h : Parallel checks tail n m) {role : Role}
    (hrole : role.isOperand n.kind = false) :
    Node.patternNamesAt role m.children = Node.patternNamesAt role n.children := by
  rw [patternNamesAt_eq, patternNamesAt_eq]
  rcases h.child? role with ⟨hc, hd⟩ | ⟨c, d, hc, hd, hcd⟩
  · rw [hc, hd]
  · rw [hc, hd]
    simp [patternNames_enclosed hcd (parallel_of_not_operand hcd hrole).kind]

theorem Parallel.text_child? (h : Parallel checks tail n m) {role : Role}
    (hrole : role.isOperand n.kind = false) :
    (m.child? role).map (·.text) = (n.child? role).map (·.text) := by
  rcases h.child? role with ⟨hc, hd⟩ | ⟨c, d, hc, hd, hcd⟩
  · rw [hc, hd]
  · rw [hc, hd, Option.map_some, Option.map_some, (parallel_of_not_operand hcd hrole).text]

theorem Parallel.declarators (h : Parallel checks tail n m) :
    List.Forall₂ (fun c d => Parallel checks [] c d ∧ c.kind = .declarator) n.declarators
      m.declarators := by
  have hpairs : List.Forall₂
      (fun c d => enclosed checks n.kind c.role (n.tailBelow tail c) c d = true)
      n.declarators m.declarators :=
    List.rel_filter (fun c d hcd => by simpa using (kind_iff_of_not_expression hcd rfl).symm)
      h.children
  refine forall₂_imp_mem hpairs fun c hc d _ hcd => ?_
  have hkind : c.kind = .declarator := by simpa using (List.mem_filter.mp hc).2
  have hparallel := parallel_of_not_expression hcd (by rw [hkind]; rfl)
  refine ⟨⟨hparallel.kind, hparallel.text, ?_⟩, hkind⟩
  -- a declarator is no member, so nothing hangs off its parts
  have hbelow : ∀ tail e, c.tailBelow tail e = [] := by
    intro tail e
    simp [tailBelow, member?, hkind]
  have hchildren := hparallel.children
  simp only [hbelow] at hchildren ⊢
  exact hchildren

theorem declaredNames_of_isExpression (h : n.kind.isExpression = true) : n.declaredNames = [] := by
  unfold declaredNames
  cases hk : n.kind with
  | lexicalDeclaration | variableDeclaration | functionDeclaration | generatorDeclaration |
      classDeclaration =>
    rw [hk] at h
    cases h
  | _ => rfl

theorem Parallel.declaredNames (h : Parallel checks tail n m) :
    m.declaredNames = n.declaredNames := by
  unfold Node.declaredNames
  rw [h.kind]
  cases hk : n.kind with
  | lexicalDeclaration | variableDeclaration =>
    refine forall₂_flatMap h.declarators fun c d hcd => ?_
    exact hcd.1.patternNamesAt (by rw [hcd.2]; rfl)
  | functionDeclaration | generatorDeclaration | classDeclaration =>
    exact congrArg Option.toList (h.text_child? (by rw [hk]; rfl))
  | _ => rfl

theorem declaredNames_enclosed (h : enclosed checks parent role tail n m = true) :
    m.declaredNames = n.declaredNames := by
  obtain ⟨-, hparallel | ⟨c, hwrapped⟩⟩ := enclosed_iff.mp h
  · exact hparallel.declaredNames
  · rw [declaredNames_of_isExpression hwrapped.expression,
      declaredNames_of_isExpression (by rw [hwrapped.kind]; rfl)]

theorem hoistedNamesAll_eq (ns : List Node) : hoistedNamesAll ns = ns.flatMap hoistedNames := by
  induction ns with
  | nil => rfl
  | cons n ns ih => rw [hoistedNamesAll, List.flatMap_cons, ih]

private theorem hoistedNames_enclosed (h : enclosed checks parent role tail n m = true) :
    m.hoistedNames = n.hoistedNames := by
  refine enclosed_induction (P := fun _ _ _ n m => m.hoistedNames = n.hoistedNames) ?_ ?_ h
  · intro parent role tail n m _ hparallel hall
    have hchildren : hoistedNamesAll m.children = hoistedNamesAll n.children := by
      rw [hoistedNamesAll_eq, hoistedNamesAll_eq]
      exact forall₂_flatMap hall fun c d hcd => hcd.2.2
    have hdeclared := hparallel.declaredNames
    have hkind := hparallel.kind
    obtain ⟨kind, role, start, stop, text, children⟩ := n
    obtain ⟨kind', role', start', stop', text', children'⟩ := m
    dsimp only at hkind hchildren
    subst hkind
    rw [hoistedNames, hoistedNames, hdeclared, hchildren]
  · intro parent role tail n m c _ hwrapped hc
    have hkind := hwrapped.kind
    have hchildren := hwrapped.children
    obtain ⟨kind', role', start', stop', text', children'⟩ := m
    dsimp only at hkind hchildren
    subst hkind hchildren
    rw [hoistedNames, if_neg (by simp [Kind.isFunction]), if_neg (by simp), hoistedNamesAll_eq,
      List.flatMap_singleton]
    exact hc

/-- To write something in parentheses changes the same names. -/
theorem writtenNames_enclosed (h : enclosed checks parent role tail n m = true) :
    m.writtenNames = n.writtenNames := by
  refine enclosed_induction (P := fun _ _ _ n m => m.writtenNames = n.writtenNames) ?_ ?_ h
  · intro parent role tail n m hrole hparallel hall
    have hat : writtenNamesAt .object m.children = writtenNamesAt .object n.children := by
      rw [writtenNamesAt_eq, writtenNamesAt_eq]
      rcases child?_of_forall₂ (fun c d hcd => hcd.1) hall .object with ⟨hc, hd⟩ |
        ⟨c, d, hc, hd, -, -, -, ih⟩
      · rw [hc, hd]
      · rw [hc, hd, Option.map_some, Option.map_some, ih]
    have hfirst : writtenNamesFirst m.children = writtenNamesFirst n.children := by
      have hfind := forall₂_find? hall (p := (·.kind.isNamed)) (q := (·.kind.isNamed))
        fun c d hcd => (isNamed_enclosed hcd.2.1).symm
      rw [writtenNamesFirst_eq, writtenNamesFirst_eq, Node.named, Node.named, List.head?_filter,
        List.head?_filter]
      rcases rel_cases hfind with ⟨hc, hd⟩ | ⟨c, d, hc, hd, hcd⟩
      · rw [hc, hd]
      · rw [hc, hd]
        simp [hcd.2.2]
    have henclosed : enclosed checks parent role tail n m = true :=
      enclosed_iff.mpr ⟨hrole, .inl hparallel⟩
    have hpattern := patternNames_enclosed henclosed hparallel.kind
    have hkind := hparallel.kind
    obtain ⟨kind, role, start, stop, text, children⟩ := n
    obtain ⟨kind', role', start', stop', text', children'⟩ := m
    dsimp only at hkind hat hfirst
    subst hkind
    rw [writtenNames.eq_def, writtenNames.eq_def]
    dsimp only
    rw [hat, hfirst, hpattern]
  · intro parent role tail n m c _ hwrapped hc
    have hkind := hwrapped.kind
    have hchildren := hwrapped.children
    have hplain := (enclosed_iff.mp hwrapped.inner).1
    have hnamed : c.kind.isNamed = true := by
      rw [isNamed_enclosed hwrapped.inner]
      exact isNamed_of_isExpression hwrapped.expression
    obtain ⟨kind', role', start', stop', text', children'⟩ := m
    dsimp only at hkind hchildren
    subst hkind hchildren
    simp [writtenNames, writtenNamesAt, writtenNamesFirst, hplain, hnamed, hc]

theorem Parallel.reassignedNames (h : Parallel checks tail n m) :
    m.reassignedNames = n.reassignedNames := by
  have hat : ∀ role, Node.writtenNamesAt role m.children = Node.writtenNamesAt role n.children := by
    intro role
    rw [writtenNamesAt_eq, writtenNamesAt_eq]
    rcases h.child? role with ⟨hc, hd⟩ | ⟨c, d, hc, hd, hcd⟩
    · rw [hc, hd]
    · rw [hc, hd, Option.map_some, Option.map_some, writtenNames_enclosed hcd]
  have hbinding : (m.child? .binding).isSome = (n.child? .binding).isSome := by
    rcases h.child? .binding with ⟨hc, hd⟩ | ⟨c, d, hc, hd, -⟩
    · rw [hc, hd]
    · rw [hc, hd, Option.isSome_some, Option.isSome_some]
  unfold Node.reassignedNames
  rw [h.kind, hat, hat, hbinding]
  cases hk : n.kind with
  | forInStatement =>
    dsimp only
    rw [h.patternNamesAt (by rw [hk]; rfl)]
  | _ => rfl

/-- What nodes hold is the same throughout if parentheses hold nothing. -/
theorem flatMap_preorder_enclosed {α : Type} {f : Node → List α}
    (hparallel : ∀ tail n m, Parallel checks tail n m → f m = f n)
    (hwrapper : ∀ m : Node, m.kind = .parenthesized → f m = [])
    (h : enclosed checks parent role tail n m = true) :
    m.preorder.flatMap f = n.preorder.flatMap f := by
  have hall_eq : ∀ ns : List Node, (preorderAll ns).flatMap f =
      ns.flatMap fun n => n.preorder.flatMap f := by
    intro ns
    induction ns with
    | nil => rfl
    | cons n ns ih => rw [preorderAll, List.flatMap_append, List.flatMap_cons, ih]
  refine enclosed_induction
    (P := fun _ _ _ n m => m.preorder.flatMap f = n.preorder.flatMap f) ?_ ?_ h
  · intro parent role tail n m _ hpair hall
    rw [preorder_eq n, preorder_eq m, List.flatMap_cons, List.flatMap_cons,
      hparallel tail n m hpair, hall_eq, hall_eq, forall₂_flatMap hall fun c d hcd => hcd.2.2]
  · intro parent role tail n m c _ hwrapped hc
    rw [preorder_eq m, List.flatMap_cons, hwrapper m hwrapped.kind, hall_eq, hwrapped.children,
      List.flatMap_singleton]
    exact hc

theorem flatMap_reassignedNames_enclosed (h : enclosed checks parent role tail n m = true) :
    m.preorder.flatMap (·.reassignedNames) = n.preorder.flatMap (·.reassignedNames) :=
  flatMap_preorder_enclosed (fun _ _ _ hparallel => hparallel.reassignedNames)
    (fun m hm => by rw [reassignedNames, hm]) h

theorem flatMap_varNames_enclosed (h : enclosed checks parent role tail n m = true) :
    (m.preorder.flatMap fun c => if c.kind = .variableDeclaration then c.declaredNames else []) =
      n.preorder.flatMap fun c => if c.kind = .variableDeclaration then c.declaredNames else [] :=
  flatMap_preorder_enclosed (fun _ _ _ hparallel => by rw [hparallel.kind, hparallel.declaredNames])
    (fun m hm => by rw [hm, if_neg (by simp)]) h

namespace Parallel

variable (h : Parallel checks tail n m)
include h

theorem blockNames : Node.blockNames m.children = Node.blockNames n.children := by
  refine forall₂_flatMap h.children fun c d hcd => ?_
  have hkind : d.kind = .variableDeclaration ↔ c.kind = .variableDeclaration :=
    kind_iff_of_not_expression hcd rfl
  rw [declaredNames_enclosed hcd]
  exact if_congr hkind rfl rfl

theorem any_role (role : Role) :
    m.children.any (·.role == role) = n.children.any (·.role == role) :=
  (forall₂_any h.children fun c d hcd => by rw [(enclosed_iff.mp hcd).1]).symm

theorem loopNames (hkind : n.kind = .forStatement ∨ n.kind = .forInStatement) :
    Node.loopNames m.children = Node.loopNames n.children := by
  unfold Node.loopNames
  have hdeclared :
      (m.children.flatMap fun c => if c.kind.isDeclaration then c.declaredNames else []) =
      n.children.flatMap fun c => if c.kind.isDeclaration then c.declaredNames else [] := by
    refine forall₂_flatMap h.children fun c d hcd => ?_
    rw [declaredNames_enclosed hcd]
    obtain ⟨-, hparallel | ⟨e, hwrapped⟩⟩ := enclosed_iff.mp hcd
    · rw [hparallel.kind]
    · rw [declaredNames_of_isExpression hwrapped.expression, ite_self, ite_self]
  have hleft : Role.isOperand n.kind .left = false := by
    rcases hkind with hk | hk <;> rw [hk] <;> rfl
  rw [hdeclared, h.any_role, h.patternNamesAt hleft]

theorem hoistedNamesAll : Node.hoistedNamesAll m.children = Node.hoistedNamesAll n.children := by
  rw [hoistedNamesAll_eq, hoistedNamesAll_eq]
  exact forall₂_flatMap h.children fun c d hcd => hoistedNames_enclosed hcd

theorem functionNames :
    Node.functionNames m.kind m.children = Node.functionNames n.kind n.children := by
  unfold Node.functionNames
  refine congrArg₂ (· ++ ·) (congrArg₂ (· ++ ·) ?own ?parameters) ?hoisted
  case own =>
    rcases h.child? .name with ⟨hc, hd⟩ | ⟨c, d, hc, hd, hcd⟩
    · rw [Node.child?] at hc hd
      rw [hc, hd]
    · have hpair := parallel_of_not_operand hcd (Bool.and_false _)
      rw [Node.child?] at hc hd
      rw [hc, hd]
      dsimp only
      rw [h.kind, hpair.kind, hpair.text]
  case parameters =>
    have hparameters :=
      h.patternNamesAt (Bool.and_false _ : Role.isOperand n.kind .parameters = false)
    have hparameter :=
      h.patternNamesAt (Bool.and_false _ : Role.isOperand n.kind .parameter = false)
    rw [h.any_role, hparameters, hparameter]
  case hoisted =>
    rcases h.child? .body with ⟨hc, hd⟩ | ⟨c, d, hc, hd, hcd⟩
    · rw [Node.child?] at hc hd
      rw [hc, hd]
    · rw [Node.child?] at hc hd
      rw [hc, hd]
      dsimp only
      have hblock : d.kind = .block ↔ c.kind = .block := kind_iff_of_not_expression hcd rfl
      by_cases hk : c.kind = .block
      · rw [if_pos hk, if_pos (hblock.mpr hk)]
        exact (parallel_of_not_expression hcd (by rw [hk]; rfl)).hoistedNamesAll
      · rw [if_neg hk, if_neg fun hd => hk (hblock.mp hd)]

end Parallel

end Names

end Node
end ThemedCss.Syntax
