import ThemedCss.Proofs.Scope.Completeness
import ThemedCss.Proofs.Syntax.Enclosed

/-! What trees read that differ by parentheses around operands. -/
namespace ThemedCss.Scope
open ThemedCss.Syntax ThemedCss.Syntax.Node

/-- The same read with the end of its chain cut off. All checks that the rest of the chain passes
were passed before. -/
inductive Read.Cut (checks : List ChainCheck) : Read → Read → Prop
  | effect (pos pos' : Nat) : Cut checks (.effect pos) (.effect pos')
  | name {x : String} {chain kept : List String} (pos pos' : Nat) : kept <+: chain →
      (∀ check ∈ checks, check x kept = true → check x chain = true) →
      Cut checks (.name x chain pos) (.name x kept pos')

abbrev CutReads (checks : List ChainCheck) : List Read → List Read → Prop :=
  List.Forall₂ (Read.Cut checks)

variable {checks : List ChainCheck}

theorem Read.Cut.refl (read : Read) : Read.Cut checks read read := by
  cases read with
  | effect pos => exact .effect pos pos
  | name x chain pos => exact .name pos pos (List.prefix_refl chain) fun _ _ h => h

theorem CutReads.refl (reads : List Read) : CutReads checks reads reads :=
  List.forall₂_same.mpr fun read _ => .refl read

theorem cutReads_unlessBound {x : String} {chain kept : List String} (bound : List String)
    (pos pos' : Nat) (hinitial : kept <+: chain)
    (hchecks : ∀ check ∈ checks, check x kept = true → check x chain = true) :
    CutReads checks (Read.unlessBound bound x chain pos) (Read.unlessBound bound x kept pos') := by
  unfold Read.unlessBound
  split_ifs
  · exact .nil
  · exact .cons (.name pos pos' hinitial hchecks) .nil

end ThemedCss.Scope

namespace ThemedCss.Syntax.Node
open ThemedCss.Scope

variable {checks : List ChainCheck} {parent : Kind} {role : Role} {tail : List String} {n m : Node}

section Chains

theorem chain?_member (hkind : n.kind = .member) :
    n.chain? = n.member?.bind fun p => ((n.child? .object).bind chain?).map fun c =>
      (c.1, c.2.1, p :: c.2.2) := by
  have hobject := objectChain?_eq n
  obtain ⟨kind, role, start, stop, text, children⟩ := n
  obtain rfl : kind = .member := hkind
  have hmember : member? ⟨.member, role, start, stop, text, children⟩ =
      ((children.find? (·.role == .property)).filter (·.kind == .propertyName)).map (·.text) :=
        if_pos rfl
  rw [chain?.eq_def, hmember]
  dsimp only at hobject ⊢
  rw [hobject]
  cases children.find? (·.role == .property) with
  | none => rfl
  | some property => by_cases hk : property.kind = .propertyName <;> simp [hk, Option.filter_some]

theorem chain?_identifier (hkind : n.kind = .identifier) :
    n.chain? = some (n.text, n.start, []) := by
  obtain ⟨kind, role, start, stop, text, children⟩ := n
  obtain rfl : kind = .identifier := hkind
  rfl

theorem chain?_eq_none (hidentifier : n.kind ≠ .identifier) (hmember : n.kind ≠ .member) :
    n.chain? = none := by
  obtain ⟨kind, role, start, stop, text, children⟩ := n
  rw [chain?.eq_def]
  dsimp only at hidentifier hmember ⊢
  split
  · exact absurd rfl hidentifier
  · exact absurd rfl hmember
  · rfl

/-- A chain is read as a whole. -/
theorem reads_of_chain? {x : String} {pos : Nat} {chain : List String}
    (h : n.chain? = some (x, pos, chain)) (bound : List String) :
    n.reads bound = Read.unlessBound bound x chain.reverse pos := by
  by_cases hidentifier : n.kind = .identifier
  · rw [chain?_identifier hidentifier] at h
    obtain ⟨kind, role, start, stop, text, children⟩ := n
    obtain rfl : kind = .identifier := hidentifier
    obtain ⟨rfl, rfl, rfl⟩ : text = x ∧ start = pos ∧ [] = chain := by simpa using h
    simp [reads, Kind.isEffect]
  · by_cases hmember : n.kind = .member
    · exact reads_of_chain hmember h
    · rw [chain?_eq_none hidentifier hmember] at h
      cases h

theorem reads_member_of_none (hkind : n.kind = .member) (h : n.chain? = none)
    (bound : List String) : n.reads bound = readsAt bound .object n.children := by
  obtain ⟨kind, role, start, stop, text, children⟩ := n
  obtain rfl : kind = .member := hkind
  simp [reads, Kind.isEffect, h]

theorem reads_parenthesized {c : Node} (hkind : n.kind = .parenthesized)
    (hchildren : n.children = [c]) (bound : List String) : n.reads bound = c.reads bound := by
  obtain ⟨kind, role, start, stop, text, children⟩ := n
  obtain rfl : kind = .parenthesized := hkind
  obtain rfl : children = [c] := hchildren
  simp [reads, readsAll, Kind.isEffect]

theorem Parallel.member? (h : Parallel checks tail n m) : m.member? = n.member? := by
  unfold Node.member?
  rw [h.kind]
  rcases h.child? .property with ⟨hc, hd⟩ | ⟨c, d, hc, hd, hcd⟩
  · rw [hc, hd]
  · have hpair := parallel_of_not_operand hcd (Bool.and_false _)
    rw [hc, hd, Option.filter_some, Option.filter_some, hpair.kind]
    split_ifs
    · rw [Option.map_some, Option.map_some, hpair.text]
    · rfl
    · rfl

/-- Parentheses make no chains. -/
theorem chain?_of_enclosed (h : enclosed checks parent role tail n m = true) :
    ∀ x pos chain, m.chain? = some (x, pos, chain) → ∃ pos', n.chain? = some (x, pos', chain) := by
  refine enclosed_induction (P := fun _ _ _ n m =>
    ∀ x pos chain, m.chain? = some (x, pos, chain) →
      ∃ pos', n.chain? = some (x, pos', chain)) ?_ ?_ h
  · intro parent role tail n m _ hparallel hall x pos chain hchain
    by_cases hidentifier : n.kind = .identifier
    · rw [chain?_identifier (hparallel.kind.trans hidentifier), hparallel.text] at hchain
      obtain ⟨rfl, -, rfl⟩ : n.text = x ∧ m.start = pos ∧ [] = chain := by simpa using hchain
      exact ⟨_, chain?_identifier hidentifier⟩
    · by_cases hmember : n.kind = .member
      · rw [chain?_member (hparallel.kind.trans hmember), hparallel.member?] at hchain
        obtain ⟨p, hp, hchain⟩ := Option.bind_eq_some_iff.mp hchain
        obtain ⟨⟨x', pos', chain'⟩, hobject, heq⟩ := Option.map_eq_some_iff.mp hchain
        obtain ⟨rfl, rfl, rfl⟩ : x' = x ∧ pos' = pos ∧ p :: chain' = chain := by simpa using heq
        obtain ⟨d, hd, hchain'⟩ := Option.bind_eq_some_iff.mp hobject
        rcases child?_of_forall₂ (fun c d hcd => hcd.1) hall .object with ⟨-, hnone⟩ |
          ⟨c, d', hc, hd', -, -, -, ih⟩
        · rw [hnone] at hd
          cases hd
        · obtain rfl := Option.some.inj (hd'.symm.trans hd)
          obtain ⟨pos'', hc'⟩ := ih _ _ _ hchain'
          refine ⟨pos'', ?_⟩
          rw [chain?_member hmember, hp, hc]
          simp [hc']
      · rw [chain?_eq_none (hparallel.kind ▸ hidentifier) (hparallel.kind ▸ hmember)] at hchain
        cases hchain
  · intro parent role tail n m c _ hwrapped _ x pos chain hchain
    rw [chain?_eq_none (by simp [hwrapped.kind]) (by simp [hwrapped.kind])] at hchain
    cases hchain

/-- What becomes of a chain off which `tail` hangs: it is whole, or only a part of it is read and no
more, because the rest was cut off. -/
inductive Trimmed (checks : List ChainCheck) (tail : List String) (x : String) (chain : List String)
    (m : Node) : Prop
  | whole (pos : Nat) : m.chain? = some (x, pos, chain) → Trimmed checks tail x chain m
  | cut (kept : List String) (pos : Nat) : m.chain? = none →
      (∀ bound, m.reads bound = Read.unlessBound bound x kept pos) →
      kept <+: chain.reverse ++ tail →
      (∀ check ∈ checks, check x kept = true → check x (chain.reverse ++ tail) = true) →
      Trimmed checks tail x chain m

theorem Trimmed.member {x p : String} {chain : List String} {d : Node}
    (h : Trimmed checks (p :: tail) x chain d) (hkind : m.kind = .member) (hp : m.member? = some p)
    (hd : m.child? .object = some d) : Trimmed checks tail x (p :: chain) m := by
  have hchain : m.chain? = (d.chain?).map fun c => (c.1, c.2.1, p :: c.2.2) := by
    rw [chain?_member hkind, hp, hd]
    rfl
  have hwhole : chain.reverse ++ p :: tail = (p :: chain).reverse ++ tail := by simp
  cases h with
  | whole pos h =>
    apply Trimmed.whole pos
    rw [hchain, h]
    rfl
  | cut kept pos hnone hreads hinitial hchecks =>
    have hnone' : m.chain? = none := by
      rw [hchain, hnone]
      rfl
    rw [hwhole] at hinitial hchecks
    refine .cut kept pos hnone' (fun bound => ?_) hinitial hchecks
    rw [reads_member_of_none hkind hnone', readsAt_eq, hd]
    simpa using hreads bound

/-- Parentheses cut a chain behind what they hold. -/
theorem Trimmed.parenthesized {x : String} {chain : List String} {c : Node}
    (h : Trimmed checks [] x chain c) (hkind : m.kind = .parenthesized)
    (hchildren : m.children = [c])
    (hcut : ∀ check ∈ checks, check x chain.reverse = true →
      check x (chain.reverse ++ tail) = true) :
    Trimmed checks tail x chain m := by
  have hnone : m.chain? = none := chain?_eq_none (by simp [hkind]) (by simp [hkind])
  have hreads : ∀ bound, m.reads bound = c.reads bound := reads_parenthesized hkind hchildren
  have hbehind : chain.reverse <+: chain.reverse ++ tail := List.prefix_append _ _
  cases h with
  | whole pos h =>
    refine .cut chain.reverse pos hnone (fun bound => ?_) hbehind hcut
    rw [hreads, reads_of_chain? h]
  | cut kept pos _ hkept hinitial hchecks =>
    rw [List.append_nil] at hinitial hchecks
    refine .cut kept pos hnone (fun bound => ?_) (hinitial.trans hbehind) fun check hcheck h => ?_
    · rw [hreads, hkept]
    · exact hcut check hcheck (hchecks check hcheck h)

private theorem checks_of_mayCut {x : String} {pos : Nat} {chain : List String}
    (h : n.mayCut checks tail = true) (hchain : n.chain? = some (x, pos, chain)) :
    ∀ check ∈ checks, check x chain.reverse = true → check x (chain.reverse ++ tail) = true := by
  intro check hcheck hkept
  rw [mayCut, hchain, Bool.or_eq_true, List.isEmpty_iff] at h
  rcases h with rfl | h
  · rwa [List.append_nil]
  · have hall := List.all_eq_true.mp h check hcheck
    rw [hkept] at hall
    simpa using hall

/-- Chains are cut only where the checks allow it. -/
theorem trimmed_of_enclosed (h : enclosed checks parent role tail n m = true) :
    ∀ x pos chain, n.chain? = some (x, pos, chain) → Trimmed checks tail x chain m := by
  refine enclosed_induction (P := fun _ _ tail n m =>
    ∀ x pos chain, n.chain? = some (x, pos, chain) → Trimmed checks tail x chain m) ?_ ?_ h
  · intro parent role tail n m _ hparallel hall x pos chain hchain
    by_cases hidentifier : n.kind = .identifier
    · rw [chain?_identifier hidentifier] at hchain
      obtain ⟨rfl, -, rfl⟩ : n.text = x ∧ n.start = pos ∧ [] = chain := by simpa using hchain
      apply Trimmed.whole m.start
      rw [chain?_identifier (hparallel.kind.trans hidentifier), hparallel.text]
    · by_cases hmember : n.kind = .member
      · rw [chain?_member hmember] at hchain
        obtain ⟨p, hp, hchain⟩ := Option.bind_eq_some_iff.mp hchain
        obtain ⟨⟨x', pos', chain'⟩, hobject, heq⟩ := Option.map_eq_some_iff.mp hchain
        obtain ⟨rfl, rfl, rfl⟩ : x' = x ∧ pos' = pos ∧ p :: chain' = chain := by simpa using heq
        obtain ⟨c, hc, hchain'⟩ := Option.bind_eq_some_iff.mp hobject
        rcases child?_of_forall₂ (fun c d hcd => hcd.1) hall .object with ⟨hnone, -⟩ |
          ⟨c', d, hc', hd, hrole, -, -, ih⟩
        · rw [hnone] at hc
          cases hc
        · obtain rfl := Option.some.inj (hc'.symm.trans hc)
          rw [tailBelow, if_pos hrole, hp] at ih
          exact (ih _ _ _ hchain').member (hparallel.kind.trans hmember)
            (hparallel.member?.trans hp) hd
      · rw [chain?_eq_none hidentifier hmember] at hchain
        cases hchain
  · intro parent role tail n m c _ hwrapped ih x pos chain hchain
    exact (ih x pos chain hchain).parenthesized hwrapped.kind hwrapped.children
      (checks_of_mayCut hwrapped.cut hchain)

end Chains

section Reads

/-- What two nodes read differs by cuts. If the first is a chain, nothing may hang off it. -/
structure ReadAlike (checks : List ChainCheck) (operand : Bool) (tail : List String) (n m : Node) :
    Prop where
  reads : tail = [] ∨ n.chain? = none → ∀ bound, CutReads checks (n.reads bound) (m.reads bound)
  defaults : ∀ bound, CutReads checks (Node.defaults bound [n]) (Node.defaults bound [m])
  /-- As a pattern, of which only the elements count. -/
  elements : operand = false →
    ∀ bound, CutReads checks (Node.defaults bound n.children) (Node.defaults bound m.children)

theorem tailBelow_eq_nil (hkind : n.kind ≠ .member) (c : Node) : n.tailBelow tail c = [] := by
  simp [tailBelow, member?, hkind]

def ChildrenAlike (checks : List ChainCheck) (tail : List String) (n m : Node) : Prop :=
  List.Forall₂ (fun c d => d.role = c.role ∧
    enclosed checks n.kind c.role (n.tailBelow tail c) c d = true ∧
    ReadAlike checks (c.role.isOperand n.kind) (n.tailBelow tail c) c d) n.children m.children

namespace ChildrenAlike

variable (h : ChildrenAlike checks tail n m) (bound : List String)
include h

theorem child? (role : Role) : n.child? role = none ∧ m.child? role = none ∨
    ∃ c d, n.child? role = some c ∧ m.child? role = some d ∧ c.role = role ∧
      enclosed checks n.kind role (n.tailBelow tail c) c d = true ∧
      ReadAlike checks (role.isOperand n.kind) (n.tailBelow tail c) c d := by
  rcases child?_of_forall₂ (fun c d hcd => hcd.1) h role with hnone |
    ⟨c, d, hc, hd, rfl, -, hcd, halike⟩
  · exact .inl hnone
  · exact .inr ⟨c, d, hc, hd, rfl, hcd, halike⟩

theorem readsAll (hkind : n.kind ≠ .member) :
    CutReads checks (Node.readsAll bound n.children) (Node.readsAll bound m.children) := by
  rw [readsAll_eq, readsAll_eq]
  refine List.rel_flatMap h fun c d hcd => hcd.2.2.reads (.inl ?_) bound
  exact tailBelow_eq_nil hkind c

theorem readsAt (role : Role) (hkind : n.kind ≠ .member) :
    CutReads checks (Node.readsAt bound role n.children) (Node.readsAt bound role m.children) := by
  rw [readsAt_eq, readsAt_eq]
  rcases h.child? role with ⟨hc, hd⟩ | ⟨c, d, hc, hd, -, -, halike⟩
  · rw [hc, hd]
    exact .nil
  · rw [hc, hd]
    simpa using halike.reads (.inl (tailBelow_eq_nil hkind c)) bound

theorem readsComputed (hkind : n.kind ≠ .member) :
    CutReads checks (Node.readsComputed bound .key n.children)
      (Node.readsComputed bound .key m.children) := by
  rw [readsComputed_eq, readsComputed_eq]
  rcases h.child? .key with ⟨hc, hd⟩ | ⟨c, d, hc, hd, -, hcd, halike⟩
  · rw [hc, hd]
    exact .nil
  · have hsame := (parallel_of_not_operand hcd (Bool.and_false _)).kind
    rw [hc, hd, Option.filter_some, Option.filter_some, hsame]
    split_ifs
    · simpa using halike.reads (.inl (tailBelow_eq_nil hkind c)) bound
    · exact .nil

theorem readsExceptNames (hkind : n.kind ≠ .member)
    (hoperand : ∀ role, Role.isOperand n.kind role = false) :
    CutReads checks (Node.readsExceptNames bound n.children)
      (Node.readsExceptNames bound m.children) := by
  rw [readsExceptNames_eq, readsExceptNames_eq]
  have hfilter :=
    List.rel_filter (p := (·.kind != .identifier)) (q := (·.kind != .identifier)) (fun c d hcd => by
      simp [(parallel_of_not_operand hcd.2.1 (hoperand c.role)).kind]) h
  refine List.rel_flatMap hfilter fun c d hcd => hcd.2.2.reads (.inl ?_) bound
  exact tailBelow_eq_nil hkind c

theorem defaults :
    CutReads checks (Node.defaults bound n.children) (Node.defaults bound m.children) := by
  rw [defaults_eq, defaults_eq bound m.children]
  exact List.rel_flatMap h fun c d hcd => hcd.2.2.defaults bound

theorem defaultsAt (role : Role) (hrole : role.isOperand n.kind = false) :
    CutReads checks (Node.defaultsAt bound role n.children)
      (Node.defaultsAt bound role m.children) := by
  rw [defaultsAt_eq, defaultsAt_eq, ← defaults_eq, ← defaults_eq, elementsAt, elementsAt]
  rcases h.child? role with ⟨hc, hd⟩ | ⟨c, d, hc, hd, -, -, halike⟩
  · rw [hc, hd]
    exact .nil
  · rw [hc, hd]
    simpa using halike.elements hrole bound

end ChildrenAlike

/-- Parts that stay the same are read in the same scopes. -/
theorem Parallel.reads (h : Parallel checks tail n m) (hall : ChildrenAlike checks tail n m)
    (hmember : n.kind ≠ .member) (bound : List String) :
    CutReads checks (n.reads bound) (m.reads bound) := by
  have hblock := h.blockNames
  have hloop := h.loopNames
  have hfunction := h.functionNames
  have hcatch := h.patternNamesAt (Bool.and_false _ : Role.isOperand n.kind .parameter = false)
  have hany := h.any_role
  have hparameters := fun bound => hall.defaultsAt bound .parameters (Bool.and_false _)
  have hparameter := fun bound => hall.defaultsAt bound .parameter (Bool.and_false _)
  have hname := hall.defaultsAt bound .name (Bool.and_false _)
  have hat := fun bound role => hall.readsAt bound role hmember
  have hparts := fun bound => hall.readsAll bound hmember
  have hkey := hall.readsComputed bound hmember
  have hclass := hall.readsExceptNames bound hmember
  have hkind := h.kind
  have htext := h.text
  obtain ⟨kind, role, start, stop, text, children⟩ := n
  obtain ⟨kind', role', start', stop', text', children'⟩ := m
  dsimp only at *
  subst hkind htext
  have heffect : CutReads checks (if kind'.isEffect then [Read.effect start] else [])
      (if kind'.isEffect then [Read.effect start'] else []) := by
    split_ifs
    · exact .cons (.effect start start') .nil
    · exact .nil
  rw [Node.reads.eq_def, Node.reads.eq_def]
  dsimp only
  refine List.rel_append heffect ?_
  cases kind' with
  | member => exact absurd rfl hmember
  | propertyName | privateName | labelName | shorthandPattern | typeAscription | typeArguments |
      typeParameters =>
    exact .nil
  | identifier | shorthand =>
    exact cutReads_unlessBound bound start start' (List.prefix_refl []) fun _ _ h => h
  | arrowFunction | functionExpression | functionDeclaration | generatorExpression |
      generatorDeclaration | method =>
    dsimp only
    rw [hfunction, hany]
    refine List.rel_append ?_ (hat _ .body)
    split_ifs
    · exact hparameters _
    · exact hparameter _
  | block | classBody | program | switchBody =>
    dsimp only
    rw [hblock]
    exact hparts _
  | forStatement | forInStatement =>
    dsimp only
    rw [hloop (by simp)]
    exact hparts _
  | catchClause =>
    dsimp only
    rw [hcatch]
    exact hat _ .body
  | declarator => exact List.rel_append hname (hat bound .value)
  | pair | pairPattern => exact List.rel_append hkey (hat bound .value)
  | classDeclaration | classExpression => exact hclass fun _ => rfl
  | _ => exact hparts bound

theorem Trimmed.reads {x : String} {pos : Nat} {chain : List String}
    (h : Trimmed checks [] x chain m) (hchain : n.chain? = some (x, pos, chain))
    (bound : List String) : CutReads checks (n.reads bound) (m.reads bound) := by
  rw [reads_of_chain? hchain]
  cases h with
  | whole pos' h =>
    rw [reads_of_chain? h]
    exact cutReads_unlessBound bound pos pos' (List.prefix_refl _) fun _ _ h => h
  | cut kept pos' _ hreads hinitial hchecks =>
    rw [List.append_nil] at hinitial hchecks
    rw [hreads]
    exact cutReads_unlessBound bound pos pos' hinitial hchecks

/-- A member access that is no chain reads what its object reads. -/
theorem Parallel.reads_member (h : Parallel checks tail n m) (hall : ChildrenAlike checks tail n m)
    (hmember : n.kind = .member) (hn : n.chain? = none) (hm : m.chain? = none)
    (bound : List String) : CutReads checks (n.reads bound) (m.reads bound) := by
  rw [reads_member_of_none hmember hn, reads_member_of_none (h.kind.trans hmember) hm,
    readsAt_eq, readsAt_eq]
  rcases hall.child? .object with ⟨hc, hd⟩ | ⟨c, d, hc, hd, hrole, -, halike⟩
  · rw [hc, hd]
    exact .nil
  · -- either the access ends the chain below it, or there is none
    have hend : n.tailBelow tail c = [] ∨ c.chain? = none := by
      rw [tailBelow, if_pos hrole]
      rw [chain?_member hmember, hc] at hn
      cases hp : n.member? with
      | none => exact .inl rfl
      | some p =>
        rw [hp] at hn
        simpa using hn
    rw [hc, hd]
    simpa using halike.reads hend bound

theorem defaults_of_isExpression (h : n.kind.isExpression = true) (bound : List String) :
    defaults bound [n] = [] := by
  obtain ⟨kind, role, start, stop, text, children⟩ := n
  cases kind with
  | assignmentPattern | shorthandDefault | pairPattern | objectPattern | arrayPattern |
      restPattern | requiredParameter
  | optionalParameter => cases h
  | _ => rfl

theorem Parallel.defaults (h : Parallel checks tail n m) (hall : ChildrenAlike checks tail n m)
    (bound : List String) :
    CutReads checks (Node.defaults bound [n]) (Node.defaults bound [m]) := by
  have hparts := hall.defaults bound
  have hright := hall.readsAt bound .right
  have hleft := hall.defaultsAt bound .left
  have hkind := h.kind
  obtain ⟨kind, role, start, stop, text, children⟩ := n
  obtain ⟨kind', role', start', stop', text', children'⟩ := m
  dsimp only at *
  subst hkind
  cases kind' with
  | assignmentPattern | shorthandDefault =>
    simp only [Node.defaults, List.append_nil]
    exact List.rel_append (hright (by simp)) (hleft rfl)
  | pairPattern | objectPattern | arrayPattern | restPattern | requiredParameter |
      optionalParameter =>
    simp only [Node.defaults, List.append_nil]
    exact hparts
  | _ => exact .nil

/-- Parentheses around operands cut the chains that are read, and change nothing else. -/
theorem readAlike_of_enclosed (h : enclosed checks parent role tail n m = true) :
    ReadAlike checks (role.isOperand parent) tail n m := by
  refine enclosed_induction
    (P := fun parent role tail n m => ReadAlike checks (role.isOperand parent) tail n m) ?_ ?_ h
  · intro parent role tail n m hrole hparallel hall
    have henclosed : enclosed checks parent role tail n m = true :=
      enclosed_iff.mpr ⟨hrole, .inl hparallel⟩
    refine ⟨fun hend bound => ?_, hparallel.defaults hall, fun _ => ChildrenAlike.defaults hall⟩
    cases hchain : n.chain? with
    | some c =>
      have htail : tail = [] := hend.resolve_right (by simp [hchain])
      subst htail
      exact (trimmed_of_enclosed henclosed _ _ _ hchain).reads hchain bound
    | none =>
      by_cases hmember : n.kind = .member
      · refine hparallel.reads_member hall hmember hchain ?_ bound
        rw [Option.eq_none_iff_forall_ne_some]
        intro c hc
        obtain ⟨pos, hpos⟩ := chain?_of_enclosed henclosed _ _ _ hc
        rw [hchain] at hpos
        cases hpos
      · exact hparallel.reads hall hmember bound
  · intro parent role tail n m c _ hwrapped hc
    refine ⟨fun _ bound => ?_, fun bound => ?_, fun hoperand => ?_⟩
    · rw [reads_parenthesized hwrapped.kind hwrapped.children]
      exact hc.reads (.inl rfl) bound
    · rw [defaults_of_isExpression hwrapped.expression,
        defaults_of_isExpression (by rw [hwrapped.kind]; rfl)]
      exact .nil
    · rw [hwrapped.operand] at hoperand
      cases hoperand

end Reads

end ThemedCss.Syntax.Node
