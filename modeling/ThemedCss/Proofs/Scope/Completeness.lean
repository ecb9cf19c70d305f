import Mathlib.Data.List.Basic
import Mathlib.Tactic.SplitIfs
import ThemedCss.Proofs.Scope.Occurrence
import ThemedCss.Proofs.Scope.Traversal
import ThemedCss.Syntax.Parser

/-! Which occurrences the reads of a node report. -/
namespace ThemedCss.Syntax.Node
open ThemedCss.Scope

variable {bound : List String} {n : Node}

section Defaults

variable (bound : List String) (role : Role) (n : Node)

theorem defaultsAt_eq : defaultsAt bound role n.children =
    (n.elementsAt role).flatMap fun n => defaults bound [n] := by
  rw [← defaults_eq, elementsAt, child?]
  induction n.children with
  | nil => rfl
  | cons n ns ih =>
    obtain ⟨kind, role', start, stop, text, children⟩ := n
    by_cases h : role' = role
    · simp [defaultsAt, h]
    · simp [defaultsAt, h, ih]

private theorem defaults_parameters :
    (if n.children.any (·.role == .parameters) then defaultsAt bound .parameters n.children
    else defaultsAt bound .parameter n.children) =
      n.parameterNodes.flatMap fun n => defaults bound [n] := by
  rw [any_role, defaultsAt_eq, defaultsAt_eq, parameterNodes]
  by_cases h : (n.child? .parameters).isSome
    <;> simp only [h, if_true, Bool.false_eq_true, if_false]

end Defaults

/-- The names that the analysis hoists to the top of a function. -/
def hoistedOf (n : Node) : List String :=
  ((n.child? .body).filter (·.kind == .block)).toList.flatMap fun body =>
    hoistedNamesAll body.children

theorem functionNames_eq : functionNames n.kind n.children =
    (if n.kind = .functionDeclaration then [] else n.ownNames) ++ n.parameterNames ++
      n.hoistedOf := by
  refine congrArg₂ (· ++ ·) (congrArg₂ (· ++ ·) ?own ?parameters) ?hoisted
  case own =>
    rw [ownNames, child?]
    cases n.children.find? (·.role == .name) with
    | none => simp
    | some c =>
      by_cases hk : n.kind = .functionDeclaration <;> by_cases hc : c.kind = .identifier <;>
        simp [Option.filter_some, hk, hc]
  case parameters =>
    rw [any_role, patternNamesAt_eq, patternNamesAt_eq, parameterNames]
    cases n.child? .parameters <;> rfl
  case hoisted =>
    rw [hoistedOf, child?]
    cases n.children.find? (·.role == .body) with
    | none => rfl
    | some body => by_cases hk : body.kind = .block <;> simp [Option.filter_some, hk]

end ThemedCss.Syntax.Node

namespace ThemedCss.Scope
open ThemedCss.Syntax ThemedCss.Syntax.Node

variable {bound : List String} {n : Node} {p : Part} {way : List Part} {o : Occurrence}

/-- Parts that the analysis never looks at. -/
def Position.isOverlooked : Position → Bool
  | methodName | methodDecorator | caught | key | typedFallback | parameterDecorator => true
  | _ => false

/-- Names that the analysis takes as bound in a part although the scope of their binder does not
hold it: the variables of a function in the default values of its parameters, and those of static
blocks in the function around. -/
def Part.leaked (p : Part) : List String :=
  match p.position with
  | .parameter | .body => p.parent.hoistedOf.filter (!p.scope.contains ·)
  | _ => []

/-- The analysis sees an occurrence: it looks at each part of the way, and takes no name for bound
that is not. -/
def Seen (way : List Part) (o : Occurrence) : Prop :=
  ∀ p ∈ way, p.position.isOverlooked = false ∧ o.Avoids p.leaked

instance (way : List Part) (o : Occurrence) : Decidable (Seen way o) :=
  inferInstanceAs (Decidable (∀ p ∈ way, p.position.isOverlooked = false ∧ o.Avoids p.leaked))

/-- The names that the analysis takes as bound in a part, where `bound` are those around. -/
def Part.assumed (p : Part) (bound : List String) : List String :=
  bound ++ if p.parent.kind.isFunction then functionNames p.parent.kind p.parent.children
    else p.scope

/-- What the analysis reports of a node, which is a pattern or is evaluated. -/
def reported (inPattern : Bool) (bound : List String) (n : Node) : List Read :=
  if inPattern then defaults bound [n] else n.reads bound

@[simp] theorem reported_evaluated : reported false bound = reads bound :=
  rfl

@[simp] theorem reported_pattern : reported true bound = fun n => defaults bound [n] :=
  rfl

def ownReads (bound : List String) (n : Node) : List Read :=
  (if n.kind.isEffect then [.effect n.start] else []) ++
    if n.kind = .identifier ∨ n.kind = .shorthand then
      Read.unlessBound bound n.text [] n.start
    else []

def reportedParts (bound : List String) (parts : List Part) : List Read :=
  (parts.filter (!·.position.isOverlooked)).flatMap fun p =>
    reported p.position.isPattern (p.assumed bound) p.node

@[simp] theorem reportedParts_nil : reportedParts bound [] = [] :=
  rfl

@[simp] theorem reportedParts_append (ps qs : List Part) :
    reportedParts bound (ps ++ qs) = reportedParts bound ps ++ reportedParts bound qs := by
  simp only [reportedParts, List.filter_append, List.flatMap_append]

theorem reportedParts_partsAt (position : Position) (scope : List String) (ns : List Node) :
    reportedParts bound (n.partsAt position scope ns) =
      if position.isOverlooked then []
      else ns.flatMap (reported position.isPattern
        (bound ++ if n.kind.isFunction then functionNames n.kind n.children else scope)) := by
  by_cases h : position.isOverlooked <;>
    simp [reportedParts, partsAt, List.filter_map, Function.comp_def, h, List.flatMap_map,
      Part.assumed]

theorem reads_eq_parts (hchain : n.kind = .member → n.chain? = none) :
    n.reads bound = ownReads bound n ++ reportedParts bound n.evaluatedParts := by
  have hat := fun bound role => readsAt_eq bound role n
  have hkey := readsComputed_eq bound .key n
  have hdefaults := fun bound role => defaultsAt_eq bound role n
  have hparameters := fun bound => defaults_parameters bound n
  have hnames := patternNamesAt_eq .parameter n
  obtain ⟨kind, role, start, stop, text, children⟩ := n
  dsimp only at hat hkey hdefaults hparameters hnames
  cases kind with
  | member =>
    have hnone := hchain rfl
    simp [reads, ownReads, evaluatedParts, Kind.isFunction, Kind.isEffect, reportedParts_partsAt,
      Position.isOverlooked, Position.isPattern, hnone, hat]
  | arrowFunction | functionExpression | functionDeclaration | generatorExpression |
      generatorDeclaration | method =>
    simp [reads, ownReads, evaluatedParts, Kind.isFunction, Kind.isEffect, reportedParts_partsAt,
      Position.isOverlooked, Position.isPattern, hat, hparameters, -List.any_eq_true]
  | _ =>
    simp [reads, ownReads, evaluatedParts, Kind.isFunction, Kind.isEffect, reportedParts_partsAt,
      Position.isOverlooked,
      Position.isPattern, readsAll_eq, readsExceptNames_eq, hat, hkey, hdefaults, hnames]

theorem defaults_eq_parts : defaults bound [n] = reportedParts bound n.patternParts := by
  have hright := readsAt_eq bound .right n
  have hleft := defaultsAt_eq bound .left n
  obtain ⟨kind, role, start, stop, text, children⟩ := n
  dsimp only at hright hleft
  cases kind with
  | _ =>
    simp [defaults, patternParts, reportedParts_partsAt, Kind.isFunction, Position.isOverlooked,
      Position.isPattern, hright, hleft, ← defaults_eq]

/-- What the analysis reports of a node is what stands there, and what it reports of the parts that
it looks at. -/
theorem mem_reported_iff {inPattern : Bool} {r : Read}
    (hchain : inPattern = false → n.kind = .member → n.chain? = none) :
    r ∈ reported inPattern bound n ↔ (inPattern = false ∧ r ∈ ownReads bound n) ∨
      ∃ p ∈ n.partsOf inPattern, p.position.isOverlooked = false ∧
        r ∈ reported p.position.isPattern (p.assumed bound) p.node := by
  cases inPattern with
  | true =>
    show r ∈ defaults bound [n] ↔ _
    rw [defaults_eq_parts, reportedParts]
    simp [partsOf, and_assoc]
  | false =>
    rw [reported_evaluated, reads_eq_parts (hchain rfl), reportedParts]
    simp [partsOf, and_assoc]

theorem mem_partsAt {position : Position} {scope : List String} {ns : List Node} :
    p ∈ n.partsAt position scope ns ↔ ∃ m ∈ ns, ⟨position, n, scope, m⟩ = p := by
  rw [partsAt, List.mem_map]

/-- In a function the analysis looks at parameters and body, where the names around them are in
scope. -/
theorem mem_evaluatedParts_function (hf : n.kind.isFunction) (hp : p ∈ n.evaluatedParts)
    (hlook : p.position.isOverlooked = false) :
    p.parent = n ∧ (p.position = .parameter ∨ p.position = .body) ∧
      n.ownNames ++ n.parameterNames ⊆ p.scope := by
  rw [evaluatedParts, if_pos hf] at hp
  simp only [List.mem_append, mem_partsAt] at hp
  rcases hp with ((⟨m, _, rfl⟩ | ⟨m, _, rfl⟩) | ⟨m, _, rfl⟩) | ⟨m, _, rfl⟩
  · cases hlook
  · cases hlook
  · exact ⟨rfl, .inl rfl, List.Subset.refl _⟩
  · exact ⟨rfl, .inr rfl, List.subset_append_left _ _⟩

private theorem mem_evaluatedParts_other (hf : n.kind.isFunction = false)
    (hp : p ∈ n.evaluatedParts) : p.parent = n ∧ p.position ≠ .parameter ∧ p.position ≠ .body := by
  rw [evaluatedParts, if_neg (by rw [hf]; exact Bool.false_ne_true)] at hp
  split at hp <;> simp only [List.mem_append, mem_partsAt, List.not_mem_nil] at hp <;> grind

private theorem mem_patternParts (hp : p ∈ n.patternParts) :
    n.kind.isFunction = false ∧ p.parent = n ∧ p.position ≠ .parameter ∧ p.position ≠ .body := by
  unfold patternParts at hp
  split at hp <;> simp only [List.mem_append, mem_partsAt, List.not_mem_nil] at hp
    <;> grind [Kind.isFunction]

/-- The names taken as bound in a part are those in scope, save that functions bind what they hoist
in all parts and that a declared function does not bind its own name. -/
theorem assumed_cases {inPattern : Bool} (hp : p ∈ n.partsOf inPattern)
    (hlook : p.position.isOverlooked = false) (bound : List String) :
    (p.assumed bound = bound ++ p.scope ∧ p.leaked = []) ∨
      (p.assumed bound ⊆ bound ++ p.scope ++ n.hoistedOf ∧ bound ++ n.hoistedOf ⊆ p.assumed bound ∧
        p.leaked = n.hoistedOf.filter (!p.scope.contains ·)) := by
  have other (hf : n.kind.isFunction = false) (hparent : p.parent = n)
      (hparameter : p.position ≠ .parameter)
      (hbody : p.position ≠ .body) : p.assumed bound = bound ++ p.scope ∧ p.leaked = [] := by
    constructor
    · rw [Part.assumed, hparent, hf, if_neg Bool.false_ne_true]
    · unfold Part.leaked
      split <;> simp_all
  cases inPattern with
  | true =>
    obtain ⟨hf, hparent, hparameter, hbody⟩ := mem_patternParts hp
    exact .inl (other hf hparent hparameter hbody)
  | false =>
    cases hf : n.kind.isFunction with
    | false =>
      obtain ⟨hparent, hparameter, hbody⟩ := mem_evaluatedParts_other hf hp
      exact .inl (other hf hparent hparameter hbody)
    | true =>
      obtain ⟨hparent, hposition, hscope⟩ := mem_evaluatedParts_function hf hp hlook
      have hassumed : p.assumed bound = bound ++ functionNames n.kind n.children := by
        rw [Part.assumed, hparent, if_pos hf]
      refine .inr ⟨?_, ?_, ?_⟩
      · rw [hassumed, functionNames_eq]
        intro x hx
        have := @hscope x
        grind
      · rw [hassumed, functionNames_eq]
        grind
      · unfold Part.leaked
        rcases hposition with h | h <;> rw [h, hparent]

theorem chain?_eq_some {base : String} {pos : Nat} {chain : List String}
    (h : n.chain? = some (base, pos, chain)) :
    (n.kind = .identifier ∧ base = n.text ∧ pos = n.start) ∨
      n.kind = .member ∧ ∃ object ∈ n.child? .object, ∃ property rest, chain = property :: rest ∧
        object.chain? = some (base, pos, rest) := by
  have hobject := objectChain?_eq n
  obtain ⟨kind, role, start, stop, text, children⟩ := n
  dsimp only at hobject
  cases kind with
  | identifier =>
    simp only [chain?, Option.some.injEq, Prod.mk.injEq] at h
    exact .inl ⟨rfl, h.1.symm, h.2.1.symm⟩
  | member =>
    simp only [chain?, hobject] at h
    cases hproperty : children.find? (·.role == .property) with
    | none => simp [hproperty] at h
    | some property =>
      simp only [hproperty] at h
      split_ifs at h with hk
      simp only [Option.map_eq_some_iff, Option.bind_eq_some_iff, Prod.exists, Prod.mk.injEq] at h
      obtain ⟨_, _, rest, ⟨object, hobj, hrest⟩, rfl, rfl, rfl⟩ := h
      exact .inr ⟨rfl, object, hobj, property.text, rest, rfl, hrest⟩
  | _ => simp [chain?] at h

/-- Nothing but its base is read in a chain. -/
theorem Occurs.eq_of_chain {inPattern : Bool} {base : String} {pos : Nat} {chain : List String}
    (h : Occurs inPattern n way o) (hin : inPattern = false)
    (hchain : n.chain? = some (base, pos, chain)) : o = .name base pos := by
  induction h generalizing chain with
  | name hk =>
    obtain ⟨_, rfl, rfl⟩ | ⟨hm, _⟩ := chain?_eq_some hchain
    · rfl
    · simp [hm] at hk
  | effect hk =>
    obtain ⟨hi, _⟩ | ⟨hm, _⟩ := chain?_eq_some hchain
    · simp [hi, Kind.isEffect] at hk
    · simp [hm, Kind.isEffect] at hk
  | part hp _ ih =>
    subst hin
    obtain ⟨hi, _⟩ | ⟨hm, object, hobject, _, rest, _, hrest⟩ := chain?_eq_some hchain
    · simp [partsOf, evaluatedParts, hi, Kind.isFunction] at hp
    · simp only [partsOf, evaluatedParts, hm, Kind.isFunction, Bool.false_eq_true, if_false,
        mem_partsAt, Option.mem_toList] at hp
      obtain ⟨m, hmem, rfl⟩ := hp
      rw [Option.mem_unique hobject hmem] at hrest
      exact ih rfl hrest

/-- The base of a chain occurs in it, and the analysis sees it. -/
theorem occurs_of_chain {base : String} {pos : Nat} {chain : List String}
    (h : n.chain? = some (base, pos, chain)) :
    ∃ way, Occurs false n way (.name base pos) ∧ Seen way (.name base pos) := by
  induction chain generalizing n with
  | nil =>
    obtain ⟨hi, rfl, rfl⟩ | ⟨_, _, _, _, _, hcons, _⟩ := chain?_eq_some h
    · exact ⟨[], .name (.inl hi), by simp [Seen]⟩
    · cases hcons
  | cons property rest ih =>
    obtain ⟨hi, rfl, rfl⟩ | ⟨hm, object, hobject, _, _, hcons, hrest⟩ := chain?_eq_some h
    · exact ⟨[], .name (.inl hi), by simp [Seen]⟩
    · cases hcons
      obtain ⟨way, hoccurs, hseen⟩ := ih hrest
      refine ⟨⟨.operand, n, [], object⟩ :: way, .part ?_ hoccurs, ?_⟩
      · simpa [partsOf, evaluatedParts, hm, Kind.isFunction, mem_partsAt] using hobject
      · simpa [Seen, Position.isOverlooked, Part.leaked, Occurrence.Avoids] using hseen

theorem Read.mem_unlessBound {r : Read} {x : String} {chain : List String} {pos : Nat} :
    r ∈ Read.unlessBound bound x chain pos ↔ x ∉ bound ∧ r = .name x chain pos := by
  unfold Read.unlessBound
  by_cases h : x ∈ bound <;> simp [h]

theorem mem_ownReads {r : Read} : r ∈ ownReads bound n ↔ (n.kind.isEffect ∧ r = .effect n.start) ∨
    ((n.kind = .identifier ∨ n.kind = .shorthand) ∧ n.text ∉ bound ∧
      r = .name n.text [] n.start) := by
  rw [ownReads, List.mem_append]
  refine or_congr ?_ ?_
  · by_cases h : n.kind.isEffect <;> simp [h]
  · by_cases h : n.kind = .identifier ∨ n.kind = .shorthand <;> simp [h, Read.mem_unlessBound]

private theorem sizeOf_lt_of_mem_elementsAt {m : Node} {role : Role} (h : m ∈ n.elementsAt role) :
    sizeOf m < sizeOf n := by
  simp only [elementsAt, List.mem_flatMap, Option.mem_toList] at h
  obtain ⟨c, hc, hm⟩ := h
  exact Nat.lt_trans (sizeOf_lt_of_mem_children hm) (sizeOf_lt_of_mem_child? hc)

theorem sizeOf_node_lt {inPattern : Bool} (hp : p ∈ n.partsOf inPattern) :
    sizeOf p.node < sizeOf n := by
  have hchildren := @sizeOf_lt_of_mem_children n
  have hchild := @sizeOf_lt_of_mem_child? n
  have helements := @sizeOf_lt_of_mem_elementsAt n
  unfold partsOf evaluatedParts patternParts parameterNodes at hp
  split at hp
  · split at hp
      <;> simp only [List.mem_append, mem_partsAt, List.not_mem_nil, Option.mem_toList] at hp
        <;> grind
  · split at hp
    · simp only [List.mem_append, mem_partsAt, Option.mem_toList, Option.filter_eq_some_iff] at hp
      grind
    · split at hp <;> simp only [List.mem_append, mem_partsAt, List.not_mem_nil, Option.mem_toList,
        Option.filter_eq_some_iff] at hp <;> grind

/-- A name avoids what is taken as bound in a part if it avoids what is in scope there and what
leaks. -/
theorem avoids_assumed {inPattern : Bool} (hp : p ∈ n.partsOf inPattern)
    (hlook : p.position.isOverlooked = false) (hbound : o.Avoids bound) (hscope : o.Avoids p.scope)
    (hleaked : o.Avoids p.leaked) : o.Avoids (p.assumed bound) := by
  intro x hx hmem
  obtain ⟨hassumed, _⟩ | ⟨hassumed, _, hleak⟩ := assumed_cases hp hlook bound
  · rw [hassumed, List.mem_append] at hmem
    exact hmem.elim (hbound x hx) (hscope x hx)
  · have hnot : x ∉ p.leaked := hleaked x hx
    have hmem := hassumed hmem
    simp only [List.mem_append] at hmem
    obtain (hmem | hmem) | hmem := hmem
    · exact hbound x hx hmem
    · exact hscope x hx hmem
    · refine hnot ?_
      have := hscope x hx
      rw [hleak]
      simp_all

private theorem avoids_of_assumed {inPattern : Bool} (hp : p ∈ n.partsOf inPattern)
    (hlook : p.position.isOverlooked = false) (h : o.Avoids (p.assumed bound)) :
    o.Avoids bound ∧ o.Avoids p.leaked := by
  obtain ⟨hassumed, hleak⟩ | ⟨_, hassumed, hleak⟩ := assumed_cases hp hlook bound
  · rw [hassumed] at h
    refine ⟨fun x hx hmem => h x hx (List.mem_append_left _ hmem), ?_⟩
    rw [hleak]
    exact fun x _ => List.not_mem_nil
  · refine ⟨fun x hx hmem => h x hx (hassumed (List.mem_append_left _ hmem)), ?_⟩
    rw [hleak]
    exact fun x hx hmem => h x hx (hassumed (List.mem_append_right _ (List.mem_filter.1 hmem).1))

theorem reads_of_chain {base : String} {pos : Nat} {chain : List String} (hk : n.kind = .member)
    (h : n.chain? = some (base, pos, chain)) :
    n.reads bound = Read.unlessBound bound base chain.reverse pos := by
  obtain ⟨kind, role, start, stop, text, children⟩ := n
  cases hk
  simp [reads, h, Kind.isEffect]

/-- Along a way that the analysis sees, what occurs free is reported. -/
theorem Occurs.reported {inPattern : Bool} (h : Occurs inPattern n way o) (hfree : Free way o)
    (hseen : Seen way o) (hbound : o.Avoids bound) :
    o ∈ (reported inPattern bound n).map Read.occurrence := by
  induction h generalizing bound with
  | @name n hk =>
    refine List.mem_map.2 ⟨.name n.text [] n.start, ?_, rfl⟩
    rw [mem_reported_iff (by intro _ hm; simp [hm] at hk)]
    exact .inl ⟨rfl, mem_ownReads.2 (.inr ⟨hk, hbound n.text rfl, rfl⟩)⟩
  | @effect n hk =>
    refine List.mem_map.2 ⟨.effect n.start, ?_, rfl⟩
    rw [mem_reported_iff (by intro _ hm; simp [hm, Kind.isEffect] at hk)]
    exact .inl ⟨rfl, mem_ownReads.2 (.inl ⟨hk, rfl⟩)⟩
  | @part inPattern n p way o hp hrest ih =>
    obtain ⟨hlook, hleaked⟩ := hseen p List.mem_cons_self
    by_cases hchain : inPattern = false → n.kind = .member → n.chain? = none
    · have hin : o.Avoids (p.assumed bound) :=
        avoids_assumed hp hlook hbound (hfree p List.mem_cons_self) hleaked
      have hbelow :=
        ih (fun q hq => hfree q (List.mem_cons_of_mem _ hq))
          (fun q hq => hseen q (List.mem_cons_of_mem _ hq)) hin
      obtain ⟨r, hr, rfl⟩ := List.mem_map.1 hbelow
      exact List.mem_map_of_mem ((mem_reported_iff hchain).2 (.inr ⟨p, hp, hlook, hr⟩))
    · -- The base of a member chain is reported at once, with the chain.
      simp only [Classical.not_imp] at hchain
      obtain ⟨rfl, hm, hsome⟩ := hchain
      obtain ⟨⟨base, pos, chain⟩, hchain⟩ := Option.ne_none_iff_exists'.1 hsome
      have heq := (Occurs.part hp hrest).eq_of_chain rfl hchain
      subst heq
      rw [reported_evaluated, reads_of_chain hm hchain]
      refine List.mem_map.2 ⟨.name base chain.reverse pos, ?_, rfl⟩
      exact Read.mem_unlessBound.2 ⟨hbound base rfl, rfl⟩

/-- All that is reported occurs, on a way that the analysis sees. -/
theorem occurs_of_reported {inPattern : Bool}
    (h : o ∈ (reported inPattern bound n).map Read.occurrence) :
    (∃ way, Occurs inPattern n way o ∧ Seen way o) ∧ o.Avoids bound := by
  induction hsize : sizeOf n using Nat.strongRecOn generalizing n inPattern bound with
  | ind size ih =>
  subst hsize
  obtain ⟨r, hr, rfl⟩ := List.mem_map.1 h
  by_cases hchain : inPattern = false → n.kind = .member → n.chain? = none
  · obtain ⟨rfl, hown⟩ | ⟨p, hp, hlook, hr⟩ := (mem_reported_iff hchain).1 hr
    · obtain ⟨hk, rfl⟩ | ⟨hk, htext, rfl⟩ := mem_ownReads.1 hown
      · refine ⟨⟨[], .effect hk, by simp [Seen]⟩, ?_⟩
        rintro x ⟨⟩
      · refine ⟨⟨[], .name hk, by simp [Seen]⟩, ?_⟩
        rintro x ⟨⟩
        exact htext
    · obtain ⟨⟨way, hoccurs, hseen⟩, havoids⟩ :=
        ih _ (sizeOf_node_lt hp) (List.mem_map_of_mem hr) rfl
      obtain ⟨hbound, hleaked⟩ := avoids_of_assumed hp hlook havoids
      refine ⟨⟨p :: way, .part hp hoccurs, ?_⟩, hbound⟩
      exact List.forall_mem_cons.2 ⟨⟨hlook, hleaked⟩, hseen⟩
  · simp only [Classical.not_imp] at hchain
    obtain ⟨rfl, hm, hsome⟩ := hchain
    obtain ⟨⟨base, pos, chain⟩, hchain⟩ := Option.ne_none_iff_exists'.1 hsome
    rw [reported_evaluated, reads_of_chain hm hchain, Read.mem_unlessBound] at hr
    obtain ⟨hbase, rfl⟩ := hr
    refine ⟨occurs_of_chain hchain, ?_⟩
    rintro x ⟨⟩
    exact hbase

/-- Every free occurrence that the analysis sees is reported where it stands, and what is reported
occurs and is seen. -/
theorem free_occurrences_reported (n : Node) (o : Occurrence) :
    (∀ way, Occurs false n way o → Free way o → Seen way o → o ∈ (n.reads []).map Read.occurrence) ∧
      (o ∈ (n.reads []).map Read.occurrence → ∃ way, Occurs false n way o ∧ Seen way o) := by
  constructor
  · intro way hoccurs hfree hseen
    exact hoccurs.reported hfree hseen fun x _ => List.not_mem_nil
  · intro h
    rw [← reported_evaluated] at h
    exact (occurs_of_reported h).1

/-- A function inside a default value reads a name. -/
theorem free_occurrences_reported_default :
    let n := parse .script "(\x7ba=()=>[a,y]\x7d)=>a".toList
    ∃ way, Occurs false n way (.name "y" 11) ∧ Free way (.name "y" 11) ∧ Seen way (.name "y" 11) ∧
      .name "y" 11 ∈ (n.reads []).map Read.occurrence := by
  intro n
  have hfollow : ∃ r ∈ follow [0, 0, 0, 0, 0, 0, 1] false n, r.2 = .name "y" 11 ∧ Free r.1 r.2 ∧
      Seen r.1 r.2 := by
    decide +kernel
  obtain ⟨⟨way, o⟩, hway, rfl, hfree, hseen⟩ := hfollow
  have hoccurs : Occurs false n way (.name "y" 11) := .of_follow hway
  exact ⟨way, hoccurs, hfree, hseen, (free_occurrences_reported n _).1 way hoccurs hfree hseen⟩

/-- Modules with a way to a name that is free there. -/
def lossyModules : List (Dialect × String × List Nat) :=
  [(.typedScript, "(a=x)=>a", [0, 0, 0, 2]),
    (.script, "(a=x)=>\x7bvar x\x7d", [0, 0, 0, 0]),
    (.script, "(\x7b[k]:v\x7d)=>v", [0, 0, 0, 0, 0, 0]),
    (.script, "(\x7b[k]()\x7b\x7d\x7d)", [0, 0, 0, 0, 0, 0]),
    (.script, "try\x7b\x7dcatch(\x7ba=x\x7d)\x7b\x7d", [0, 1, 0, 0, 0]),
    (.script, "()=>\x7bclass A\x7bstatic\x7bvar x\x7d\x7dx\x7d", [0, 0, 0, 1, 0]),
    (.script, "(class\x7b@d m()\x7b\x7d\x7d)", [0, 0, 0, 0, 0, 0, 0]),
    (.typedScript, "(class\x7bm(@d a)\x7b\x7d\x7d)", [0, 0, 0, 0, 0, 0, 0, 0])]

/-- Free names are lost in default values beside a type, in keys and names that are computed, in
what handlers bind and in decorators, and where a variable of the body or of a static block has the
name. -/
theorem free_occurrence_lost :
    lossyModules.Forall fun m => ∃ way o, Occurs false (parse m.1 m.2.1.toList) way o ∧
    Free way o ∧ o ∉ ((parse m.1 m.2.1.toList).reads []).map Read.occurrence := by
  rw [List.forall_iff_forall_mem]
  intro m hm
  have hfollow : ∃ r ∈ follow m.2.2 false (parse m.1 m.2.1.toList), Free r.1 r.2 ∧
      r.2 ∉ ((parse m.1 m.2.1.toList).reads []).map Read.occurrence := by
    revert m
    decide +kernel
  obtain ⟨⟨way, o⟩, hway, hfree, hlost⟩ := hfollow
  exact ⟨way, o, .of_follow hway, hfree, hlost⟩

end ThemedCss.Scope
