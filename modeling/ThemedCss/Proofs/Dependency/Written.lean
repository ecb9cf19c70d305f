import ThemedCss.Proofs.Dependency.Classification
import ThemedCss.Proofs.Scope.Traversal
import ThemedCss.Proofs.Style.Scan

/-! Bindings whose value is changed by an assignment. -/
namespace ThemedCss.Scope
open ThemedCss.Syntax

/-- How a target of an assignment leads to another target. -/
inductive Hop where
  /-- From a member access to its object, and from parentheses to what they hold. -/
  | base
  /-- From an expression with a type to the expression. -/
  | typed
  /-- From a pattern to a part of it. -/
  | part
deriving DecidableEq, Repr

end ThemedCss.Scope

namespace ThemedCss.Syntax.Node
open ThemedCss.Scope

def hops (n : Node) : List (Hop × Node) :=
  match n.kind with
  | .member | .subscript | .parenthesized =>
    ((n.child? .object).or n.named.head?).toList.map (Hop.base, ·)
  | .nonNull | .asExpression | .satisfiesExpression => n.named.head?.toList.map (Hop.typed, ·)
  | .typeAssertion => n.named.getLast?.toList.map (Hop.typed, ·)
  | .objectPattern | .arrayPattern | .restPattern | .formalParameters =>
    n.children.map (Hop.part, ·)
  | .pairPattern => (n.child? .value).toList.map (Hop.part, ·)
  | .assignmentPattern | .shorthandDefault => (n.child? .left).toList.map (Hop.part, ·)
  | .requiredParameter | .optionalParameter => (n.child? .pattern).toList.map (Hop.part, ·)
  | _ => []

/-- The targets that a node writes: those of assignments and updates, and of loops over what they do
not declare. -/
def targets (n : Node) : List Node :=
  match n.kind with
  | .assignment | .augmentedAssignment => (n.child? .left).toList
  | .update => (n.child? .argument).toList
  | .forInStatement => if (n.child? .binding).isSome then [] else (n.child? .left).toList
  | _ => []

end ThemedCss.Syntax.Node

namespace ThemedCss.Scope
open ThemedCss.Syntax ThemedCss.Syntax.Node

/-- A name stands at the root of a target: to write the target changes what the name stands for. -/
inductive Rooted : Node → List Hop → String → Prop
  | name {n : Node} : n.kind = .identifier ∨ n.kind = .shorthandPattern → Rooted n [] n.text
  | hop {n m : Node} {h : Hop} {hops : List Hop} {x : String} :
      (h, m) ∈ n.hops → Rooted m hops x → Rooted n (h :: hops) x

/-- The ways that are followed from a target: through chains and parentheses, then through parts of
patterns. -/
def IsFollowed : List Hop → Prop
  | .base :: hops => IsFollowed hops
  | hops => ∀ h ∈ hops, h = .part

variable {n m : Node} {h : Hop} {x : String}

theorem mem_children_of_mem_hops (hm : (h, m) ∈ n.hops) : m ∈ n.children := by
  have hchild : ∀ role, n.child? role = some m → m ∈ n.children :=
    fun role => List.mem_of_find?_eq_some
  have hnamed : m ∈ n.named → m ∈ n.children := fun h => (List.mem_filter.1 h).1
  have hhead : n.named.head? = some m → m ∈ n.children := fun h => hnamed (List.mem_of_head? h)
  have hlast : n.named.getLast? = some m → m ∈ n.children :=
    fun h => hnamed (List.mem_of_getLast? h)
  unfold hops at hm
  split at hm <;> simp at hm <;> grind

theorem sizeOf_lt_of_mem_hops (hm : (h, m) ∈ n.hops) : sizeOf m < sizeOf n :=
  sizeOf_lt_of_mem_children (mem_children_of_mem_hops hm)

private theorem isFollowed_of_parts {hops : List Hop} (h : ∀ h ∈ hops, h = .part) :
    IsFollowed hops := by
  cases hops with
  | nil => exact h
  | cons first rest =>
    obtain rfl := h first List.mem_cons_self
    exact h

/-- What a pattern binds is a name, or bound by its parts. -/
theorem patternNames_eq (n : Node) : n.patternNames =
    (if n.kind = .identifier ∨ n.kind = .shorthandPattern then [n.text] else []) ++
      (n.hops.filter (·.1 = .part)).flatMap (·.2.patternNames) := by
  have hat := fun role => patternNamesAt_eq role n
  obtain ⟨kind, role, start, stop, text, children⟩ := n
  dsimp only at hat
  cases kind with
  | _ =>
    simp [patternNames, hops, hat, patternNamesAll_eq, List.filter_map, List.flatMap_map,
      Function.comp_def]

/-- What is written with a target is bound by it as a pattern, or is written with what it hangs
on. -/
theorem writtenNames_eq (n : Node) :
    n.writtenNames = (n.hops.filter (·.1 = .base)).flatMap (·.2.writtenNames) ++
      n.patternNames := by
  have hat := writtenNamesAt_eq .object n
  have hfirst := writtenNamesFirst_eq n
  obtain ⟨kind, role, start, stop, text, children⟩ := n
  dsimp only at hat hfirst
  cases kind with
  | member | subscript | parenthesized =>
    rw [writtenNames, hat, hfirst]
    simp only [hops, patternNames, List.filter_map, Function.comp_def, decide_true,
      List.filter_true, List.flatMap_map, List.append_nil]
    cases child? _ Role.object <;> simp
  | _ => simp [writtenNames, hops, List.filter_map, Function.comp_def]

theorem mem_patternNames_iff :
    x ∈ n.patternNames ↔ ∃ hops, Rooted n hops x ∧ ∀ h ∈ hops, h = .part := by
  constructor
  · intro hx
    induction hsize : sizeOf n using Nat.strongRecOn generalizing n with
    | ind size ih =>
    subst hsize
    rw [patternNames_eq, List.mem_append] at hx
    rcases hx with hx | hx
    · by_cases hk : n.kind = .identifier ∨ n.kind = .shorthandPattern
      · rw [if_pos hk, List.mem_singleton] at hx
        subst hx
        exact ⟨[], .name hk, by simp⟩
      · simp [hk] at hx
    · simp only [List.mem_flatMap, List.mem_filter, decide_eq_true_eq, Prod.exists] at hx
      obtain ⟨_, m, ⟨hm, rfl⟩, hx⟩ := hx
      obtain ⟨hops, hrooted, hall⟩ := ih _ (sizeOf_lt_of_mem_hops hm) hx rfl
      exact ⟨.part :: hops, .hop hm hrooted, by simpa using hall⟩
  · rintro ⟨hops, hrooted, hall⟩
    induction hrooted with
    | name hk =>
      rw [patternNames_eq, if_pos hk]
      exact List.mem_append_left _ List.mem_cons_self
    | hop hm _ ih =>
      obtain ⟨rfl, hrest⟩ := List.forall_mem_cons.1 hall
      rw [patternNames_eq, List.mem_append, List.mem_flatMap]
      exact .inr ⟨_, List.mem_filter.2 ⟨hm, by simp⟩, ih hrest⟩

theorem mem_writtenNames_iff : x ∈ n.writtenNames ↔ ∃ hops, Rooted n hops x ∧ IsFollowed hops := by
  constructor
  · intro hx
    induction hsize : sizeOf n using Nat.strongRecOn generalizing n with
    | ind size ih =>
    subst hsize
    rw [writtenNames_eq, List.mem_append] at hx
    rcases hx with hx | hx
    · simp only [List.mem_flatMap, List.mem_filter, decide_eq_true_eq, Prod.exists] at hx
      obtain ⟨_, m, ⟨hm, rfl⟩, hx⟩ := hx
      obtain ⟨hops, hrooted, hfollowed⟩ := ih _ (sizeOf_lt_of_mem_hops hm) hx rfl
      exact ⟨.base :: hops, .hop hm hrooted, hfollowed⟩
    · obtain ⟨hops, hrooted, hall⟩ := mem_patternNames_iff.1 hx
      exact ⟨hops, hrooted, isFollowed_of_parts hall⟩
  · rintro ⟨hops, hrooted, hfollowed⟩
    induction hrooted with
    | name hk =>
      rw [writtenNames_eq, List.mem_append]
      exact .inr (mem_patternNames_iff.2 ⟨[], .name hk, hfollowed⟩)
    | @hop n m h hops x hm hrooted ih =>
      cases h with
      | base =>
        rw [writtenNames_eq, List.mem_append, List.mem_flatMap]
        exact .inl ⟨_, List.mem_filter.2 ⟨hm, by simp⟩, ih hfollowed⟩
      | typed => simp [IsFollowed] at hfollowed
      | part =>
        rw [writtenNames_eq, List.mem_append]
        exact .inr (mem_patternNames_iff.2 ⟨_, .hop hm hrooted, hfollowed⟩)

/-- The ways that are followed from the targets of a node: in the head of a loop, parts of patterns
only. -/
def IsFollowedIn (n : Node) (hops : List Hop) : Prop :=
  if n.kind = .forInStatement then ∀ h ∈ hops, h = .part else IsFollowed hops

/-- The names that a node changes are the roots of its targets to which a followed way leads. -/
theorem mem_reassignedNames_iff :
    x ∈ n.reassignedNames ↔ ∃ t ∈ n.targets, ∃ hops, Rooted t hops x ∧ IsFollowedIn n hops := by
  unfold reassignedNames targets IsFollowedIn
  cases hk : n.kind with
  | assignment | augmentedAssignment | update =>
    simp only [writtenNamesAt_eq, reduceCtorEq, if_false, ← mem_writtenNames_iff]
    cases n.child? _ <;> simp
  | forInStatement =>
    by_cases hb : (n.child? .binding).isSome
    · simp [hb]
    · simp [hb, patternNamesAt_eq, mem_patternNames_iff]
  | _ => simp

end ThemedCss.Scope

namespace ThemedCss.Dependency
open ThemedCss.Syntax ThemedCss.Scope ThemedCss.Style ThemedCss.Text

/-- A name stands for a binding of the style function or, where nothing in the function has the
name, of the module. -/
def StyleScope.Binds (s : StyleScope) (m : Module) (x : String) : Prop :=
  x ∈ s.locals.keys ∨
    s.parameters.theme.get? x = none ∧ x ≠ s.parameters.tag ∧ x ∉ s.parameters.others ∧
    x ∈ m.bindings.keys

instance (s : StyleScope) (m : Module) (x : String) : Decidable (s.Binds m x) :=
  inferInstanceAs (Decidable (_ ∨ _))

/-- The node of a binding whose name is written somewhere in its module. -/
inductive Written (g : Ground) (scopes : List StyleScope) : Key → Prop
  | atTop {p m x} : g.module? p = some m → x ∈ m.reassigned → Written g scopes (.global p x)
  | inStyle {s x} : s ∈ scopes → x ∈ g.main.reassigned →
      Written g scopes (.local g.path s.callSite x)

section Written

variable {g : Ground} {scopes : List StyleScope} {s : StyleScope} {x : String}

/-- The definition of a written binding counts for nothing. -/
theorem Written.dynamic {k : Key} (h : Written g scopes k) : Dynamic g scopes k := by
  apply Dynamic.reads _ Dynamic.root
  cases h with
  | @atTop p m x hm hx =>
    have hasked : .unknown ∈ m.asked p x := by
      rw [Module.asked, if_pos hx]
      exact List.mem_cons_self
    exact ⟨.unknown, .atTop hm hasked, .unknown⟩
  | @inStyle s x hs hx =>
    have hasked : .unknown ∈ s.asked g.main x := by
      unfold StyleScope.asked
      split
      · rw [if_pos hx]
        exact List.mem_cons_self
      · exact List.mem_cons_self
    exact ⟨.unknown, .inStyle hs hasked, .unknown⟩

/-- A read of a binding whose name is written leads to a dynamic node. -/
theorem exists_dynamic_of_binds (hmain : g.module? g.path = some g.main) (hs : s ∈ scopes)
    (hx : x ∈ g.main.reassigned) (hbinds : s.Binds g.main x) (chain : List String) (pos : Nat) :
    ∃ k, Means g (.inStyle s (.name x chain pos)) k ∧ Dynamic g scopes k := by
  by_cases hlocal : x ∈ s.locals.keys
  · exact ⟨_, .ownLocal hlocal, (Written.inStyle hs hx).dynamic⟩
  · obtain hlocal' | ⟨htheme, htag, hothers, hbound⟩ := hbinds
    · exact absurd hlocal' hlocal
    obtain ⟨d, hd⟩ : ∃ d, g.main.bindings.get? x = some d := by
      rw [← Option.ne_none_iff_exists']
      exact fun h => Table.get?_eq_none_iff.mp h hbound
    have houter : ∀ k, Means g (.atTop g.path (.name x chain pos)) k →
        Means g (.inStyle s (.name x chain pos)) k :=
      fun k hk => .outer hlocal htheme htag hothers hk
    by_cases hspace : ∃ source, d = .namespaceOf source
    · obtain ⟨source, rfl⟩ := hspace
      exact ⟨_, houter _ (.changedNamespace hmain hd hx), .root⟩
    · exact ⟨_, houter _ (.bound hmain hd fun source h => hspace ⟨source, h⟩),
        (Written.atTop hmain hx).dynamic⟩

end Written

theorem eq_ok_of_toOption {ε α : Type} {e : Except ε α} {a : α} (h : e.toOption = some a) :
    e = .ok a := by
  cases e with
  | error _ => cases h
  | ok b => rw [Option.some.inj h]

section Labels

variable {files : FileTree} {settings : Settings} {allows : List String → Bool} {path : Path}
  {root : Node}
  {calls : List (Call Interpolation)} {r : Classification} {call : Call Labelled}

/-- An outcome has met no fault, and holds the graph with the nodes from which the dynamic root can
be reached. -/
theorem faultless_of_classify (hr : classify files settings allows path root calls = .ok r)
    {c : Context} (hc : c = .ofTree files settings allows path root) :
    (∀ a ∈ allAnswers c calls, a.fault = none) ∧ r.graph = graphOf c calls ∧
      r.dynamic = (graphOf c calls).reaching .dynamic ∧
      r.calls = calls.map (labelCall c ((graphOf c calls).reaching .dynamic)) := by
  obtain ⟨hf, modules, hok⟩ | ⟨-, f, herr⟩ := classify_eq files settings allows path root calls hc
  · obtain rfl := Except.ok.inj (hok.symm.trans hr)
    exact ⟨hf, rfl, rfl, rfl⟩
  · rw [herr] at hr
    cases hr

section Outcome

variable (hsites : (calls.map (·.callSite)).Nodup)
  (hr : classify files settings allows path root calls = .ok r)
include hsites

theorem nodup_scopesOf : ((scopesOf calls).map (·.callSite)).Nodup := by
  rw [scopesOf, List.map_map]
  exact hsites

include hr

theorem answerable_of_classify : Answerable (.ofTree files settings allows path root) calls :=
  (faultless_iff_answerable (Context.holds_ofTree files settings allows path root)
    (nodup_scopesOf hsites)).mp
    (faultless_of_classify hr rfl).1

/-- The graph of an outcome holds what interpolations can reach. -/
theorem mem_graph_of_reachable {k : Key}
    (hk : Reachable (.ofTree files settings allows path root) calls k) :
    k ∈ Table.keys r.graph := by
  rw [(faultless_of_classify hr rfl).2.1, keys_graphOf]
  exact mem_found_of_reachable (Context.holds_ofTree files settings allows path root)
    (nodup_scopesOf hsites) hk

/-- The dynamic nodes of an outcome are those of the rules. -/
theorem mem_dynamic_iff {k : Key} (hk : k ∈ Table.keys r.graph) :
    k ∈ r.dynamic ↔ Dynamic (.ofTree files settings allows path root) (scopesOf calls) k := by
  obtain ⟨hf, hgraph, hdynamic, -⟩ := faultless_of_classify hr rfl
  rw [hgraph, keys_graphOf] at hk
  rw [hdynamic]
  exact mem_reaching_iff_dynamic (Context.holds_ofTree files settings allows path root)
    (nodup_scopesOf hsites) hf hk

/-- Whatever a node of the graph asks for leads somewhere. -/
theorem exists_means_of_asks {k : Key} (hk : k ∈ Table.keys r.graph) {q : Question}
    (hq : Asks (.ofTree files settings allows path root) (scopesOf calls) k q) :
    ∃ d, Means (.ofTree files settings allows path root) q d := by
  have hanswer := answerable_of_classify hsites hr
  rw [(faultless_of_classify hr rfl).2.1, keys_graphOf] at hk
  obtain rfl | rfl | hreach :=
    reachable_of_mem_found (Context.holds_ofTree files settings allows path root)
      (nodup_scopesOf hsites) hanswer hk
  · cases hq
  · cases hq
  · exact hanswer.2 k hreach q hq

/-- The calls of an outcome are those that were classified, with the labels of the rules. -/
theorem exists_call_of_classify (hcall : call ∈ r.calls) :
    ∃ c ∈ calls, call = c.map fun i =>
      { i with
        label :=
          (Ground.ofTree files settings allows path root).label (scopesOf calls) (.ofCall c) i } := by
  obtain ⟨hf, -, -, hcalls⟩ := faultless_of_classify hr rfl
  rw [hcalls, map_labelCall (Context.holds_ofTree files settings allows path root)
    (nodup_scopesOf hsites) hf] at hcall
  obtain ⟨c, hmem, rfl⟩ := List.mem_map.mp hcall
  exact ⟨c, hmem, rfl⟩

/-- An interpolation that was not marked is dynamic if one of its reads leads to a dynamic node. -/
theorem label_eq_dynamic (hcall : call ∈ r.calls) {b : Block Labelled} (hb : b ∈ call.blocks)
    {i : Labelled} (hi : i ∈ b.interpolations) (hwrapped : i.wrapped = false) {read : Read}
    (hread : read ∈ i.node.reads []) {k : Key}
    (hk : Means (.ofTree files settings allows path root) (.inStyle (.ofCall call) read) k)
    (hd : Dynamic (.ofTree files settings allows path root) (scopesOf calls) k) :
    i.label = .dynamic := by
  obtain ⟨c, -, rfl⟩ := exists_call_of_classify hsites hr hcall
  obtain ⟨block, -, rfl⟩ := List.mem_map.mp hb
  obtain ⟨j, -, rfl⟩ := List.mem_map.mp hi
  show Ground.label _ _ _ j = .dynamic
  unfold Ground.label
  rw [if_neg (by rw [show j.wrapped = false from hwrapped]; exact Bool.false_ne_true)]
  by_cases hplaceholder : j.placeholder.isSome
  · rw [if_pos hplaceholder]
  · rw [if_neg hplaceholder, if_pos ⟨read, hread, k, hk, hd⟩]

/-- An interpolation that was not marked is dynamic already, or its reads come up. -/
theorem label_eq_dynamic_or_asked (hcall : call ∈ r.calls) {b : Block Labelled}
    (hb : b ∈ call.blocks) {i : Labelled} (hi : i ∈ b.interpolations)
    (hwrapped : i.wrapped = false) :
    i.label = .dynamic ∨ ∀ read ∈ i.node.reads [], Asked calls (.inStyle (.ofCall call) read) := by
  obtain ⟨c, hc, rfl⟩ := exists_call_of_classify hsites hr hcall
  obtain ⟨block, hblock, rfl⟩ := List.mem_map.mp hb
  obtain ⟨j, hj, rfl⟩ := List.mem_map.mp hi
  have hw : j.wrapped = false := hwrapped
  by_cases hplaceholder : j.placeholder.isSome
  · refine .inl ?_
    show Ground.label _ _ _ j = .dynamic
    rw [Ground.label, if_neg (by simp [hw]), if_pos hplaceholder]
  · refine .inr fun read hread => ⟨c, hc, j, List.mem_flatMap.mpr ⟨block, hblock, hj⟩, ?_⟩
    rw [questionsOf, if_neg (by simp [hw, hplaceholder])]
    exact List.mem_map.mpr ⟨read, hread, rfl⟩

end Outcome

end Labels

/-- The written names of a module are the roots of the targets in it to which a followed way leads.
An interpolation that reads a binding with a written name, or something that depends on one, is
dynamic unless it was marked before. -/
theorem written_bindings_dynamic (files : FileTree) (settings : Settings)
    (allows : List String → Bool) (path : Path) (root : Node) (source : Bytes) (filename : String) :
    let g := Ground.ofTree files settings allows path root
    let calls := (scan settings source root filename).calls
    (∀ x, x ∈ g.main.reassigned ↔
      ∃ n, root.Contains n ∧ ∃ t ∈ n.targets, ∃ hops, Rooted t hops x ∧ IsFollowedIn n hops) ∧
    ∀ r, classify files settings allows path root calls = .ok r →
      ∀ call ∈ r.calls, ∀ b ∈ call.blocks, ∀ i ∈ b.interpolations, i.wrapped = false →
        (∀ x chain pos, .name x chain pos ∈ i.node.reads [] → x ∈ g.main.reassigned →
          (StyleScope.ofCall call).Binds g.main x → i.label = .dynamic) ∧
        ∀ read ∈ i.node.reads [], ∀ k d, Means g (.inStyle (.ofCall call) read) k →
          Relation.ReflTransGen (Reads g (scopesOf calls)) k d → Written g (scopesOf calls) d →
          i.label = .dynamic := by
  intro g calls
  constructor
  · intro x
    show x ∈ root.preorder.flatMap (·.reassignedNames) ↔ _
    simp only [List.mem_flatMap, Node.mem_preorder, mem_reassignedNames_iff]
  · intro r hr call hcall b hb i hi hwrapped
    have hsites : (calls.map (·.callSite)).Nodup :=
      (readSites_callSite settings source filename _ 0 0 _).1
    have hmain : g.module? g.path = some g.main := if_pos rfl
    constructor
    · intro x chain pos hread hx hbinds
      have hscope : StyleScope.ofCall call ∈ scopesOf calls := by
        obtain ⟨c, hmem, rfl⟩ := exists_call_of_classify hsites hr hcall
        exact List.mem_map.mpr ⟨c, hmem, rfl⟩
      obtain ⟨k, hk, hd⟩ := exists_dynamic_of_binds hmain hscope hx hbinds chain pos
      exact label_eq_dynamic hsites hr hcall hb hi hwrapped hread hk hd
    · intro read hread k d hk hreach hwritten
      have hd : Dynamic g (scopesOf calls) k := by
        rw [dynamic_iff_reaches]
        exact hreach.trans (dynamic_iff_reaches.mp hwritten.dynamic)
      exact label_eq_dynamic hsites hr hcall hb hi hwrapped hread hk hd

def afterStatement (statement : String) : String :=
  "let a=\x7bb:1\x7d;" ++ statement ++ ";f((\x7bcss\x7d)=>(\x7br:css\x60$\x7ba.b\x7d\x60\x7d))"

/-- A pattern inside a pattern writes the variable. -/
theorem written_bindings_dynamic_pattern :
    let settings : Settings := { Settings.ofTheme "t" with factory := "f" }
    let source := afterStatement "[\x7bx:a\x7d]=c"
    let root := parse .script source.toList
    let path : Path := ⟨true, ["a.js"]⟩
    let main := Module.ofTree .empty path root
    ∃ r, classify .empty settings (fun _ => true) path root
      (scan settings (encode source) root "a.js").calls = .ok r ∧
      ∃ call ∈ r.calls, ∃ b ∈ call.blocks, ∃ i ∈ b.interpolations, i.wrapped = false ∧
        .name "a" ["b"] 43 ∈ i.node.reads [] ∧ "a" ∈ main.reassigned ∧
        (StyleScope.ofCall call).Binds main "a" ∧ i.label = .dynamic := by
  intro settings source root path main
  have hrun : (classify .empty settings (fun _ => true) path root
      (scan settings (encode source) root "a.js").calls).toOption.any fun r =>
        decide (∃ call ∈ r.calls, ∃ b ∈ call.blocks, ∃ i ∈ b.interpolations, i.wrapped = false ∧
          .name "a" ["b"] 43 ∈ i.node.reads [] ∧ "a" ∈ main.reassigned ∧
          (StyleScope.ofCall call).Binds main "a") := by
    decide +kernel
  cases hr : classify .empty settings (fun _ => true) path root
    (scan settings (encode source) root "a.js").calls with
  | error f =>
    rw [hr] at hrun
    cases hrun
  | ok r =>
    rw [hr] at hrun
    obtain ⟨call, hcall, b, hb, i, hi, hwrapped, hread, hx, hbinds⟩ := of_decide_eq_true hrun
    obtain ⟨-, hlabels⟩ :=
      written_bindings_dynamic .empty settings (fun _ => true) path root (encode source) "a.js"
    have hlabel := (hlabels r hr call hcall b hb i hi hwrapped).1 "a" ["b"] 43 hread hx hbinds
    exact ⟨r, rfl, call, hcall, b, hb, i, hi, hwrapped, hread, hx, hbinds, hlabel⟩

/-- Statements that write `a` where no followed way leads. -/
def lossyWrites : List (Dialect × String) :=
  [(.script, "[a.b]=c"), (.script, "for((a).b of c);"), (.typedScript, "a!.b=c"),
    (.typedScript, "(a as any)=c"), (.typedScript, "(<any>a)=c")]

/-- Members inside patterns, members in the heads of loops and targets with types are not taken as
written, and what reads them counts as known at build time. -/
theorem written_binding_static :
    let settings : Settings := { Settings.ofTheme "t" with factory := "f" }
    let path : Path := ⟨true, ["a.js"]⟩
    lossyWrites.Forall fun w =>
      let source := afterStatement w.2
      let root := parse w.1 source.toList
      (∃ n, root.Contains n ∧ ∃ t ∈ n.targets, ∃ hops, Rooted t hops "a") ∧
        "a" ∉ (Module.ofTree .empty path root).reassigned ∧
        (classify .empty settings (fun _ => true) path root
          (scan settings (encode source) root "a.js").calls).toOption.map
            (·.calls.map (·.blocks.map (·.interpolations.map (·.label)))) = some [[[.static]]] := by
  intro settings path
  rw [List.forall_iff_forall_mem]
  intro w hw
  have hrun :
      (∃ n ∈ (parse w.1 (afterStatement w.2).toList).preorder, ∃ t ∈ n.targets, ∃ p ∈ t.hops,
        ∃ q ∈ p.2.hops,
      q.2.kind = .identifier ∧ q.2.text = "a") ∧
        "a" ∉ (Module.ofTree .empty path (parse w.1 (afterStatement w.2).toList)).reassigned ∧
        (classify .empty settings (fun _ => true) path (parse w.1 (afterStatement w.2).toList)
          (scan settings (encode (afterStatement w.2)) (parse w.1 (afterStatement w.2).toList)
            "a.js").calls).toOption.map
            (·.calls.map (·.blocks.map (·.interpolations.map (·.label)))) = some [[[.static]]] := by
    revert w
    decide +kernel
  obtain ⟨⟨n, hn, t, ht, p, hp, q, hq, hk, htext⟩, hlost, hlabel⟩ := hrun
  refine ⟨⟨n, Node.mem_preorder.mp hn, t, ht, [p.1, q.1], .hop hp (.hop hq ?_)⟩, hlost, hlabel⟩
  exact htext ▸ .name (.inl hk)

end ThemedCss.Dependency
