import ThemedCss.Proofs.Scope.Completeness

/-! To take more names as bound leaves out what reads them, and nothing else. -/
namespace ThemedCss.Scope
open ThemedCss.Syntax ThemedCss.Syntax.Node

/-- The reads that are effects or read none of the given names. -/
def without (names : List String) (rs : List Read) : List Read :=
  rs.filter fun r => r.occurrence.Avoids names

variable {B C D : List String} {n : Node}

@[simp] theorem without_append (rs qs : List Read) :
    without C (rs ++ qs) = without C rs ++ without C qs :=
  List.filter_append ..

theorem unlessBound_union (hD : ∀ x, x ∈ D ↔ x ∈ B ∨ x ∈ C) (x : String) (chain : List String)
    (pos : Nat) : Read.unlessBound D x chain pos = without C (Read.unlessBound B x chain pos) := by
  by_cases hB : x ∈ B
  · simp [Read.unlessBound, without, hD, hB]
  · by_cases hC : x ∈ C
      <;> simp [Read.unlessBound, without, hD, hB, hC, Read.occurrence, Occurrence.Avoids,
        Occurrence.name?]

private theorem ownReads_union (hD : ∀ x, x ∈ D ↔ x ∈ B ∨ x ∈ C) (n : Node) :
    ownReads D n = without C (ownReads B n) := by
  rw [ownReads, ownReads, without_append]
  refine congrArg₂ (· ++ ·) ?effect ?name
  case effect =>
    by_cases h : n.kind.isEffect
      <;> simp [h, without, Read.occurrence, Occurrence.Avoids, Occurrence.name?]
  case name =>
    by_cases h : n.kind = .identifier ∨ n.kind = .shorthand
    · rw [if_pos h, if_pos h, unlessBound_union hD]
    · rw [if_neg h, if_neg h]
      rfl

/-- Each binder on the way adds the same names to both sides. -/
theorem mem_assumed_union (hD : ∀ x, x ∈ D ↔ x ∈ B ∨ x ∈ C) (p : Part) (x : String) :
    x ∈ p.assumed D ↔ x ∈ p.assumed B ∨ x ∈ C := by
  rw [Part.assumed, Part.assumed, List.mem_append, List.mem_append, hD]
  tauto

private theorem reportedParts_union {parts : List Part}
    (h : ∀ p ∈ parts, reported p.position.isPattern (p.assumed D) p.node =
      without C (reported p.position.isPattern (p.assumed B) p.node)) :
    reportedParts D parts = without C (reportedParts B parts) := by
  rw [reportedParts, reportedParts, without, List.filter_flatMap]
  exact List.flatMap_congr fun p hp => h p (List.mem_of_mem_filter hp)

/-- What is reported of a node with more names taken as bound. The induction is on the size of the
node, for patterns and for what is evaluated at once, since each holds the other. -/
theorem reported_union (inPattern : Bool) (hD : ∀ x, x ∈ D ↔ x ∈ B ∨ x ∈ C) (n : Node) :
    reported inPattern D n = without C (reported inPattern B n) := by
  induction hsize : sizeOf n using Nat.strongRecOn generalizing n inPattern B D with
  | ind size ih =>
  subst hsize
  have hparts : reportedParts D (n.partsOf inPattern) =
      without C (reportedParts B (n.partsOf inPattern)) :=
    reportedParts_union fun p hp => ih _ (sizeOf_node_lt hp) _ (mem_assumed_union hD p) p.node rfl
  cases inPattern with
  | true =>
    show defaults D [n] = without C (defaults B [n])
    rw [defaults_eq_parts, defaults_eq_parts]
    exact hparts
  | false =>
    show n.reads D = without C (n.reads B)
    by_cases hchain : n.kind = .member → n.chain? = none
    · rw [reads_eq_parts hchain, reads_eq_parts hchain, without_append, ownReads_union hD]
      exact congrArg _ hparts
    · -- A member chain is read as a whole.
      obtain ⟨hm, hsome⟩ := Classical.not_imp.mp hchain
      obtain ⟨⟨base, pos, chain⟩, hchain⟩ := Option.ne_none_iff_exists'.mp hsome
      rw [reads_of_chain hm hchain, reads_of_chain hm hchain, unlessBound_union hD]

/-- Where the names in `C` are taken as bound besides those in `B`, exactly the reads of names in
`C` are left out. Effects stay, and so does the order. -/
theorem reads_with_more_bound (n : Node) {B C D : List String} (hD : ∀ x, x ∈ D ↔ x ∈ B ∨ x ∈ C) :
    n.reads D = (n.reads B).filter fun r => r.occurrence.Avoids C :=
  reported_union false hD n

/-- The tree of `new x(y.z, x => x + w)`. -/
def constructorCall : Node :=
  let leaf (kind : Kind) (role : Role) (start : Nat) (text : String) : Node :=
    ⟨kind, role, start, start + 1, text, []⟩
  ⟨.new, .plain, 0, 21, "",
    [leaf .identifier .callee 4 "x",
      ⟨.arguments, .arguments, 5, 21, "",
        [⟨.member, .plain, 6, 9, "",
          [leaf .identifier .object 6 "y", leaf .propertyName .property 8 "z"]⟩,
          ⟨.arrowFunction, .plain, 11, 20, "",
            [leaf .identifier .parameter 11 "x",
              ⟨.binary, .body, 15, 20, "",
                [leaf .identifier .left 15 "x", leaf .identifier .right 19 "w"]⟩]⟩]⟩]⟩

theorem reads_with_more_bound_constructorCall :
    constructorCall.reads ["w"] = [.effect 0, .name "x" [] 4, .name "y" ["z"] 6] ∧
      constructorCall.reads ["x", "w"] = [.effect 0, .name "y" ["z"] 6] := by
  have hreads : constructorCall.reads ["w"] =
      [.effect 0, .name "x" [] 4, .name "y" ["z"] 6] := by decide
  have hD : ∀ x, x ∈ ["x", "w"] ↔ x ∈ ["w"] ∨ x ∈ ["x"] := by
    intro x
    simp only [List.mem_cons, List.not_mem_nil, or_false]
    exact or_comm
  have hmore := reads_with_more_bound constructorCall hD
  rw [hreads] at hmore
  exact ⟨hreads, hmore⟩

end ThemedCss.Scope
