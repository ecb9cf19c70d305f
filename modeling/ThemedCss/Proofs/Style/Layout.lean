import ThemedCss.Proofs.Style.Scan

/-! The byte ranges of style definitions fit together. -/
namespace ThemedCss.Style
open ThemedCss.Syntax ThemedCss.Text

namespace Span

def Before (a b : Span) : Prop :=
  a.stop ≤ b.start

def Within (a b : Span) : Prop :=
  b.start ≤ a.start ∧ a.start ≤ a.stop ∧ a.stop ≤ b.stop

theorem within_ofNode {n m : Node} (h : n.Nested) (hm : n.Contains m) :
    (ofNode m).Within (ofNode n) := by
  have hin := h.bounds hm
  exact ⟨hin.1, (h.of_contains hm).le, hin.2⟩

theorem Before.mono {a b a' b' : Span} (h : a.Before b) (ha : a'.Within a) (hb : b'.Within b) :
    a'.Before b' := by
  unfold Before Within at *
  omega

theorem Within.trans {a b c : Span} (hab : a.Within b) (hbc : b.Within c) : a.Within c := by
  unfold Within at *
  omega

end Span

/-- In every call the callee stands before the arguments. -/
def CalleeFirst (root : Node) : Prop :=
  ∀ n ∈ root.preorder, n.kind = .call →
    ∀ callee ∈ n.child? .callee, ∀ arguments ∈ n.child? .arguments, callee.stop ≤ arguments.start

theorem CalleeFirst.of_contains {root n : Node} (h : CalleeFirst root) (hn : root.Contains n) :
    CalleeFirst n :=
  fun m hm => h m (Node.mem_preorder.mpr (hn.trans (Node.mem_preorder.mp hm)))

/-- What a grammar promises of the tree of a source. -/
structure TreeOf (source : Bytes) (root : Node) : Prop where
  nested : root.Nested
  calleeFirst : CalleeFirst root
  size : root.stop ≤ source.length

instance (source : Bytes) (root : Node) : Decidable (TreeOf source root) :=
  decidable_of_iff
    ((∀ n ∈ root.preorder, n.start ≤ n.stop) ∧
      (∀ n ∈ root.preorder, ∀ c ∈ n.children, n.start ≤ c.start ∧ c.stop ≤ n.stop) ∧
      (∀ n ∈ root.preorder, n.children.Pairwise fun a b => a.stop ≤ b.start) ∧
      (∀ n ∈ root.preorder, n.kind = .call →
        ∀ callee ∈ n.child? .callee, ∀ arguments ∈ n.child? .arguments,
        callee.stop ≤ arguments.start) ∧ root.stop ≤ source.length)
    ⟨fun ⟨h₁, h₂, h₃, h₄, h₅⟩ => ⟨⟨h₁, h₂, h₃⟩, h₄, h₅⟩,
      fun ⟨⟨h₁, h₂, h₃⟩, h₄, h₅⟩ => ⟨h₁, h₂, h₃, h₄, h₅⟩⟩

/-- What a grammar promises of the marks in nodes without faults: names of functions are not empty,
the parts of a template stand between its quotes, and the contents of a hole between its braces. -/
structure Delimited (root : Node) : Prop where
  callee : ∀ n ∈ root.preorder, n.hasError = false → n.kind = .call → ∀ callee ∈ n.child? .callee,
    callee.start < callee.stop
  template : ∀ n ∈ root.preorder, n.hasError = false → n.kind = .template →
    n.start + 2 ≤ n.stop ∧ ∀ c ∈ n.children, n.start < c.start ∧ c.stop < n.stop
  hole : ∀ n ∈ root.preorder, n.hasError = false → n.kind = .substitution →
    ∀ c ∈ n.children, n.start < c.start ∧ c.stop < n.stop

instance (root : Node) : Decidable (Delimited root) :=
  decidable_of_iff
    ((∀ n ∈ root.preorder, n.hasError = false → n.kind = .call → ∀ callee ∈ n.child? .callee,
        callee.start < callee.stop) ∧
      (∀ n ∈ root.preorder, n.hasError = false → n.kind = .template →
        n.start + 2 ≤ n.stop ∧ ∀ c ∈ n.children, n.start < c.start ∧ c.stop < n.stop) ∧
      ∀ n ∈ root.preorder, n.hasError = false → n.kind = .substitution →
        ∀ c ∈ n.children, n.start < c.start ∧ c.stop < n.stop)
    ⟨fun ⟨h₁, h₂, h₃⟩ => ⟨h₁, h₂, h₃⟩, fun ⟨h₁, h₂, h₃⟩ => ⟨h₁, h₂, h₃⟩⟩

/-- The ranges of a template: its holes lie in it one after the other, each around its
expression. -/
structure Block.LaidOut (b : Block Interpolation) : Prop where
  hole : ∀ i ∈ b.interpolations, i.span.Within b.template
  expr : ∀ i ∈ b.interpolations, i.expr.Within i.span
  holes : b.interpolations.Pairwise fun i j => i.span.Before j.span

/-- The ranges of a definition: its templates lie in it one after the other, behind the callee. -/
structure Call.LaidOut (call : Call Interpolation) : Prop where
  callee : call.callee.Within call.span
  template : ∀ b ∈ call.blocks, b.template.Within call.span
  behind : ∀ b ∈ call.blocks, call.callee.Before b.template
  templates : call.blocks.Pairwise fun a b => a.template.Before b.template
  block : ∀ b ∈ call.blocks, b.LaidOut

theorem blockOf_laidOut {source : Bytes} {marker tag name : String} {value : Node}
    {b : Block Interpolation} (hvalue : value.Nested)
    (h : blockOf source marker tag name value = .ok b) :
    b.template.Within (.ofNode value) ∧ b.LaidOut := by
  obtain ⟨-, template, htag, htemplate, hparts⟩ := blockOf_ok h
  have hin : value.Contains template :=
    (Node.contains_unwrap value).trans (Node.contains_child? (taggedTemplate?_eq_some htag).2.2.1)
  have hnest := hvalue.of_contains hin
  have hall := templateParts_ok hparts
  have hchild : ∀ hole ∈ template.children.filter (·.kind == .substitution), hole ∈
      template.children :=
    fun hole hhole => (List.mem_filter.mp hhole).1
  refine ⟨htemplate ▸ Span.within_ofNode hvalue hin, fun i hi => ?_, fun i hi => ?_, ?_⟩
  · obtain ⟨hole, hhole, expr, -, hi⟩ := exists_of_mem_right hall hi
    rw [hi, htemplate]
    exact Span.within_ofNode hnest (.single (hchild hole hhole))
  · obtain ⟨hole, hhole, expr, hexpr, hi⟩ := exists_of_mem_right hall hi
    have hcontains : hole.Contains expr := Node.contains_named (hexpr ▸ List.mem_cons_self)
    rw [hi]
    exact Span.within_ofNode (hnest.of_contains (.single (hchild hole hhole))) hcontains
  · refine pairwise_right hall (hnest.pairwise.filter _) ?_
    rintro a - b - i j ⟨_, -, hi⟩ ⟨_, -, hj⟩ hab
    rw [hi, hj]
    exact hab

/-- The blocks of a style object lie in it one after the other. -/
theorem blocksOf_laidOut {source : Bytes} {marker tag : String} {seen : List String} {object : Node}
    {blocks : List (Block Interpolation)} (hobject : object.Nested)
    (h : blocksOf source marker tag seen object.named = .ok blocks) :
    (∀ b ∈ blocks, b.template.Within (.ofNode object) ∧ b.LaidOut) ∧
      blocks.Pairwise fun a b => a.template.Before b.template := by
  have hall := blocksOf_ok h
  have hblock : ∀ property ∈ object.named, ∀ b, (∃ value, property.child? .value = some value ∧
      blockOf source marker tag b.name value = .ok b) →
      b.template.Within (.ofNode property) ∧ b.LaidOut := by
    rintro property hproperty b ⟨value, hvalue, hb⟩
    have hnest := hobject.of_contains (Node.contains_named hproperty)
    have hin := Node.contains_child? hvalue
    obtain ⟨hwithin, hlaid⟩ := blockOf_laidOut (hnest.of_contains hin) hb
    exact ⟨hwithin.trans (Span.within_ofNode hnest hin), hlaid⟩
  refine ⟨fun b hb => ?_, pairwise_right hall hobject.named_pairwise ?_⟩
  · obtain ⟨property, hproperty, hb⟩ := exists_of_mem_right hall hb
    obtain ⟨hwithin, hlaid⟩ := hblock property hproperty b hb
    exact ⟨hwithin.trans (Span.within_ofNode hobject (Node.contains_named hproperty)), hlaid⟩
  · intro p hp q hq a b ha hb hpq
    have hbefore : (Span.ofNode p).Before (.ofNode q) := hpq
    exact hbefore.mono (hblock p hp a ha).1 (hblock q hq b hb).1

theorem callOf_laidOut {settings : Settings} {source : Bytes} {exported : List String}
    {callSite sequence : Nat} {site : Site} {call : Call Interpolation} (hnest : site.call.Nested)
    (hfirst : CalleeFirst site.call) (hkind : site.call.kind = .call)
    (h : callOf settings source exported callSite sequence site = .ok call) :
    call.span = .ofNode site.call ∧ call.LaidOut := by
  obtain ⟨arguments, callee, object, harguments, hcallee, hobject, -, -, hcalleeSpan, hspan,
      hblocks⟩ := callOf_ok h
  have hin : site.call.Contains object := (Node.contains_child? harguments).trans hobject
  have hlaid := blocksOf_laidOut (hnest.of_contains hin) hblocks
  have hbefore : callee.stop ≤ arguments.start :=
    hfirst site.call (Node.mem_preorder.mpr .refl) hkind callee hcallee arguments harguments
  have hargs := (hnest.of_contains (Node.contains_child? harguments)).bounds hobject
  refine ⟨hspan, ?_, fun b hb => ?_, fun b hb => ?_, hlaid.2, fun b hb => (hlaid.1 b hb).2⟩
  · rw [hcalleeSpan, hspan]
    exact Span.within_ofNode hnest (Node.contains_child? hcallee)
  · rw [hspan]
    exact (hlaid.1 b hb).1.trans (Span.within_ofNode hnest hin)
  · have hwithin := (hlaid.1 b hb).1
    rw [hcalleeSpan]
    simp only [Span.Before, Span.Within, Span.ofNode] at *
    omega

theorem pairwise_or {α : Type} {R : α → α → Prop} {l : List α} (h : l.Pairwise R) {a b : α}
    (ha : a ∈ l) (hb : b ∈ l) (hne : a ≠ b) : R a b ∨ R b a := by
  have : Std.Symm fun a b => R a b ∨ R b a := ⟨fun _ _ => Or.symm⟩
  have hor : l.Pairwise fun a b => R a b ∨ R b a := h.imp .inl
  exact hor.forall ha hb hne

section Sites
variable {factories : List String}

mutual
theorem sites_pairwise : ∀ {n : Node} (parents : List Node), n.Nested →
    (sites factories parents n).Pairwise fun a b => a.call.stop ≤ b.call.start
  | ⟨kind, role, start, stop, text, children⟩, parents, h => by
    rw [sites]
    split_ifs
    · exact List.pairwise_singleton _ _
    · exact sitesAll_pairwise _ (fun c hc => h.of_contains (.single hc)) h.pairwise

theorem sitesAll_pairwise : ∀ {ns : List Node} (parents : List Node), (∀ c ∈ ns, c.Nested) →
    (ns.Pairwise fun a b => a.stop ≤ b.start) →
    (sitesAll factories parents ns).Pairwise fun a b => a.call.stop ≤ b.call.start
  | [], _, _, _ => by simp [sitesAll]
  | n :: ns, parents, hnest, hpair => by
    have hn := hnest n List.mem_cons_self
    have hns : ∀ c ∈ ns, c.Nested := fun c hc => hnest c (List.mem_cons_of_mem _ hc)
    have hpair' := List.pairwise_cons.mp hpair
    rw [sitesAll, List.pairwise_append]
    refine ⟨sites_pairwise parents hn, sitesAll_pairwise parents hns hpair'.2, fun a ha b hb => ?_⟩
    -- the first site lies in the first node, and the second one in a later node
    have hin := hn.bounds (contains_of_mem_sites ha).1
    obtain ⟨c, hc, hcontains, -⟩ := contains_of_mem_sitesAll hb
    have hin' := (hns c hc).bounds hcontains
    have hbefore := hpair'.1 c hc
    omega
end

theorem candidates_pairwise {settings : Settings} {root : Node} (h : root.Nested) :
    (candidates settings root).Pairwise fun a b => a.call.stop ≤ b.call.start := by
  rw [candidates_eq]
  exact sites_pairwise [] h

end Sites

/-- The definitions of a module lie one after the other. -/
theorem scan_laidOut (settings : Settings) (source : Bytes) {root : Node} (file : String)
    (hroot : root.Nested) (hfirst : CalleeFirst root) :
    ((scan settings source root file).calls.Pairwise fun a b => a.span.Before b.span) ∧
      ∀ call ∈ (scan settings source root file).calls, call.LaidOut ∧
      call.span.Within (.ofNode root) := by
  obtain ⟨chosen, hsub, hall⟩ := scan_calls settings source root file
  have hsite : ∀ site ∈ chosen, ∀ call,
      callOf settings source (exportedNames root) call.callSite call.sequence site = .ok call →
      root.Contains site.call ∧ call.span = .ofNode site.call ∧ call.LaidOut := by
    intro site hsite call hcall
    obtain ⟨hin, hfactory⟩ := contains_of_mem_candidates (hsub.subset hsite)
    exact ⟨hin, callOf_laidOut (hroot.of_contains hin) (hfirst.of_contains hin)
      (kind_of_isFactoryCall hfactory) hcall⟩
  refine ⟨pairwise_right hall ((candidates_pairwise hroot).sublist hsub) ?_, fun call hcall => ?_⟩
  · intro s hs t ht a b ha hb hst
    rw [(hsite s hs a ha).2.1, (hsite t ht b hb).2.1]
    exact hst
  · obtain ⟨s, hs, ha⟩ := exists_of_mem_right hall hcall
    obtain ⟨hin, hspan, hlaid⟩ := hsite s hs call ha
    exact ⟨hlaid, hspan ▸ Span.within_ofNode hroot hin⟩

structure Call.Delimited (call : Call Interpolation) : Prop where
  callee : call.callee.start < call.callee.stop
  template : ∀ b ∈ call.blocks, b.template.start + 2 ≤ b.template.stop
  hole : ∀ b ∈ call.blocks, ∀ i ∈ b.interpolations, b.template.start < i.span.start ∧
    i.span.stop < b.template.stop
  expr : ∀ b ∈ call.blocks, ∀ i ∈ b.interpolations, i.span.start < i.expr.start ∧
    i.expr.stop < i.span.stop

theorem scan_delimited {settings : Settings} {source : Bytes} {root : Node} {file : String}
    (hroot : Style.Delimited root) {call : Call Interpolation}
    (hcall : call ∈ (scan settings source root file).calls) : call.Delimited := by
  have hcallee : call.callee.start < call.callee.stop := by
    obtain ⟨chosen, hsub, hall⟩ := scan_calls settings source root file
    obtain ⟨site, hsite, hread⟩ := exists_of_mem_right hall hcall
    obtain ⟨-, callee, -, -, hcallee, -, -, -, hspan, -⟩ := callOf_ok hread
    obtain ⟨hin, hfactory⟩ := contains_of_mem_candidates (hsub.subset hsite)
    rw [hspan]
    exact hroot.callee site.call (Node.mem_preorder.mpr hin) (hasError_of_callOf hread)
      (kind_of_isFactoryCall hfactory)
      callee hcallee
  have hblock : ∀ b ∈ call.blocks, b.template.start + 2 ≤ b.template.stop ∧ ∀ i ∈ b.interpolations,
      (b.template.start < i.span.start ∧ i.span.stop < b.template.stop) ∧
        i.span.start < i.expr.start ∧ i.expr.stop < i.span.stop := by
    intro b hb
    obtain ⟨tag, value, hvalue, hsound, hread⟩ := exists_blockOf hcall hb
    obtain ⟨-, template, htag, htemplate, hparts⟩ := blockOf_ok hread
    obtain ⟨-, hkind, harguments, -⟩ := taggedTemplate?_eq_some htag
    have hin : value.Contains template :=
      (Node.contains_unwrap value).trans (Node.contains_child? harguments)
    obtain ⟨hquotes, hchildren⟩ :=
      hroot.template template (Node.mem_preorder.mpr (hvalue.trans hin))
        (Node.hasError_of_contains hin hsound) hkind
    refine ⟨htemplate ▸ hquotes, fun i hi => ?_⟩
    obtain ⟨hole, hhole, expr, hexpr, hi⟩ := exists_of_mem_right (templateParts_ok hparts) hi
    obtain ⟨hmem, hsub⟩ := List.mem_filter.mp hhole
    rw [hi, htemplate]
    refine ⟨hchildren hole hmem,
      hroot.hole hole (Node.mem_preorder.mpr (hvalue.trans (hin.tail hmem)))
      (Node.hasError_of_contains (hin.tail hmem) hsound) (beq_iff_eq.mp hsub) expr ?_⟩
    exact Node.named_mem (hexpr ▸ List.mem_cons_self)
  exact ⟨hcallee, fun b hb => (hblock b hb).1, fun b hb i hi => ((hblock b hb).2 i hi).1,
    fun b hb i hi => ((hblock b hb).2 i hi).2⟩

end ThemedCss.Style
