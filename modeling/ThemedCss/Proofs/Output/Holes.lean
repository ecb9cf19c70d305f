import ThemedCss.Proofs.Output.Code
import ThemedCss.Proofs.Output.Prologue

/-! What becomes of a style definition does not depend on what stands in its dynamic holes. -/
namespace ThemedCss.Output
open ThemedCss.Syntax ThemedCss.Style ThemedCss.Text

def dynamicSpans (calls : List (Call Named)) : List Span :=
  calls.flatMap fun call => call.blocks.flatMap fun b =>
    (b.interpolations.filter fun i => i.label = .dynamic).map (·.span)

theorem mem_dynamicSpans {calls : List (Call Named)} {d : Span} : d ∈ dynamicSpans calls ↔
    ∃ call ∈ calls, ∃ b ∈ call.blocks, ∃ i ∈ b.interpolations, i.label = .dynamic ∧ i.span = d := by
  simp [dynamicSpans, and_assoc]

section Layout
variable {settings : Settings} {source : Bytes} {root : Node} {filename : String}
  {calls : List (Call Named)}
  (htree : TreeOf source root) (hcalls : Labels settings source root filename calls)
include htree hcalls

/-- A hole lies in a template or apart from it. -/
theorem hole_cases {call call' : Call Named} (hcall : call ∈ calls) (hcall' : call' ∈ calls)
    {b b' : Block Named} (hb : b ∈ call.blocks) (hb' : b' ∈ call'.blocks) {j : Named}
    (hj : j ∈ b'.interpolations) :
    j.span.Before b.template ∨ b.template.Before j.span ∨ j ∈ b.interpolations := by
  have hlaid := (laidOut_of_mem htree hcalls hcall).1
  have hlaid' := (laidOut_of_mem htree hcalls hcall').1
  have hhole : j.span.Within b'.template := hole_within_template hlaid' hb' hj
  have hin : b.template.Within call.span := template_within hlaid hb
  have hself : b.template.Within b.template := ⟨Nat.le_refl _, hin.2.1, Nat.le_refl _⟩
  by_cases hcc : call' = call
  · subst hcc
    by_cases hbb : b' = b
    · exact .inr (.inr (hbb ▸ hj))
    · rcases pairwise_or (templates_pairwise hlaid) hb' hb hbb with hbefore | hafter
      · exact .inl (hbefore.mono hhole hself)
      · exact .inr (.inl (hafter.mono hself hhole))
  · have hin' : b'.template.Within call'.span := template_within hlaid' hb'
    rcases pairwise_or (calls_pairwise htree hcalls) hcall' hcall hcc with hbefore | hafter
    · exact .inl (hbefore.mono (hhole.trans hin') hin)
    · exact .inr (.inl (hafter.mono hin (hhole.trans hin')))

/-- The dynamic holes lie apart from a template or are holes of it. -/
theorem dynamicSpans_cases {call : Call Named} (hcall : call ∈ calls) {b : Block Named}
    (hb : b ∈ call.blocks) {d : Span} (hd : d ∈ dynamicSpans calls) :
    d.stop ≤ b.template.start ∨ b.template.stop ≤ d.start ∨ d ∈ b.interpolations.map (·.span) := by
  obtain ⟨call', hcall', b', hb', j, hj, -, rfl⟩ := mem_dynamicSpans.mp hd
  rcases hole_cases htree hcalls hcall hcall' hb hb' hj with hbefore | hafter | hmem
  · exact .inl hbefore
  · exact .inr (.inl hafter)
  · exact .inr (.inr (List.mem_map.mpr ⟨j, hmem, rfl⟩))

/-- The dynamic holes lie apart from a static one. -/
theorem dynamicSpans_apart {call : Call Named} (hcall : call ∈ calls) {b : Block Named}
    (hb : b ∈ call.blocks) {i : Named} (hi : i ∈ b.interpolations) (hstatic : i.label = .static)
    {d : Span} (hd : d ∈ dynamicSpans calls) : d.Before i.span ∨ i.span.Before d := by
  obtain ⟨call', hcall', b', hb', j, hj, hdynamic, rfl⟩ := mem_dynamicSpans.mp hd
  have hlaid := (laidOut_of_mem htree hcalls hcall).1
  have hin : i.span.Within b.template := hole_within_template hlaid hb hi
  rcases hole_cases htree hcalls hcall hcall' hb hb' hj with hbefore | hafter | hmem
  · unfold Span.Before Span.Within at *
    omega
  · unfold Span.Before Span.Within at *
    omega
  · have hne : j ≠ i := fun h => by simp [h, hstatic] at hdynamic
    exact pairwise_or (holes_pairwise hlaid hb) hmem hi hne

end Layout

/-- The label of each interpolation of a definition, and the token an earlier pass has left. -/
def marksOf (call : Call Labelled) : List (List (Label × Option String)) :=
  call.blocks.map fun b => b.interpolations.map fun i => (i.label, i.placeholder)

/-- Alike interpolations with the same label, and with the same name if they are dynamic. -/
structure HoleAlike (δ : Difference) (i j : Named) : Prop where
  place : i.toInterpolation.Alike δ j.toInterpolation
  label : j.label = i.label
  name : i.label = .dynamic → j.name = i.name

structure BlockAlike (δ : Difference) (b c : Block Named) : Prop where
  name : c.name = b.name
  template : c.template = b.template.move δ.move
  interpolations : List.Forall₂ (HoleAlike δ) b.interpolations c.interpolations

structure CallAlike (δ : Difference) (a b : Call Named) : Prop where
  plain : (unlabelled a).Alike δ (unlabelled b)
  blocks : List.Forall₂ (BlockAlike δ) a.blocks b.blocks

theorem forall₂_of_map_eq {α β : Type} {f : α → β} {xs ys : List α} (h : ys.map f = xs.map f) :
    List.Forall₂ (fun x y => f y = f x) xs ys := by
  have heq : List.Forall₂ Eq (xs.map f) (ys.map f) := by
    rw [List.forall₂_eq_eq_eq]
    exact h.symm
  rw [List.forall₂_map_left_iff, List.forall₂_map_right_iff] at heq
  exact heq.imp fun _ _ hxy => hxy.symm

theorem forall₂_mem {α β : Type} {R : α → β → Prop} {xs : List α} {ys : List β}
    (h : List.Forall₂ R xs ys) : List.Forall₂ (fun x y => R x y ∧ x ∈ xs ∧ y ∈ ys) xs ys := by
  induction h with
  | nil => exact .nil
  | cons hxy _ ih =>
    refine .cons ⟨hxy, List.mem_cons_self, List.mem_cons_self⟩ (ih.imp fun x y hxy => ?_)
    exact ⟨hxy.1, List.mem_cons_of_mem _ hxy.2.1, List.mem_cons_of_mem _ hxy.2.2⟩

theorem map_eq_of_forall₂ {α β γ : Type} {R : α → β → Prop} {f : α → γ} {g : β → γ} {xs : List α}
    {ys : List β} (h : List.Forall₂ R xs ys) (hfg : ∀ x y, R x y → g y = f x) :
    ys.map g = xs.map f := by
  induction h with
  | nil => rfl
  | cons hxy _ ih => rw [List.map_cons, List.map_cons, hfg _ _ hxy, ih]

section Marks
variable {δ : Difference} {a b : Call Labelled}
  (h : (a.map Labelled.toInterpolation).Alike δ (b.map Labelled.toInterpolation))
    (hmarks : marksOf b = marksOf a)
include h hmarks

theorem blocks_alike :
    List.Forall₂ (fun x y => y.name = x.name ∧ y.template = x.template.move δ.move ∧
    List.Forall₂ (fun i j => i.toInterpolation.Alike δ j.toInterpolation ∧ j.slot = i.slot)
      x.interpolations y.interpolations) a.blocks b.blocks := by
  have hblocks : List.Forall₂
      (fun x y => Block.Alike δ (x.map Labelled.toInterpolation) (y.map Labelled.toInterpolation))
      a.blocks b.blocks :=
    List.forall₂_map_left_iff.mp (List.forall₂_map_right_iff.mp h.blocks)
  refine hblocks.mp (fun x y hxy hmark => ⟨hxy.name, hxy.template, ?_⟩) (forall₂_of_map_eq hmarks)
  have hholes : List.Forall₂ (fun i j : Labelled => i.toInterpolation.Alike δ j.toInterpolation)
      x.interpolations y.interpolations :=
    List.forall₂_map_left_iff.mp (List.forall₂_map_right_iff.mp hxy.interpolations)
  refine hholes.mp (fun i j hij hmark => ⟨hij, ?_⟩) (forall₂_of_map_eq hmark)
  obtain ⟨hlabel, hkept⟩ := Prod.mk.inj hmark
  have hindex : j.index = i.index := hij.index
  rw [Labelled.slot, hlabel, hkept, hindex, Labelled.slot]

/-- Tokens depend on where interpolations stand, not on what they are. -/
theorem outline_alike : b.outline = a.outline := by
  have hhook : b.hook = a.hook := h.hook
  have hsequence : b.sequence = a.sequence := h.sequence
  have hsite : b.callSite = a.callSite := h.callSite
  have hblocks : (b.blocks.map fun block => (block.name, block.interpolations.map (·.slot))) =
      a.blocks.map fun block => (block.name, block.interpolations.map (·.slot)) := by
    refine map_eq_of_forall₂ (blocks_alike h hmarks) fun x y ⟨hname, _, hholes⟩ => ?_
    rw [hname, map_eq_of_forall₂ hholes fun i j hij => hij.2]
  rw [Call.outline, Call.outline, hhook, hsequence, hsite, hblocks]

theorem named_alike (file : String) : CallAlike δ (a.named file) (b.named file) := by
  refine ⟨by rwa [unlabelled_named, unlabelled_named], ?_⟩
  refine List.forall₂_map_left_iff.mpr (List.forall₂_map_right_iff.mpr ?_)
  refine (blocks_alike h hmarks).imp fun x y ⟨hname, htemplate, hholes⟩ => ⟨hname, htemplate, ?_⟩
  refine List.forall₂_map_left_iff.mpr (List.forall₂_map_right_iff.mpr ?_)
  refine hholes.imp fun i j ⟨hij, hslot⟩ => ?_
  have hlabel : j.label = i.label := congrArg Slot.label hslot
  refine ⟨hij, hlabel, fun hdynamic => ?_⟩
  have hdynamic' : i.label = .dynamic := hdynamic
  rw [name_withToken a x.name hdynamic', name_withToken b y.name (hlabel.trans hdynamic'),
    hname, hslot, outline_alike h hmarks]

end Marks

structure Replacement.Moved (move : Nat → Nat) (r r' : Replacement) : Prop where
  token : r'.token = r.token
  text : r'.text = r.text
  edit : Option.Rel (Edit.Moved move) r.edit r'.edit

/-- What replaces a hole does not depend on its expression if it is dynamic. -/
theorem replace_moved {δ : Difference} (marker : String) {i j : Named} (h : HoleAlike δ i j)
    (hstatic : i.label = .static →
      j.expr = i.expr.move δ.move ∧ j.wrapped = i.wrapped ∧ j.node.kind = i.node.kind ∧
      j.source = i.source) :
    (replace marker i).Moved δ.move (replace marker j) := by
  have hspan : j.span = i.span.move δ.move := h.place.span
  unfold replace
  rw [h.label]
  cases hl : i.label with
  | dynamic =>
    rw [if_pos rfl, if_pos rfl, h.name hl, hspan]
    exact ⟨rfl, rfl, .some ⟨rfl, rfl, rfl⟩⟩
  | static =>
    obtain ⟨hexpr, hwrapped, hkind, hsource⟩ := hstatic hl
    simp only [reduceCtorEq, if_false, hwrapped, hkind, hsource, hexpr]
    split_ifs
    · exact ⟨rfl, rfl, .none⟩
    · exact ⟨rfl, rfl, .some ⟨rfl, rfl, rfl⟩⟩
    · exact ⟨rfl, rfl, .some ⟨rfl, rfl, rfl⟩⟩

theorem hookOf_eq (marker : String) (call : Call Named) :
    hookOf marker call =
      { name := call.hook
        exported := call.exported
        callSite := call.callSite
        blocks := call.blocks.map (·.name)
        extractable := true
        tokens := (call.blocks.map fun b =>
          (b.interpolations.map fun i => (replace marker i).token).filterMap id).flatten
        skeleton := Table.insertAll (call.blocks.map fun b => (b.name, interleave b.chunks
          (b.interpolations.map fun i => (replace marker i).text))) [] } := by
  simp [hookOf, replacements, List.flatMap, List.filterMap_map, Function.comp_def]

theorem chunks_eq_gaps {settings : Settings} {source : Bytes} {root : Node} {filename : String}
    {calls : List (Call Named)} (hcalls : Labels settings source root filename calls)
    {call : Call Named} (hcall : call ∈ calls) {b : Block Named} (hb : b ∈ call.blocks) :
    b.chunks = gaps source (b.template.stop - 1) (b.template.start + 1)
      (b.interpolations.map (·.span)) := by
  have hread := (scan_reads_source (unlabelled_mem hcalls hcall) (List.mem_map.mpr ⟨b, hb, rfl⟩)).1
  rw [Block.map, List.map_map] at hread
  exact hread

section TwoRuns
variable {settings : Settings} {source source' : Bytes} {root root' : Node} {filename : String}
  {calls calls' : List (Call Named)} {δ : Difference} (htree : TreeOf source root)
    (hmarks : Delimited root)
  (hcalls : Labels settings source root filename calls)
    (hcalls' : Labels settings source' root' filename calls')
  (hmoves : Moves δ.move (dynamicSpans calls) source source')
  {call call' : Call Named} (hcall : call ∈ calls) (hcall' : call' ∈ calls')
include htree hmarks hcalls hcalls' hmoves hcall hcall'

/-- The chunks of a template are the same. -/
theorem chunks_same {b b' : Block Named} (hb : b ∈ call.blocks) (hb' : b' ∈ call'.blocks)
    (h : BlockAlike δ b b') : b'.chunks = b.chunks := by
  have hlaid := (laidOut_of_mem htree hcalls hcall).1
  have hdelim := scan_delimited hmarks (unlabelled_mem hcalls hcall)
  have hquotes : b.template.start + 2 ≤ b.template.stop :=
    hdelim.template _ (List.mem_map.mpr ⟨b, hb, rfl⟩)
  have hsize : b.template.stop ≤ source.length :=
    Nat.le_trans (template_within hlaid hb).2.2 (call_stop_le htree hcalls hcall)
  -- holes lie between the quotes, so the bytes of the quotes are in none of them
  have hinner : ∀ s ∈ b.interpolations.map (·.span),
      b.template.start + 1 ≤ s.start ∧ s.start ≤ s.stop ∧ s.stop ≤ b.template.stop - 1 := by
    intro s hs
    obtain ⟨i, hi, rfl⟩ := List.mem_map.mp hs
    have hmem : i.toInterpolation ∈ (b.map bare).interpolations := List.mem_map.mpr ⟨i, hi, rfl⟩
    have hhole : b.template.start < i.span.start ∧ i.span.stop < b.template.stop :=
      hdelim.hole _ (List.mem_map.mpr ⟨b, hb, rfl⟩) _ hmem
    have hin := hole_within_template hlaid hb hi
    unfold Span.Within at hin
    omega
  have hopen := hmoves.slice (Nat.le_add_right b.template.start 1) (by omega) fun d hd => by
    rcases dynamicSpans_cases htree hcalls hcall hb hd with hd | hd | hd
    · exact .inl hd
    · exact .inr (by omega)
    · exact .inr (hinner d hd).1
  have hclose := hmoves.slice (Nat.sub_le b.template.stop 1) hsize fun d hd => by
    rcases dynamicSpans_cases htree hcalls hcall hb hd with hd | hd | hd
    · exact .inl (by omega)
    · exact .inr hd
    · exact .inl (hinner d hd).2.2
  have hspans : b'.interpolations.map (·.span) =
      (b.interpolations.map (·.span)).map (Span.move δ.move) := by
    rw [List.map_map]
    exact map_eq_of_forall₂ h.interpolations fun i j hij => hij.place.span
  have hstart : b'.template.start + 1 = δ.move (b.template.start + 1) := by
    rw [h.template, hopen.1]
    simp [Span.move]
  have hstop : b'.template.stop - 1 = δ.move (b.template.stop - 1) := by
    have hmove := hclose.1
    rw [h.template, Span.move]
    simp only
    omega
  rw [chunks_eq_gaps hcalls hcall hb, chunks_eq_gaps hcalls' hcall' hb', hspans, hstart, hstop]
  refine hmoves.gaps (by omega) (by omega) (List.pairwise_map.mpr (holes_pairwise hlaid hb)) hinner
    fun d hd => ?_
  rcases dynamicSpans_cases htree hcalls hcall hb hd with hd | hd | hd
  · exact .inl (by omega)
  · exact .inr (.inl (by omega))
  · exact .inr (.inr hd)

variable (hfree : ∀ n m, δ.free n m = true → Span.ofNode n ∈ dynamicSpans calls)
include hfree

/-- Static holes are not free, so they hold the same expression. -/
theorem static_same {b b' : Block Named} (hb : b ∈ call.blocks) (hb' : b' ∈ call'.blocks)
    {i j : Named} (hi : i ∈ b.interpolations) (hj : j ∈ b'.interpolations) (h : HoleAlike δ i j)
    (hstatic : i.label = .static) :
    j.expr = i.expr.move δ.move ∧ j.wrapped = i.wrapped ∧ j.node.kind = i.node.kind ∧
      j.source = i.source := by
  have hlaid := (laidOut_of_mem htree hcalls hcall).1
  have hmem : i.toInterpolation ∈ (b.map bare).interpolations := List.mem_map.mpr ⟨i, hi, rfl⟩
  have hmem' : j.toInterpolation ∈ (b'.map bare).interpolations := List.mem_map.mpr ⟨j, hj, rfl⟩
  have hexprIn : i.expr.Within i.span := (laidOut_interpolation hlaid hb).expr _ hmem
  have hmark : i.span.start < i.expr.start ∧ i.expr.stop < i.span.stop :=
    (scan_delimited hmarks (unlabelled_mem hcalls hcall)).expr _
      (List.mem_map.mpr ⟨b, hb, rfl⟩) _ hmem
  have hsource : i.source = slice source i.expr.start i.expr.stop :=
    (scan_reads_source (unlabelled_mem hcalls hcall) (List.mem_map.mpr ⟨b, hb, rfl⟩)).2 _ hmem
  have hsource' : j.source = slice source' j.expr.start j.expr.stop :=
    (scan_reads_source (unlabelled_mem hcalls' hcall') (List.mem_map.mpr ⟨b', hb', rfl⟩)).2 _ hmem'
  rcases h.place.same with ⟨n, m, hn, hnm⟩ | ⟨hexpr, hwrapped, -, hkind⟩
  · have hself : i.span.Before i.span ∨ i.span.Before i.span :=
      dynamicSpans_apart htree hcalls hcall hb hi hstatic (hn ▸ hfree n m hnm)
    unfold Span.Before Span.Within at *
    omega
  · have hexpr : j.expr = i.expr.move δ.move := hexpr
    refine ⟨hexpr, hwrapped, hkind, ?_⟩
    have hsize : i.span.stop ≤ source.length :=
      Nat.le_trans ((hole_within_template hlaid hb hi).trans (template_within hlaid hb)).2.2
        (call_stop_le htree hcalls hcall)
    have hout : ∀ d ∈ dynamicSpans calls, d.stop ≤ i.expr.start ∨ i.expr.stop ≤ d.start := by
      intro d hd
      have hcases := dynamicSpans_apart htree hcalls hcall hb hi hstatic hd
      unfold Span.Before at hcases
      omega
    have hslice := (hmoves.slice hexprIn.2.1 (by omega) hout).2
    rw [hsource', hexpr, hsource, ← hslice]
    rfl

/-- What the blocks of alike definitions become. -/
theorem blocks_moved (h : CallAlike δ call call') (marker : String) :
    List.Forall₂ (fun b c => c.name = b.name ∧ c.chunks = b.chunks ∧
        List.Forall₂ (fun i j => (replace marker i).Moved δ.move
          (replace marker j)) b.interpolations c.interpolations) call.blocks call'.blocks := by
  refine (forall₂_mem h.blocks).imp fun b c ⟨hbc, hb, hc⟩ => ?_
  refine ⟨hbc.name, chunks_same htree hmarks hcalls hcalls' hmoves hcall hcall' hb hc hbc, ?_⟩
  refine (forall₂_mem hbc.interpolations).imp fun i j ⟨hij, hi, hj⟩ => ?_
  exact replace_moved marker hij
    (static_same htree hmarks hcalls hcalls' hmoves hcall hcall' hfree hb hc hi hj hij)

theorem callEdits_moved (h : CallAlike δ call call') (marker : String) :
    List.Forall₂ (Edit.Moved δ.move) (callEdits marker call) (callEdits marker call') := by
  have hblocks := blocks_moved htree hmarks hcalls hcalls' hmoves hcall hcall' hfree h marker
  have hcallee : call'.callee = call.callee.move δ.move := h.plain.callee
  rw [callEdits_eq, callEdits_eq, hcallee]
  refine .cons ⟨rfl, rfl, rfl⟩ (List.rel_flatMap hblocks fun b c hbc => ?_)
  exact List.rel_filterMap (fun _ _ hij => hij.edit) hbc.2.2

theorem hookOf_same (h : CallAlike δ call call') (marker : String) :
    hookOf marker call' = hookOf marker call := by
  have hblocks := blocks_moved htree hmarks hcalls hcalls' hmoves hcall hcall' hfree h marker
  have hhook : call'.hook = call.hook := h.plain.hook
  have hexported : call'.exported = call.exported := h.plain.exported
  have hsite : call'.callSite = call.callSite := h.plain.callSite
  have hnames : call'.blocks.map (·.name) = call.blocks.map (·.name) :=
    map_eq_of_forall₂ hblocks fun b c hbc => hbc.1
  have htokens : (call'.blocks.map fun b =>
        (b.interpolations.map fun i => (replace marker i).token).filterMap id) =
      call.blocks.map fun b =>
        (b.interpolations.map fun i => (replace marker i).token).filterMap id := by
    refine map_eq_of_forall₂ hblocks fun b c hbc => ?_
    rw [map_eq_of_forall₂ hbc.2.2 fun i j hij => hij.token]
  have htexts : (call'.blocks.map fun b => (b.name, interleave b.chunks
        (b.interpolations.map fun i => (replace marker i).text))) =
      call.blocks.map fun b => (b.name, interleave b.chunks
        (b.interpolations.map fun i => (replace marker i).text)) := by
    refine map_eq_of_forall₂ hblocks fun b c hbc => ?_
    rw [hbc.2.1, map_eq_of_forall₂ hbc.2.2 fun i j hij => hij.text, hbc.1]
  rw [hookOf_eq, hookOf_eq, hhook, hexported, hsite, hnames, htokens, htexts]

end TwoRuns

end ThemedCss.Output
