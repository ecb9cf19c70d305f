import ThemedCss.Proofs.Output.Layout
import ThemedCss.Proofs.Text.Utf8

/-! The code of a compiled module is its source with a few ranges replaced. -/
namespace ThemedCss.Output
open ThemedCss.Syntax ThemedCss.Style ThemedCss.Text

variable {settings : Settings} {source : Bytes} {root : Node} {filename file marker : String}
  {calls : List (Call Named)}

/-- What happens to an interpolation: a dynamic one becomes a reference to its token, the expression
of a static one is put into a call of the marker, and one that is in such a call stays. -/
def holeChange (source : Bytes) (file marker : String) (call : Call Labelled) (block : String)
    (i : Labelled) : Option Edit :=
  let expr := slice source i.expr.start i.expr.stop
  match i.label, i.wrapped with
  | .dynamic, _ =>
    some ⟨i.span.start, i.span.stop,
      encode (escapeTemplate s!"var({call.outline.tokenText file block i.slot})")⟩
  | .static, true => none
  | .static, false =>
    let argument := if i.node.kind = .sequence then encode "(" ++ expr ++ encode ")" else expr
    some ⟨i.expr.start, i.expr.stop, encode marker ++ encode "(" ++ argument ++ encode ")"⟩

/-- What happens to a definition: the callee becomes the factory of compiled modules, and holes
change. -/
def callChanges (source : Bytes) (file marker : String) (call : Call Labelled) : List Edit :=
  ⟨call.callee.start, call.callee.stop, encode runtimeFactory⟩ ::
    call.blocks.flatMap fun b =>
      b.interpolations.filterMap (holeChange source file marker call b.name)

private theorem replace_edit_eq (call : Call Labelled) (block : String) {i : Labelled}
    (hi : i.source = slice source i.expr.start i.expr.stop) :
    (replace marker (i.withToken ((call.placeOf block i).given file))).edit =
      holeChange source file marker call block i := by
  unfold replace holeChange
  cases hl : i.label with
  | dynamic =>
    have hdynamic : (i.withToken ((call.placeOf block i).given file)).label = .dynamic := hl
    rw [if_pos hdynamic, name_withToken call block hl]
    rfl
  | static =>
    cases hw : i.wrapped with
    | true => simp [Labelled.withToken, hl, hw]
    | false => simp [Labelled.withToken, hl, hw, encode_append, hi]

theorem callEdits_named {labelled : List (Call Labelled)}
    (hlabels : labelled.map (Call.map Labelled.toInterpolation) =
      (scan settings source root filename).calls)
    {call : Call Labelled} (hcall : call ∈ labelled) :
    callEdits marker (call.named file) = callChanges source file marker call := by
  have hmem : call.map Labelled.toInterpolation ∈ (scan settings source root filename).calls :=
    hlabels ▸ List.mem_map.mpr ⟨call, hcall, rfl⟩
  rw [callEdits_eq, callChanges, Call.named, List.flatMap_map]
  congr 1
  refine List.flatMap_congr fun b hb => ?_
  rw [List.filterMap_map]
  refine List.filterMap_congr fun i hi => replace_edit_eq call b.name ?_
  exact (scan_reads_source hmem (List.mem_map.mpr ⟨b, hb, rfl⟩)).2 i.toInterpolation
    (List.mem_map.mpr ⟨i, hi, rfl⟩)

section Call
variable {call : Call Named} (hlaid : (unlabelled call).LaidOut)
  (hmarks : (unlabelled call).Delimited)
include hlaid hmarks

theorem start_lt_callee :
    call.span.start < call.callee.stop ∧ call.callee.stop ≤ call.span.stop := by
  have hcallee : call.callee.start < call.callee.stop := hmarks.callee
  have hin : call.callee.Within call.span := hlaid.callee
  unfold Span.Within at hin
  omega

/-- An edit of a hole starts before the hole ends. -/
theorem edit_start_lt {b : Block Named} (hb : b ∈ call.blocks) {i : Named}
    (hi : i ∈ b.interpolations) {e : Edit} (he : (replace marker i).edit = some e) :
    e.start < i.span.stop := by
  have hmem : i.toInterpolation ∈ (b.map bare).interpolations := List.mem_map.mpr ⟨i, hi, rfl⟩
  have hexpr := hmarks.expr _ (List.mem_map.mpr ⟨b, hb, rfl⟩) _ hmem
  have hin := (laidOut_interpolation hlaid hb).expr _ hmem
  have hedit := replace_edit he
  unfold Span.Within at hin
  omega

private theorem callEdits_precede : (callEdits marker call).Pairwise Edit.Precedes := by
  refine callEdits_pairwise_of hlaid (fun b hb i hi e he => ?_)
    fun b hb i hi c hc j hj hij d e hd he => ?_
  · have hbehind : call.callee.stop ≤ b.template.start := template_behind hlaid hb
    have hin := (edit_within_template hlaid hb hi he).1
    have hcallee : call.callee.start < call.callee.stop := hmarks.callee
    exact ⟨by simp only; omega, .inl (by simp only; omega)⟩
  · have hstart := edit_start_lt hlaid hmarks hb hi hd
    have hin := (edit_within_span hlaid hc hj he).1
    refine ⟨(edit_within_span hlaid hb hi hd).le_of_before (edit_within_span hlaid hc hj he) hij,
      .inl ?_⟩
    unfold Span.Before at hij
    omega

private theorem callEdits_start_lt {e : Edit} (he : e ∈ callEdits marker call) :
    e.start < call.span.stop := by
  rw [callEdits_eq, List.mem_cons] at he
  rcases he with rfl | he
  · have hcallee : call.callee.start < call.callee.stop := hmarks.callee
    have hin := start_lt_callee hlaid hmarks
    simp only
    omega
  · obtain ⟨b, hb, he⟩ := List.mem_flatMap.mp he
    obtain ⟨i, hi, he⟩ := List.mem_filterMap.mp he
    have hstart := edit_start_lt hlaid hmarks hb hi he
    have hin : i.span.Within call.span :=
      (hole_within_template hlaid hb hi).trans (template_within hlaid hb)
    unfold Span.Within at hin
    omega

private theorem callEdits_lt_stop {e : Edit} (he : e ∈ callEdits marker call) :
    call.span.start < e.stop := by
  have hcallee := start_lt_callee hlaid hmarks
  rw [callEdits_eq, List.mem_cons] at he
  rcases he with rfl | he
  · simp only
    omega
  · obtain ⟨b, hb, he⟩ := List.mem_flatMap.mp he
    obtain ⟨i, hi, he⟩ := List.mem_filterMap.mp he
    have hedit := edit_within_template hlaid hb hi he
    have hbehind : call.callee.stop ≤ b.template.start := template_behind hlaid hb
    unfold Edit.Within at hedit
    omega

end Call

section Module
variable (htree : TreeOf source root) (hmarks : Delimited root)
  (hcalls : Labels settings source root filename calls)

def orderedEdits (settings : Settings) (root : Node) (calls : List (Call Named)) : List Edit :=
  prologueEdits settings root calls ++ calls.flatMap (callEdits settings.marker)

theorem sortedEdits_perm (settings : Settings) (root : Node) (calls : List (Call Named)) :
    (sortedEdits settings root calls).Perm (orderedEdits settings root calls) :=
  ((List.reverse_perm _).trans (List.mergeSort_perm _ _)).trans List.perm_append_comm

include htree hcalls

theorem orderedEdits_fit {e : Edit} (he : e ∈ orderedEdits settings root calls) :
    e.Fits source.length := by
  rcases List.mem_append.mp he with he | he
  · exact (prologueEdits_fit htree hcalls he).1
  · exact callEdits_fit htree hcalls he

theorem sortedEdits_fit {e : Edit} (he : e ∈ sortedEdits settings root calls) :
    e.Fits source.length :=
  orderedEdits_fit htree hcalls ((sortedEdits_perm settings root calls).mem_iff.mp he)

/-- A call of the factory that is no definition lies apart from all edits. -/
theorem site_untouched {site : Site} (hsite : site ∈ candidates settings root)
    (hother : ∀ call ∈ calls, call.span ≠ .ofNode site.call) {e : Edit}
    (he : e ∈ orderedEdits settings root calls) :
    e.stop ≤ site.call.start ∨ (site.call.stop : Int) ≤ e.start := by
  have hapart : ∀ call ∈ calls, ∃ site' ∈ candidates settings root, site' ≠ site ∧
      call.span = .ofNode site'.call := by
    intro call hcall
    obtain ⟨chosen, hsub, hall⟩ := scan_calls settings source root filename
    obtain ⟨site', hsite', hread⟩ := exists_of_mem_right hall (unlabelled_mem hcalls hcall)
    obtain ⟨_, _, _, _, _, _, _, _, _, hspan, _⟩ := callOf_ok hread
    have hspan' : call.span = .ofNode site'.call := hspan
    exact ⟨site', hsub.subset hsite', fun h => hother call hcall (h ▸ hspan'), hspan'⟩
  rcases List.mem_append.mp he with he | he
  · rcases prologueEdits_cases settings root calls with hnone | ⟨e', hone, heq, hplace, -⟩
    · simp [hnone] at he
    · rw [hone, List.mem_singleton] at he
      subst he
      rcases hplace with hzero | ⟨a, ha, hstop⟩
      · omega
      · have hmem := Node.named_mem ha
        rcases (contains_of_mem_candidates hsite).1.cases_head with hroot | ⟨c, hc, hin⟩
        · -- where the whole module is a call of the factory, there is no other one
          obtain ⟨call, hcall⟩ : ∃ call, call ∈ calls :=
            List.exists_mem_of_ne_nil calls fun h => by simp [h, prologueEdits_nil] at hone
          obtain ⟨site', hsite', hne, -⟩ := hapart call hcall
          have hfactory := (contains_of_mem_candidates hsite).2
          rw [← hroot] at hfactory
          rw [candidates_of_isFactoryCall hfactory, List.mem_singleton] at hsite hsite'
          exact absurd (hsite'.trans hsite.symm) hne
        · have hbounds := (htree.nested.of_contains (.single hc)).bounds hin
          have hle := (htree.nested.of_contains (.single hmem)).le
          by_cases hac : a = c
          · subst hac
            omega
          · have hcases := pairwise_or htree.nested.pairwise hmem hc hac
            omega
  · obtain ⟨call, hcall, he⟩ := List.mem_flatMap.mp he
    obtain ⟨site', hsite', hne, hspan⟩ := hapart call hcall
    have hin := callEdits_within (laidOut_of_mem htree hcalls hcall).1 he
    have hcases := pairwise_or (candidates_pairwise htree.nested) hsite' hsite hne
    rw [hspan] at hin
    simp only [Edit.Within, Span.ofNode] at hin
    omega

include hmarks

theorem orderedEdits_precede : (orderedEdits settings root calls).Pairwise Edit.Precedes := by
  have hlaid : ∀ call ∈ calls, (unlabelled call).LaidOut :=
    fun call hcall => (laidOut_of_mem htree hcalls hcall).1
  have hdelim : ∀ call ∈ calls, (unlabelled call).Delimited :=
    fun call hcall => scan_delimited hmarks (unlabelled_mem hcalls hcall)
  refine List.pairwise_append.mpr
    ⟨?_, List.pairwise_flatMap.mpr ⟨fun call hcall => ?_, ?_⟩, fun e he d hd => ?_⟩
  · rcases prologueEdits_cases settings root calls with hnone | ⟨e, hone, -⟩
    · simp [hnone]
    · simp [hone]
  · exact callEdits_precede (hlaid call hcall) (hdelim call hcall)
  · refine (calls_pairwise htree hcalls).imp_of_mem fun {a b} ha hb hab d hd e he => ?_
    have hd' := callEdits_within (hlaid a ha) hd
    have he' := callEdits_within (hlaid b hb) he
    have hstart := callEdits_start_lt (hlaid a ha) (hdelim a ha) hd
    refine ⟨hd'.le_of_before he' hab, .inl ?_⟩
    unfold Span.Before at hab
    unfold Edit.Within at he'
    omega
  · obtain ⟨call, hcall, hd⟩ := List.mem_flatMap.mp hd
    obtain ⟨-, hbefore⟩ := prologueEdits_before he hcall
    have hstart := (callEdits_within (hlaid call hcall) hd).1
    have hstop := callEdits_lt_stop (hlaid call hcall) (hdelim call hcall) hd
    exact ⟨by omega, .inr (by omega)⟩

theorem sortedEdits_eq : sortedEdits settings root calls = orderedEdits settings root calls :=
  sorted_eq_of_perm List.perm_append_comm (orderedEdits_precede htree hmarks hcalls)
    fun _ he => orderedEdits_fit htree hcalls he

end Module

end ThemedCss.Output
