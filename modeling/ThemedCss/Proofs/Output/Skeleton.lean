import ThemedCss.Proofs.Output.FixedPoint
import ThemedCss.Proofs.Output.Independence

/-! The text recorded for a template, and the text that stands between its quotes in the code. -/
namespace ThemedCss.Style
open ThemedCss.Syntax ThemedCss.Text

/-- What a grammar promises of the bytes of nodes without faults: templates stand in quotes, and
what is in a hole stands between its marks. -/
structure Marked (source : Bytes) (root : Node) : Prop where
  template : ∀ n ∈ root.preorder, n.hasError = false → n.kind = .template →
    slice source n.start (n.start + 1) = encode "\x60" ∧
    slice source (n.stop - 1) n.stop = encode "\x60"
  hole : ∀ n ∈ root.preorder, n.hasError = false → n.kind = .substitution →
    slice source n.start (n.start + 2) = encode "$\x7b" ∧
    slice source (n.stop - 1) n.stop = encode "\x7d" ∧
      ∀ c ∈ n.children, n.start + 2 ≤ c.start ∧ c.stop + 1 ≤ n.stop

instance (source : Bytes) (root : Node) : Decidable (Marked source root) :=
  decidable_of_iff
    ((∀ n ∈ root.preorder, n.hasError = false → n.kind = .template →
        slice source n.start (n.start + 1) = encode "\x60" ∧
        slice source (n.stop - 1) n.stop = encode "\x60") ∧
      ∀ n ∈ root.preorder, n.hasError = false → n.kind = .substitution →
        slice source n.start (n.start + 2) = encode "$\x7b" ∧
        slice source (n.stop - 1) n.stop = encode "\x7d" ∧
          ∀ c ∈ n.children, n.start + 2 ≤ c.start ∧ c.stop + 1 ≤ n.stop)
    ⟨fun ⟨h₁, h₂⟩ => ⟨h₁, h₂⟩, fun ⟨h₁, h₂⟩ => ⟨h₁, h₂⟩⟩

structure Block.Marked (source : Bytes) (b : Block Interpolation) : Prop where
  opening : slice source b.template.start (b.template.start + 1) = encode "\x60"
  closing : slice source (b.template.stop - 1) b.template.stop = encode "\x60"
  holeOpening : ∀ i ∈ b.interpolations, slice source i.span.start (i.span.start + 2) =
    encode "$\x7b"
  holeClosing : ∀ i ∈ b.interpolations, slice source (i.span.stop - 1) i.span.stop = encode "\x7d"
  expr : ∀ i ∈ b.interpolations, i.span.start + 2 ≤ i.expr.start ∧ i.expr.stop + 1 ≤ i.span.stop

theorem scan_marked {settings : Settings} {source : Bytes} {root : Node} {file : String}
    (hroot : Style.Marked source root) {call : Call Interpolation}
    (hcall : call ∈ (scan settings source root file).calls) {b : Block Interpolation}
    (hb : b ∈ call.blocks) : b.Marked source := by
  obtain ⟨tag, value, hvalue, hsound, hread⟩ := exists_blockOf hcall hb
  obtain ⟨-, template, htag, htemplate, hparts⟩ := blockOf_ok hread
  obtain ⟨-, hkind, harguments, -⟩ := taggedTemplate?_eq_some htag
  have hin : value.Contains template :=
    (Node.contains_unwrap value).trans (Node.contains_child? harguments)
  obtain ⟨hopening, hclosing⟩ := hroot.template template (Node.mem_preorder.mpr (hvalue.trans hin))
    (Node.hasError_of_contains hin hsound) hkind
  have hhole : ∀ i ∈ b.interpolations, slice source i.span.start (i.span.start + 2) =
      encode "$\x7b" ∧ slice source (i.span.stop - 1) i.span.stop = encode "\x7d" ∧
      i.span.start + 2 ≤ i.expr.start ∧ i.expr.stop + 1 ≤ i.span.stop := by
    intro i hi
    obtain ⟨hole, hhole, expr, hexpr, hi⟩ := exists_of_mem_right (templateParts_ok hparts) hi
    obtain ⟨hmem, hsub⟩ := List.mem_filter.mp hhole
    obtain ⟨hopen, hclose, hchildren⟩ :=
      hroot.hole hole (Node.mem_preorder.mpr (hvalue.trans (hin.tail hmem)))
        (Node.hasError_of_contains (hin.tail hmem) hsound) (beq_iff_eq.mp hsub)
    have hnamed : expr ∈ hole.named := hexpr ▸ List.mem_cons_self
    rw [hi]
    exact ⟨hopen, hclose, hchildren expr (Node.named_mem hnamed)⟩
  rw [← show (Span.ofNode template).start = template.start from rfl, ← htemplate] at hopening
  rw [← show (Span.ofNode template).stop = template.stop from rfl, ← htemplate] at hclosing
  exact ⟨hopening, hclosing, fun i hi => (hhole i hi).1, fun i hi => (hhole i hi).2.1,
    fun i hi => (hhole i hi).2.2⟩

def Interpolation.lead (source : Bytes) (i : Interpolation) : Bytes :=
  slice source (i.span.start + 2) i.expr.start

def Interpolation.trail (source : Bytes) (i : Interpolation) : Bytes :=
  slice source i.expr.stop (i.span.stop - 1)

/-- Nothing but its expression stands in a hole. -/
def Interpolation.Tight (i : Interpolation) : Prop :=
  i.expr.start = i.span.start + 2 ∧ i.expr.stop + 1 = i.span.stop

instance (i : Interpolation) : Decidable i.Tight :=
  inferInstanceAs (Decidable (_ ∧ _))

end ThemedCss.Style

namespace ThemedCss.Output
open ThemedCss.Syntax ThemedCss.Style ThemedCss.Text

variable {settings : Settings} {source : Bytes} {root : Node} {filename marker : String}
  {calls : List (Call Named)}

/-- The edits make `text` of a range, and it stands in the code between what they make of the
rest. -/
def Becomes (source : Bytes) (edits : List Edit) (range : Span) (text code : Bytes) : Prop :=
  ∃ before inside after, edits = before ++ inside ++ after ∧ (∀ e ∈ before, e.stop ≤ range.start) ∧
    (∀ e ∈ inside, e.Within range) ∧ (∀ e ∈ after, (range.stop : Int) ≤ e.start) ∧
    code = splice (source.take range.start) 0 before ++ text ++ splice source range.stop after

def rangeCode (source : Bytes) (s : Span) : Option Edit → Bytes
  | none => slice source s.start s.stop
  | some e => slice source s.start e.start.toNat ++ e.text ++ slice source e.stop.toNat s.stop

/-- Ranges with at most one edit in each, and the bytes between them. -/
theorem splice_ranges {edit : Named → Option Edit} {is : List Named} {cursor stop : Nat}
    (hcursor : cursor ≤ stop)
    (hbounds : ∀ i ∈ is, cursor ≤ i.span.start ∧ i.span.start ≤ i.span.stop ∧ i.span.stop ≤ stop)
    (hordered : is.Pairwise fun i j => i.span.Before j.span)
    (hwithin : ∀ i ∈ is, ∀ e, edit i = some e → e.Within i.span) :
    splice (source.take stop) cursor (is.filterMap edit) =
      interleave (gaps source stop cursor (is.map (·.span)))
        (is.map fun i => rangeCode source i.span (edit i)) := by
  induction is generalizing cursor with
  | nil => exact drop_take_eq_slice source cursor stop
  | cons i rest ih =>
    obtain ⟨hfirst, hlater⟩ := List.pairwise_cons.mp hordered
    obtain ⟨hstart, hle, hstop⟩ := hbounds i List.mem_cons_self
    have hrest := ih hstop
      (fun j hj => ⟨hfirst j hj, (hbounds j (List.mem_cons_of_mem _ hj)).2⟩) hlater
      fun j hj => hwithin j (List.mem_cons_of_mem _ hj)
    have hbehind : ∀ e ∈ rest.filterMap edit, (i.span.stop : Int) ≤ e.start := by
      intro e he
      obtain ⟨j, hj, hje⟩ := List.mem_filterMap.mp he
      have hin := (hwithin j (List.mem_cons_of_mem _ hj) e hje).1
      have hij := hfirst j hj
      unfold Span.Before at hij
      omega
    rw [List.map_cons, List.map_cons, gaps, interleave, ← hrest]
    cases he : edit i with
    | none =>
      rw [List.filterMap_cons_none he, splice_eq_append (by omega) hbehind,
        slice_take source hstop, rangeCode, slice_append_slice source hstart hle]
    | some e =>
      obtain ⟨hestart, hele, hestop⟩ := hwithin i List.mem_cons_self e he
      have hfrom : i.span.start ≤ e.start.toNat := by omega
      have hto : e.stop.toNat ≤ i.span.stop := by omega
      rw [List.filterMap_cons_some he, splice, splice_eq_append hto hbehind,
        slice_take source hstop,
        slice_take source (by omega), ← slice_append_slice source hstart hfrom, rangeCode]
      simp only [List.append_assoc]

/-- With nothing shorter on one side, two texts with the same chunks are the same only hole by
hole. -/
theorem interleave_gaps_eq_iff {f g : Named → Bytes} {is : List Named} {cursor stop : Nat}
    (hle : ∀ i ∈ is, (f i).length ≤ (g i).length) :
    (interleave (gaps source stop cursor (is.map (·.span))) (is.map f)).length ≤
        (interleave (gaps source stop cursor (is.map (·.span))) (is.map g)).length ∧
      (interleave (gaps source stop cursor (is.map (·.span))) (is.map g) =
          interleave (gaps source stop cursor (is.map (·.span))) (is.map f) ↔
          ∀ i ∈ is, g i = f i) := by
  induction is generalizing cursor with
  | nil => simp
  | cons i rest ih =>
    obtain ⟨hlength, hiff⟩ := @ih i.span.stop fun j hj => hle j (List.mem_cons_of_mem _ hj)
    have hi := hle i List.mem_cons_self
    simp only [List.map_cons, gaps, interleave, List.append_assoc, List.length_append]
    refine ⟨by omega, ?_⟩
    rw [List.append_cancel_left_eq, List.forall_mem_cons, ← hiff]
    constructor
    · intro heq
      have hsum := congrArg List.length heq
      simp only [List.length_append] at hsum
      exact List.append_inj heq (by omega)
    · rintro ⟨hhole, hrest⟩
      rw [hhole, hrest]

/-- What stands in the code for a hole with the recorded text `text`: a static hole keeps what
stands around its expression. -/
def spaced (source : Bytes) (i : Named) (text : Bytes) : Bytes :=
  if i.label = .dynamic then text
  else
    text.take 2 ++ i.lead source ++ slice text 2 (text.length - 1) ++ i.trail source ++
      text.drop (text.length - 1)

theorem spaced_static {i : Named} (hi : i.label = .static) (inner : Bytes) :
    spaced source i (encode "$\x7b" ++ inner ++ encode "\x7d") =
      encode "$\x7b" ++ i.lead source ++ inner ++ i.trail source ++ encode "\x7d" := by
  have hopen : (encode "$\x7b").length = 2 := rfl
  have hclose : (encode "\x7d").length = 1 := rfl
  have hlength : (encode "$\x7b" ++ inner ++ encode "\x7d").length = 2 + inner.length + 1 := by
    rw [List.length_append, List.length_append, hopen, hclose]
  have hfront : (encode "$\x7b" ++ inner).length = 2 + inner.length := by
    rw [List.length_append, hopen]
  have htake : (encode "$\x7b" ++ inner ++ encode "\x7d").take 2 = encode "$\x7b" := by
    rw [List.append_assoc]
    exact List.take_left' hopen
  have hdrop : (encode "$\x7b" ++ inner ++ encode "\x7d").drop (2 + inner.length) = encode "\x7d" :=
    List.drop_left' hfront
  have hslice : slice (encode "$\x7b" ++ inner ++ encode "\x7d") 2 (2 + inner.length) = inner := by
    rw [slice, List.append_assoc, List.drop_left' hopen, Nat.add_sub_cancel_left]
    exact List.take_left' rfl
  unfold spaced
  rw [if_neg (by simp [hi]), hlength, Nat.add_sub_cancel, htake, hslice, hdrop]

/-- The recorded text of a static hole stands between its marks. -/
theorem replace_static (marker : String) {i : Named} (hi : i.label = .static) :
    ∃ inner, (replace marker i).text = encode "$\x7b" ++ inner ++ encode "\x7d" ∧
      ((replace marker i).edit = none ∧ inner = i.source ∨
        (replace marker i).edit = some ⟨i.expr.start, i.expr.stop, inner⟩) := by
  unfold replace
  rw [if_neg (by simp [hi])]
  split_ifs
  · exact ⟨_, rfl, .inl ⟨rfl, rfl⟩⟩
  · exact ⟨_, rfl, .inr rfl⟩
  · exact ⟨_, rfl, .inr rfl⟩

private theorem length_le_spaced (i : Named) :
    (replace marker i).text.length ≤ (spaced source i (replace marker i).text).length := by
  cases hi : i.label with
  | dynamic => exact Nat.le_of_eq (by rw [spaced, if_pos hi])
  | static =>
    obtain ⟨inner, htext, -⟩ := replace_static marker hi
    rw [htext, spaced_static hi]
    simp only [List.length_append]
    omega

section Block
variable {b : Block Named} {i : Named} (hi : i ∈ b.interpolations)
  (hmarked : (b.map bare).Marked source) (hlaid : (b.map bare).LaidOut)
include hi hmarked

/-- The marks of a hole, its expression and what stands around it are all that is in the hole. -/
theorem slice_hole :
    slice source i.span.start i.expr.start = encode "$\x7b" ++ i.lead source ∧
      slice source i.expr.stop i.span.stop = i.trail source ++ encode "\x7d" := by
  have hmem : i.toInterpolation ∈ (b.map bare).interpolations := List.mem_map.mpr ⟨i, hi, rfl⟩
  have hexpr := hmarked.expr _ hmem
  have hopening := hmarked.holeOpening _ hmem
  have hclosing := hmarked.holeClosing _ hmem
  constructor
  · rw [← hopening]
    exact (slice_append_slice source (by omega) hexpr.1).symm
  · rw [← hclosing]
    exact (slice_append_slice source (by omega) (by omega)).symm

include hlaid

/-- A hole becomes its recorded text, with all that stands around the expression of a static one. -/
theorem rangeCode_replace (hsource : i.source = slice source i.expr.start i.expr.stop) :
    rangeCode source i.span (replace marker i).edit =
      spaced source i (replace marker i).text := by
  have hmem : i.toInterpolation ∈ (b.map bare).interpolations := List.mem_map.mpr ⟨i, hi, rfl⟩
  obtain ⟨hlead, htrail⟩ := slice_hole hi hmarked
  have hexpr : i.expr.Within i.span := hlaid.expr _ hmem
  unfold Span.Within at hexpr
  cases hlabel : i.label with
  | dynamic =>
    have hempty : ∀ n, slice source n n = [] := fun n => by rw [slice, Nat.sub_self, List.take_zero]
    unfold replace spaced
    rw [if_pos hlabel, if_pos hlabel, rangeCode]
    simp only [Int.toNat_natCast, hempty, List.nil_append, List.append_nil]
  | static =>
    obtain ⟨inner, htext, ⟨hedit, hinner⟩ | hedit⟩ := replace_static marker hlabel
    · rw [hedit, htext, spaced_static hlabel, rangeCode, hinner, hsource,
        ← slice_append_slice source hexpr.1 (Nat.le_trans hexpr.2.1 hexpr.2.2),
        ← slice_append_slice source hexpr.2.1 hexpr.2.2, hlead, htrail]
      simp only [List.append_assoc]
    · rw [hedit, htext, spaced_static hlabel, rangeCode]
      simp only [Int.toNat_natCast, hlead, htrail, List.append_assoc]

/-- The recorded text of a hole is what stands in the code exactly if the hole is dynamic or nothing
stands around its expression. -/
theorem spaced_eq_iff (hsize : b.template.stop ≤ source.length) :
    spaced source i (replace marker i).text = (replace marker i).text ↔
      (i.label = .static → i.Tight) := by
  have hmem : i.toInterpolation ∈ (b.map bare).interpolations := List.mem_map.mpr ⟨i, hi, rfl⟩
  have hexpr : i.span.start + 2 ≤ i.expr.start ∧ i.expr.stop + 1 ≤ i.span.stop :=
    hmarked.expr _ hmem
  have hwithin : i.expr.Within i.span := hlaid.expr _ hmem
  have hhole : i.span.Within b.template := hlaid.hole _ hmem
  unfold Span.Within at hwithin hhole
  cases hlabel : i.label with
  | dynamic =>
    unfold spaced
    rw [if_pos hlabel]
    exact ⟨fun _ hstatic => (nomatch hstatic), fun _ => rfl⟩
  | static =>
    obtain ⟨inner, htext, -⟩ := replace_static marker hlabel
    have hlead : (i.lead source).length = i.expr.start - (i.span.start + 2) :=
      length_slice source (by omega)
    have htrail : (i.trail source).length = i.span.stop - 1 - i.expr.stop :=
      length_slice source (by omega)
    rw [htext, spaced_static hlabel]
    constructor
    · intro heq _
      have hsum := congrArg List.length heq
      simp only [List.length_append] at hsum
      exact ⟨by omega, by omega⟩
    · intro h
      obtain ⟨hstart, hstop⟩ := h rfl
      have hnone : i.lead source = [] := List.eq_nil_of_length_eq_zero (by omega)
      have hnone' : i.trail source = [] := List.eq_nil_of_length_eq_zero (by omega)
      rw [hnone, hnone', List.append_nil, List.append_nil]

end Block

/-- The edits of a definition before, in and behind one of its templates. -/
theorem callEdits_split {call : Call Named} (hlaid : (unlabelled call).LaidOut) {b : Block Named}
    (hb : b ∈ call.blocks) (marker : String) :
    ∃ above below, callEdits marker call = above ++
        (b.interpolations.filterMap fun i => (replace marker i).edit) ++ below ∧
      (∀ e ∈ above, e.stop ≤ b.template.start) ∧
      ∀ e ∈ below, (b.template.stop : Int) ≤ e.start := by
  have hholes : ∀ c ∈ call.blocks, ∀ e ∈ c.interpolations.filterMap fun i =>
      (replace marker i).edit, e.Within c.template := by
    intro c hc e he
    obtain ⟨i, hi, he⟩ := List.mem_filterMap.mp he
    exact edit_within_template hlaid hc hi he
  have hbehind : call.callee.Before b.template := template_behind hlaid hb
  have horder := templates_pairwise hlaid
  obtain ⟨first, rest, hblocks⟩ := List.append_of_mem hb
  rw [hblocks] at horder hholes
  obtain ⟨-, hrest, hfirst⟩ := List.pairwise_append.mp horder
  refine ⟨⟨call.callee.start, call.callee.stop, encode runtimeFactory⟩ :: first.flatMap fun c =>
      c.interpolations.filterMap fun i => (replace marker i).edit,
    rest.flatMap fun c => c.interpolations.filterMap fun i => (replace marker i).edit,
    ?_, fun e he => ?_, fun e he => ?_⟩
  · rw [callEdits_eq, hblocks, List.flatMap_append, List.flatMap_cons]
    simp only [List.append_assoc, List.cons_append]
  · rcases List.mem_cons.mp he with rfl | he
    · exact Int.ofNat_le.mpr hbehind
    · obtain ⟨c, hc, he⟩ := List.mem_flatMap.mp he
      have hin := hholes c (List.mem_append_left _ hc) e he
      exact Int.le_trans hin.2.2 (Int.ofNat_le.mpr (hfirst c hc b List.mem_cons_self))
  · obtain ⟨c, hc, he⟩ := List.mem_flatMap.mp he
    have hin := hholes c (List.mem_append_right _ (List.mem_cons_of_mem _ hc)) e he
    exact Int.le_trans (Int.ofNat_le.mpr ((List.pairwise_cons.mp hrest).1 c hc)) hin.1

/-- The edits of a module before, in and behind one of its definitions. -/
theorem orderedEdits_split (htree : TreeOf source root)
    (hcalls : Labels settings source root filename calls) {call : Call Named}
    (hcall : call ∈ calls) :
    ∃ earlier later, orderedEdits settings root calls =
      earlier ++ callEdits settings.marker call ++ later ∧
      (∀ e ∈ earlier, e.stop ≤ call.span.start) ∧
      ∀ e ∈ later, (call.span.stop : Int) ≤ e.start := by
  have hwithin : ∀ c ∈ calls, ∀ e ∈ callEdits settings.marker c, e.Within c.span :=
    fun c hc e he => callEdits_within (laidOut_of_mem htree hcalls hc).1 he
  have horder := calls_pairwise htree hcalls
  obtain ⟨first, rest, hsplit⟩ := List.append_of_mem hcall
  rw [hsplit] at horder
  obtain ⟨-, hrest, hfirst⟩ := List.pairwise_append.mp horder
  refine ⟨prologueEdits settings root calls ++ first.flatMap (callEdits settings.marker),
    rest.flatMap (callEdits settings.marker), ?_, fun e he => ?_, fun e he => ?_⟩
  · have hall : calls.flatMap (callEdits settings.marker) =
        first.flatMap (callEdits settings.marker) ++
        callEdits settings.marker call ++ rest.flatMap (callEdits settings.marker) := by
      rw [hsplit, List.flatMap_append, List.flatMap_cons, List.append_assoc]
    rw [orderedEdits, hall]
    simp only [List.append_assoc]
  · rcases List.mem_append.mp he with he | he
    · exact (prologueEdits_before he hcall).2
    · obtain ⟨c, hc, he⟩ := List.mem_flatMap.mp he
      have hin := hwithin c (hsplit ▸ List.mem_append_left _ hc) e he
      exact Int.le_trans hin.2.2 (Int.ofNat_le.mpr (hfirst c hc call List.mem_cons_self))
  · obtain ⟨c, hc, he⟩ := List.mem_flatMap.mp he
    have hin := hwithin c (hsplit ▸ List.mem_append_right _ (List.mem_cons_of_mem _ hc)) e he
    exact Int.le_trans (Int.ofNat_le.mpr ((List.pairwise_cons.mp hrest).1 c hc)) hin.1

section Module
variable (htree : TreeOf source root) (hmarks : Delimited root) (hmarked : Marked source root)
  (hcalls : Labels settings source root filename calls) {call : Call Named} (hcall : call ∈ calls)
  {b : Block Named} (hb : b ∈ call.blocks)
include htree hmarks hcalls hcall hb

/-- The holes of a template lie between its quotes. -/
theorem hole_between_quotes {i : Named} (hi : i ∈ b.interpolations) :
    b.template.start + 1 ≤ i.span.start ∧ i.span.start ≤ i.span.stop ∧
      i.span.stop ≤ b.template.stop - 1 := by
  have hlaid := (laidOut_of_mem htree hcalls hcall).1
  have hdelim := scan_delimited hmarks (unlabelled_mem hcalls hcall)
  have hmem : i.toInterpolation ∈ (b.map bare).interpolations := List.mem_map.mpr ⟨i, hi, rfl⟩
  have hhole : b.template.start < i.span.start ∧ i.span.stop < b.template.stop :=
    hdelim.hole _ (List.mem_map.mpr ⟨b, hb, rfl⟩) _ hmem
  have hin := hole_within_template hlaid hb hi
  unfold Span.Within at hin
  omega

include hmarked

/-- Between the quotes of a template stand its chunks and what its holes become. -/
theorem splice_template :
    splice (source.take b.template.stop) b.template.start
        (b.interpolations.filterMap fun i => (replace settings.marker i).edit) =
      encode "\x60" ++ interleave b.chunks (b.interpolations.map fun i =>
        spaced source i (replace settings.marker i).text) ++ encode "\x60" := by
  have hlaid := (laidOut_of_mem htree hcalls hcall).1
  have hmem : b.map bare ∈ (unlabelled call).blocks := List.mem_map.mpr ⟨b, hb, rfl⟩
  have hquotes : b.template.start + 2 ≤ b.template.stop :=
    (scan_delimited hmarks (unlabelled_mem hcalls hcall)).template _ hmem
  have hblock := scan_marked hmarked (unlabelled_mem hcalls hcall) hmem
  have hbounds := fun i hi => hole_between_quotes htree hmarks hcalls hcall hb (i := i) hi
  have hwithin : ∀ i ∈ b.interpolations, ∀ e, (replace settings.marker i).edit = some e →
      e.Within i.span := fun i hi e he => edit_within_span hlaid hb hi he
  have hinside : ∀ e ∈ b.interpolations.filterMap fun i => (replace settings.marker i).edit,
      (b.template.start + 1 : Nat) ≤ e.start ∧ e.start ≤ e.stop ∧
      e.stop ≤ (b.template.stop - 1 : Nat) := by
    intro e he
    obtain ⟨i, hi, he⟩ := List.mem_filterMap.mp he
    have hin := hwithin i hi e he
    have hhole := hbounds i hi
    unfold Edit.Within at hin
    omega
  -- the quotes are copied, since all edits lie between them
  have hclose : ∀ edits : List Edit,
      (∀ e ∈ edits, e.start ≤ e.stop ∧ e.stop ≤ (b.template.stop - 1 : Nat)) →
      splice (source.take b.template.stop) (b.template.start + 1) edits =
        splice (source.take (b.template.stop - 1)) (b.template.start + 1) edits ++
          slice source (b.template.stop - 1) b.template.stop := by
    intro edits hedits
    have hsplit := @splice_append (source.take b.template.stop) edits [] _ _
      (show b.template.start + 1 ≤ b.template.stop - 1 by omega) hedits (by simp)
    rw [List.append_nil, List.take_take, Nat.min_eq_left (Nat.sub_le _ 1), splice,
      drop_take_eq_slice] at hsplit
    exact hsplit
  rw [splice_eq_append (Nat.le_add_right _ 1) fun e he => (hinside e he).1,
    slice_take source (by omega), hclose _ fun e he => (hinside e he).2,
    splice_ranges (by omega) hbounds (holes_pairwise hlaid hb) hwithin,
    ← chunks_eq_gaps hcalls hcall hb]
  have hholes : (b.interpolations.map fun i =>
        rangeCode source i.span (replace settings.marker i).edit) =
      b.interpolations.map fun i => spaced source i (replace settings.marker i).text := by
    refine List.map_congr_left fun i hi => ?_
    have hsource := (scan_reads_source (unlabelled_mem hcalls hcall) hmem).2 i.toInterpolation
      (List.mem_map.mpr ⟨i, hi, rfl⟩)
    exact rangeCode_replace hi hblock (laidOut_interpolation hlaid hb) hsource
  rw [hholes, show slice source b.template.start (b.template.start + 1) =
    encode "\x60" from hblock.opening,
    show slice source (b.template.stop - 1) b.template.stop =
      encode "\x60" from hblock.closing, List.append_assoc]

/-- A template becomes its chunks and what its holes become, in quotes. -/
theorem template_becomes :
    Becomes source (orderedEdits settings root calls) b.template
      (encode "\x60" ++ interleave b.chunks (b.interpolations.map fun i =>
        spaced source i (replace settings.marker i).text) ++ encode "\x60")
      (splice source 0 (orderedEdits settings root calls)) := by
  have hlaid := (laidOut_of_mem htree hcalls hcall).1
  have hin : b.template.Within call.span := template_within hlaid hb
  obtain ⟨earlier, later, hsplit, hearlier, hlater⟩ := orderedEdits_split htree hcalls hcall
  obtain ⟨above, below, hholes, habove, hbelow⟩ := callEdits_split hlaid hb settings.marker
  have hedits : orderedEdits settings root calls = (earlier ++ above) ++
      (b.interpolations.filterMap fun i => (replace settings.marker i).edit) ++
      (below ++ later) := by
    rw [hsplit, hholes]
    simp only [List.append_assoc]
  have hfits : ∀ e ∈ orderedEdits settings root calls, e.Fits source.length :=
    fun e he => orderedEdits_fit htree hcalls he
  have hinside : ∀ e ∈ b.interpolations.filterMap fun i => (replace settings.marker i).edit,
      e.Within b.template := by
    intro e he
    obtain ⟨i, hi, he⟩ := List.mem_filterMap.mp he
    exact edit_within_template hlaid hb hi he
  unfold Span.Within at hin
  have hbefore : ∀ e ∈ earlier ++ above, e.stop ≤ b.template.start := by
    intro e he
    rcases List.mem_append.mp he with he | he
    · have hstop := hearlier e he
      omega
    · exact habove e he
  have hafter : ∀ e ∈ below ++ later, (b.template.stop : Int) ≤ e.start := by
    intro e he
    rcases List.mem_append.mp he with he | he
    · exact hbelow e he
    · have hstart := hlater e he
      omega
  refine ⟨_, _, _, hedits, hbefore, hinside, hafter, ?_⟩
  have hrest : ∀ e ∈ (b.interpolations.filterMap fun i =>
      (replace settings.marker i).edit) ++ (below ++ later), (b.template.start :
        Int) ≤ e.start := by
    intro e he
    rcases List.mem_append.mp he with he | he
    · exact (hinside e he).1
    · have hstart := hafter e he
      omega
  rw [hedits] at hfits ⊢
  rw [List.append_assoc (earlier ++ above), splice_append (Nat.zero_le _)
      (fun e he => ⟨(hfits e (List.mem_append_left _ (List.mem_append_left _ he))).le,
        hbefore e he⟩) hrest,
    splice_append hin.2.1 (fun e he => (hinside e he).2) hafter,
    splice_template htree hmarks hmarked hcalls hcall hb, ← List.append_assoc]

end Module

/-- The skeleton of a definition has one text for each of its templates, under the template's
name. -/
theorem skeleton_hookOf (hcalls : Labels settings source root filename calls) {call : Call Named}
    (hcall : call ∈ calls) (marker : String) :
    (hookOf marker call).skeleton.keys = call.blocks.map (·.name) ∧
      ∀ b ∈ call.blocks, (hookOf marker call).skeleton.get? b.name = some (interleave b.chunks
        (b.interpolations.map fun i => (replace marker i).text)) := by
  have hnames : (call.blocks.map (·.name)).Nodup := by
    obtain ⟨chosen, -, hall⟩ := scan_calls settings source root filename
    obtain ⟨site, -, hsite⟩ := exists_of_mem_right hall (unlabelled_mem hcalls hcall)
    obtain ⟨-, -, object, -, -, -, -, -, -, -, hblocks⟩ := callOf_ok hsite
    simpa [unlabelled, Call.map, Block.map, Function.comp_def] using (blocksOf_names hblocks).1
  obtain ⟨entries, hentries⟩ :
      ∃ entries : Table String Bytes, entries =
        call.blocks.map fun b => (b.name, interleave b.chunks
      (b.interpolations.map fun i => (replace marker i).text)) := ⟨_, rfl⟩
  have hkeys : entries.keys = call.blocks.map (·.name) := by
    rw [hentries, Table.keys, List.map_map]
    rfl
  have hskeleton : (hookOf marker call).skeleton = entries := by
    rw [hookOf_eq, ← hentries]
    exact Table.insertAll_eq_append (by rwa [List.nil_append, hkeys])
  rw [hskeleton, hkeys]
  refine ⟨rfl, fun b hb => Table.get?_eq_some_of_mem (by rwa [hkeys]) ?_⟩
  rw [hentries]
  exact List.mem_map.mpr ⟨b, hb, rfl⟩

/-- The skeleton of a hook has one text for each template of its definition. In the code, the
template becomes that text in quotes, with all that stands in the static holes around their
expressions added. So the skeleton is what stands in the code exactly if nothing stands there. -/
theorem skeleton_between_quotes (settings : Settings) (source : Bytes) (root : Node)
    (filename : String) (calls : List (Call Named)) (diagnostics : List Diagnostic)
    (htree : TreeOf source root) (hmarks : Delimited root) (hmarked : Marked source root)
    (hcalls : Labels settings source root filename calls) :
    ∃ m, emit settings source root filename calls diagnostics = .ok m ∧
      List.Forall₂ (fun call hook => hook.skeleton.keys = call.blocks.map (·.name) ∧
        ∀ b ∈ call.blocks, ∃ skeleton inner, hook.skeleton.get? b.name = some skeleton ∧
          Becomes source (orderedEdits settings root calls) b.template
            (encode "\x60" ++ inner ++ encode "\x60") m.code ∧
          skeleton = interleave b.chunks (b.interpolations.map fun i =>
            (replace settings.marker i).text) ∧
          inner = interleave b.chunks (b.interpolations.map fun i =>
            spaced source i (replace settings.marker i).text) ∧
          (inner = skeleton ↔ ∀ i ∈ b.interpolations, i.label = .static → i.Tight)) calls
            m.hooks := by
  obtain ⟨m, hm, hcode, hhooks⟩ := emit_code htree hcalls diagnostics
  refine ⟨m, hm, ?_⟩
  rw [hhooks, List.forall₂_map_right_iff, List.forall₂_same]
  intro call hcall
  obtain ⟨hkeys, hget⟩ := skeleton_hookOf hcalls hcall settings.marker
  refine ⟨hkeys, fun b hb => ⟨_, _, hget b hb, ?_, rfl, rfl, ?_⟩⟩
  · rw [hcode, sortedEdits_eq htree hmarks hcalls]
    exact template_becomes htree hmarks hmarked hcalls hcall hb
  · have hlaid := (laidOut_of_mem htree hcalls hcall).1
    have hblock := scan_marked hmarked (unlabelled_mem hcalls hcall) (List.mem_map.mpr ⟨b, hb, rfl⟩)
    have hsize : b.template.stop ≤ source.length :=
      Nat.le_trans (template_within hlaid hb).2.2 (call_stop_le htree hcalls hcall)
    rw [chunks_eq_gaps hcalls hcall hb, (interleave_gaps_eq_iff fun i _ => length_le_spaced i).2]
    exact forall₂_congr fun i hi => spaced_eq_iff hi hblock (laidOut_interpolation hlaid hb) hsize

/-- The definitions of a module with one hole, or more if `expr` closes it, where only the first
hole is static. -/
def firstStatic (expr : String) : List (Call Named) :=
  ((scan oneHoleSettings (encode (oneHole expr)) (oneHoleTree expr) "a.js").calls.map
    (Call.map fun i => { i with label := if i.index = 0 then .static else .dynamic })).map
      (Call.named (fileId "a.js"))

theorem labels_firstStatic (expr : String) :
    Labels oneHoleSettings (encode (oneHole expr)) (oneHoleTree expr) "a.js"
      (firstStatic expr) := by
  refine labels_named ?_
  simp [Call.map, Block.map, Function.comp_def]

theorem skeleton_between_quotes_two_holes :
    let source := encode (oneHole "1\x7d$\x7b p ")
    let root := oneHoleTree "1\x7d$\x7b p "
    let calls := firstStatic "1\x7d$\x7b p "
    TreeOf source root ∧ Delimited root ∧ Marked source root ∧
      Labels oneHoleSettings source root "a.js" calls ∧
      ∃ m skeleton, emit oneHoleSettings source root "a.js" calls [] = .ok m ∧
        m.hooks.map (·.skeleton.get? "a") = [some skeleton] ∧
        Becomes source (orderedEdits oneHoleSettings root calls) ⟨39, 53⟩
          (encode "\x60" ++ skeleton ++ encode "\x60") m.code := by
  intro source root calls
  have hrun : TreeOf source root ∧ Delimited root ∧ Marked source root ∧ calls.length = 1 ∧
      ∀ call ∈ calls, ∃ b ∈ call.blocks, b.name = "a" ∧ b.template = ⟨39, 53⟩ ∧
        ∀ i ∈ b.interpolations, i.label = .static → i.Tight := by
    decide +kernel
  obtain ⟨htree, hmarks, hmarked, hone, hblock⟩ := hrun
  have hlabels : Labels oneHoleSettings source root "a.js" calls := labels_firstStatic _
  obtain ⟨m, hm, hall⟩ :=
    skeleton_between_quotes oneHoleSettings source root "a.js" calls [] htree hmarks hmarked hlabels
  obtain ⟨call, hcalls⟩ := List.length_eq_one_iff.mp hone
  obtain ⟨b, hb, hname, htemplate, htight⟩ := hblock call (hcalls ▸ List.mem_cons_self)
  rw [hcalls] at hall
  obtain ⟨hook, rest, ⟨-, hhook⟩, hrest, hhooks⟩ := List.forall₂_cons_left_iff.mp hall
  obtain ⟨skeleton, inner, hget, hbecomes, -, -, hiff⟩ := hhook b hb
  rw [List.forall₂_nil_left_iff.mp hrest] at hhooks
  rw [hiff.mpr htight, htemplate, ← hcalls] at hbecomes
  refine ⟨htree, hmarks, hmarked, hlabels, m, skeleton, hm, ?_, hbecomes⟩
  rw [hhooks, ← hname, List.map_singleton, hget]

/-- A blank in a static hole stands in the code and not in the skeleton. -/
theorem skeleton_drops_blanks :
    let source := encode (oneHole " 1 ")
    let calls := firstStatic " 1 "
    TreeOf source (oneHoleTree " 1 ") ∧ Delimited (oneHoleTree " 1 ") ∧
      Marked source (oneHoleTree " 1 ") ∧
      ∃ m, emit oneHoleSettings source (oneHoleTree " 1 ") "a.js" calls [] = .ok m ∧
        m.code =
          encode
            "let m,__flairCreateStyles;__flairCreateStyles(()=>(\x7ba:css\x60x$\x7b m(1) \x7dy\x60\x7d))" ∧
        m.hooks.map (·.skeleton) = [[("a", encode "x$\x7bm(1)\x7dy")]] := by
  intro source calls
  have hrun : TreeOf source (oneHoleTree " 1 ") ∧ Delimited (oneHoleTree " 1 ") ∧
      Marked source (oneHoleTree " 1 ") ∧
      splice source 0 (orderedEdits oneHoleSettings (oneHoleTree " 1 ") calls) =
        encode
          "let m,__flairCreateStyles;__flairCreateStyles(()=>(\x7ba:css\x60x$\x7b m(1) \x7dy\x60\x7d))" ∧
      calls.map (fun call => (hookOf "m" call).skeleton) = [[("a", encode "x$\x7bm(1)\x7dy")]] := by
    decide +kernel
  obtain ⟨htree, hmarks, hmarked, hspliced, hskeletons⟩ := hrun
  have hlabels : Labels oneHoleSettings source (oneHoleTree " 1 ") "a.js" calls :=
    labels_firstStatic _
  obtain ⟨m, hm, hcode, hhooks⟩ := emit_code htree hlabels []
  refine ⟨htree, hmarks, hmarked, m, hm, ?_, ?_⟩
  · rw [hcode, sortedEdits_eq htree hmarks hlabels, hspliced]
  · rw [hhooks, List.map_map]
    exact hskeletons

end ThemedCss.Output
