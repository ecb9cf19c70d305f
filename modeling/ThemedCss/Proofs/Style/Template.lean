import Mathlib.Data.Set.List
import ThemedCss.Proofs.Output.Skeleton
import ThemedCss.Proofs.Text.Boundary

/-! Nothing is lost when a template is taken apart: chunks and holes, put together, are the text
between its quotes. -/
namespace ThemedCss.Style
open ThemedCss.Output ThemedCss.Syntax ThemedCss.Text

variable {source : Bytes} {stop cursor : Nat} {spans : List Span}

/-- No node of the tree begins or ends inside a character. -/
def Aligned (source : Bytes) (root : Node) : Prop :=
  ∀ n ∈ root.preorder, Boundary source n.start ∧ Boundary source n.stop

instance (source : Bytes) (root : Node) : Decidable (Aligned source root) :=
  inferInstanceAs (Decidable (∀ n ∈ root.preorder, _))

/-- The ranges lie one after the other between `cursor` and `stop`. -/
def InOrder (stop : Nat) : Nat → List Span → Prop
  | cursor, [] => cursor ≤ stop
  | cursor, s :: rest => cursor ≤ s.start ∧ s.start ≤ s.stop ∧ InOrder stop s.stop rest

private theorem inOrder_of_pairwise (hcursor : cursor ≤ stop)
    (hin : ∀ s ∈ spans, cursor ≤ s.start ∧ s.start ≤ s.stop ∧ s.stop ≤ stop)
    (hpair : spans.Pairwise Span.Before) : InOrder stop cursor spans := by
  induction spans generalizing cursor with
  | nil => exact hcursor
  | cons s rest ih =>
    obtain ⟨hfirst, hrest⟩ := List.pairwise_cons.mp hpair
    obtain ⟨hstart, hle, hstop⟩ := hin s List.mem_cons_self
    refine ⟨hstart, hle, ih hstop (fun t ht => ⟨hfirst t ht, ?_⟩) hrest⟩
    exact (hin t (List.mem_cons_of_mem _ ht)).2

theorem InOrder.le (h : InOrder stop cursor spans) : cursor ≤ stop := by
  induction spans generalizing cursor with
  | nil => exact h
  | cons s rest ih =>
    obtain ⟨hstart, hle, hrest⟩ := h
    have hstop := ih hrest
    omega

private theorem length_gaps (source : Bytes) (stop cursor : Nat) (spans : List Span) :
    (gaps source stop cursor spans).length = spans.length + 1 := by
  induction spans generalizing cursor with
  | nil => rfl
  | cons s rest ih => rw [gaps, List.length_cons, ih, List.length_cons]

/-- Ranges and the bytes between them. -/
theorem interleave_gaps (h : InOrder stop cursor spans) :
    interleave (gaps source stop cursor spans) (spans.map fun s => slice source s.start s.stop) =
      slice source cursor stop := by
  induction spans generalizing cursor with
  | nil => rfl
  | cons s rest ih =>
    obtain ⟨hstart, hle, hrest⟩ := h
    rw [gaps, List.map_cons, interleave, ih hrest, slice_append_slice source hstart hle,
      slice_append_slice source (hstart.trans hle) hrest.le]

/-- What stands between ranges that cut no character is text. -/
theorem exists_text_of_mem_gaps (h : InOrder stop cursor spans) (hcursor : Boundary source cursor)
    (hstop : Boundary source stop)
    (hspans : ∀ s ∈ spans, Boundary source s.start ∧ Boundary source s.stop) :
    ∀ chunk ∈ gaps source stop cursor spans, ∃ t, encode t = chunk := by
  induction spans generalizing cursor with
  | nil =>
    intro chunk hchunk
    obtain rfl := List.mem_singleton.mp hchunk
    obtain ⟨t, ht⟩ := hcursor.exists_slice hstop h
    exact ⟨t, ht.symm⟩
  | cons s rest ih =>
    obtain ⟨hstart, -, hrest⟩ := h
    obtain ⟨hs, hlater⟩ := List.forall_mem_cons.mp hspans
    intro chunk hchunk
    rcases List.mem_cons.mp hchunk with rfl | hchunk
    · obtain ⟨t, ht⟩ := hcursor.exists_slice hs.1 hstart
      exact ⟨t, ht.symm⟩
    · exact ih hrest hs.2 hlater chunk hchunk

/-- Texts between chunks, as `interleave` for bytes. -/
def joined : List String → List String → String
  | chunk :: chunks, text :: texts => chunk ++ text ++ joined chunks texts
  | chunk :: _, [] => chunk
  | [], _ => ""

private theorem interleave_encode (chunks texts : List String) :
    interleave (chunks.map encode) (texts.map encode) = encode (joined chunks texts) := by
  fun_induction joined chunks texts with
  | case1 chunk chunks text texts ih => simp only [List.map_cons, interleave, encode_append, ih]
  | case2 chunk => rfl
  | case3 => rfl

def Interpolation.hole (source : Bytes) (i : Interpolation) : Bytes :=
  slice source i.span.start i.span.stop

theorem Block.Marked.hole_eq {b : Block Interpolation} (h : b.Marked source) {i : Interpolation}
    (hi : i ∈ b.interpolations) (hsource : i.source = slice source i.expr.start i.expr.stop)
    (hexpr : i.expr.start ≤ i.expr.stop) :
    i.hole source = encode "$\x7b" ++ i.lead source ++ i.source ++ i.trail source ++
      encode "\x7d" := by
  obtain ⟨hlead, htrail⟩ := h.expr i hi
  rw [← h.holeOpening i hi, ← h.holeClosing i hi, hsource, Interpolation.lead, Interpolation.trail,
    slice_append_slice source (by omega) hlead, slice_append_slice source (by omega) hexpr,
    slice_append_slice source (by omega) (by omega),
    slice_append_slice source (by omega) (by omega)]
  rfl

section Scan
variable {settings : Settings} {root : Node} {file : String} {call : Call Interpolation}
  {b : Block Interpolation}

/-- The ranges of a block that was read cut no character. -/
theorem scan_aligned (hroot : Aligned source root)
    (hcall : call ∈ (scan settings source root file).calls) (hb : b ∈ call.blocks) :
    Boundary source b.template.start ∧ Boundary source b.template.stop ∧
      ∀ i ∈ b.interpolations, (Boundary source i.span.start ∧ Boundary source i.span.stop) ∧
        Boundary source i.expr.start ∧ Boundary source i.expr.stop := by
  obtain ⟨tag, value, hvalue, -, hread⟩ := exists_blockOf hcall hb
  obtain ⟨-, template, htag, htemplate, hparts⟩ := blockOf_ok hread
  have hin : root.Contains template :=
    (hvalue.trans (Node.contains_unwrap value)).trans
      (Node.contains_child? (taggedTemplate?_eq_some htag).2.2.1)
  have hnode : ∀ {n : Node}, root.Contains n → Boundary source n.start ∧ Boundary source n.stop :=
    fun hn => hroot _ (Node.mem_preorder.mpr hn)
  rw [htemplate]
  refine ⟨(hnode hin).1, (hnode hin).2, fun i hi => ?_⟩
  obtain ⟨hole, hhole, expr, hexpr, hi⟩ := exists_of_mem_right (templateParts_ok hparts) hi
  have hhole := hin.tail (List.mem_filter.mp hhole).1
  have hexpr : root.Contains expr := hhole.trans (Node.contains_named (hexpr ▸ List.mem_cons_self))
  rw [hi]
  exact ⟨hnode hhole, hnode hexpr⟩

/-- The holes of a block lie one after the other between its quotes. -/
theorem scan_inOrder (htree : TreeOf source root) (hmarks : Delimited root)
    (hcall : call ∈ (scan settings source root file).calls) (hb : b ∈ call.blocks) :
    InOrder (b.template.stop - 1) (b.template.start + 1) (b.interpolations.map (·.span)) := by
  have hlaid :=
    ((scan_laidOut settings source file htree.nested htree.calleeFirst).2 call hcall).1.block b hb
  have hdelimited := scan_delimited hmarks hcall
  have hquotes := hdelimited.template b hb
  refine inOrder_of_pairwise (by omega) (fun s hs => ?_) (List.pairwise_map.mpr hlaid.holes)
  obtain ⟨i, hi, rfl⟩ := List.mem_map.mp hs
  have hin := hdelimited.hole b hb i hi
  have hle := (hlaid.hole i hi).2.1
  omega

private theorem interleave_holes (htree : TreeOf source root) (hmarks : Delimited root)
    (hcall : call ∈ (scan settings source root file).calls) (hb : b ∈ call.blocks) :
    interleave b.chunks (b.interpolations.map (·.hole source)) =
      slice source (b.template.start + 1) (b.template.stop - 1) := by
  have hholes : b.interpolations.map (·.hole source) =
      (b.interpolations.map (·.span)).map fun s => slice source s.start s.stop := by
    rw [List.map_map]
    rfl
  rw [(scan_reads_source hcall hb).1, hholes, interleave_gaps (scan_inOrder htree hmarks hcall hb)]

/-- Chunks and holes are texts. -/
theorem exists_texts (htree : TreeOf source root) (hmarks : Delimited root)
    (hmarked : Marked source root) (htext : Aligned source root)
    (hcall : call ∈ (scan settings source root file).calls) (hb : b ∈ call.blocks) :
    ∃ chunks holes : List String, chunks.map encode = b.chunks ∧
      holes.map encode = b.interpolations.map (·.hole source) := by
  obtain ⟨hstart, hstop, hcuts⟩ := scan_aligned htext hcall hb
  have hsigns := scan_marked hmarked hcall hb
  have hfront : Boundary source (b.template.start + 1) := hstart.add "\x60" hsigns.opening
  have hback : Boundary source (b.template.stop - 1) := hstop.sub_one (by decide) hsigns.closing
  obtain ⟨chunks, hchunks⟩ : b.chunks ∈ Set.range (List.map encode) := by
    rw [Set.range_list_map, (scan_reads_source hcall hb).1]
    refine exists_text_of_mem_gaps (scan_inOrder htree hmarks hcall hb) hfront hback fun s hs => ?_
    obtain ⟨i, hi, rfl⟩ := List.mem_map.mp hs
    exact (hcuts i hi).1
  obtain ⟨holes, hholes⟩ : b.interpolations.map (·.hole source) ∈ Set.range (List.map encode) := by
    rw [Set.range_list_map]
    intro hole hhole
    obtain ⟨i, hi, rfl⟩ := List.mem_map.mp hhole
    obtain ⟨⟨hs, ht⟩, -⟩ := hcuts i hi
    have hlaid :=
      ((scan_laidOut settings source file htree.nested htree.calleeFirst).2 call hcall).1.block b hb
    obtain ⟨t, ht⟩ := hs.exists_slice ht (hlaid.hole i hi).2.1
    exact ⟨t, ht.symm⟩
  exact ⟨chunks, holes, hchunks, hholes⟩

end Scan

/-- A template is taken apart without loss: there is one chunk more than interpolations,
interpolations are numbered from zero, each hole is an expression with blanks and marks around it,
and chunks and holes in turn are what stands between the quotes. All of these are texts: no
character is cut. -/
theorem template_taken_apart (settings : Settings) (source : Bytes) (root : Node) (file : String)
    (htree : TreeOf source root) (hmarks : Delimited root) (hmarked : Marked source root)
    (htext : Aligned source root) :
    ∀ call ∈ (scan settings source root file).calls, ∀ b ∈ call.blocks,
      b.chunks.length = b.interpolations.length + 1 ∧
      (∀ k (i : Interpolation), b.interpolations[k]? = some i → i.index = k) ∧
      (∀ i ∈ b.interpolations, i.expr.Within i.span ∧
        i.source = slice source i.expr.start i.expr.stop ∧
        i.hole source = encode "$\x7b" ++ i.lead source ++ i.source ++ i.trail source ++
          encode "\x7d" ∧
        ∃ t, i.source = encode t) ∧
      slice source b.template.start b.template.stop =
        encode "\x60" ++ interleave b.chunks (b.interpolations.map (·.hole source)) ++
          encode "\x60" ∧
      ∃ chunks holes : List String, b.chunks = chunks.map encode ∧
        b.interpolations.map (·.hole source) = holes.map encode ∧
        slice source (b.template.start + 1) (b.template.stop - 1) =
          encode (joined chunks holes) := by
  intro call hcall b hb
  obtain ⟨hchunks, hsources⟩ := scan_reads_source hcall hb
  have hlaid :=
    ((scan_laidOut settings source file htree.nested htree.calleeFirst).2 call hcall).1.block b hb
  have hquotes := (scan_delimited hmarks hcall).template b hb
  have hsigns := scan_marked hmarked hcall hb
  have hinner := interleave_holes htree hmarks hcall hb
  refine ⟨?_, fun k i hi => ?_, fun i hi => ⟨hlaid.expr i hi, hsources i hi, ?_, ?_⟩, ?_, ?_⟩
  · rw [hchunks, length_gaps, List.length_map]
  · obtain ⟨tag, value, -, -, hread⟩ := exists_blockOf hcall hb
    obtain ⟨-, template, -, -, hparts⟩ := blockOf_ok hread
    simpa using templateParts_index hparts hi
  · exact hsigns.hole_eq hi (hsources i hi) (hlaid.expr i hi).2.1
  · obtain ⟨-, hs, ht⟩ := (scan_aligned htext hcall hb).2.2 i hi
    rw [hsources i hi]
    exact hs.exists_slice ht (hlaid.expr i hi).2.1
  · calc slice source b.template.start b.template.stop
        = slice source b.template.start (b.template.start + 1) ++
            slice source (b.template.start + 1) (b.template.stop - 1) ++
              slice source (b.template.stop - 1) b.template.stop := by
          rw [slice_append_slice source (by omega) (by omega),
            slice_append_slice source (by omega) (by omega)]
      _ = _ := by rw [hsigns.opening, hsigns.closing, hinner]
  · obtain ⟨chunks, holes, hchunkTexts, hholeTexts⟩ :=
      exists_texts htree hmarks hmarked htext hcall hb
    refine ⟨chunks, holes, hchunkTexts.symm, hholeTexts.symm, ?_⟩
    rw [← hinner, ← hchunkTexts, ← hholeTexts, interleave_encode]

/-- A template with a character of several bytes, a template in a hole, and a hole with blanks right
behind it. -/
def nestedTemplate : String :=
  "f(()=>(\x7ba:css\x60é$\x7b\x60$\x7b1\x7d\x60\x7d$\x7b p \x7d\x60\x7d))"

theorem template_taken_apart_nested :
    let settings : Settings := { Settings.ofTheme "t" with factory := "f" }
    let source := encode nestedTemplate
    let root := parse .script nestedTemplate.toList
    let calls := (scan settings source root "a.js").calls
    (TreeOf source root ∧ Delimited root ∧ Marked source root ∧ Aligned source root) ∧
      calls.map (·.blocks.map fun b => (b.chunks, b.interpolations.map (·.hole source))) =
        [[(["é", "", ""].map encode, ["$\x7b\x60$\x7b1\x7d\x60\x7d", "$\x7b p \x7d"].map encode)]] ∧
      ∀ call ∈ calls, ∀ b ∈ call.blocks, slice source b.template.start b.template.stop =
        encode "\x60" ++ interleave b.chunks (b.interpolations.map (·.hole source)) ++
          encode "\x60" := by
  intro settings source root calls
  have hrun : (TreeOf source root ∧ Delimited root ∧ Marked source root ∧ Aligned source root) ∧
      calls.map (·.blocks.map fun b => (b.chunks, b.interpolations.map (·.hole source))) =
        [[(["é", "", ""].map encode,
          ["$\x7b\x60$\x7b1\x7d\x60\x7d", "$\x7b p \x7d"].map encode)]] := by
    decide +kernel
  obtain ⟨⟨htree, hmarks, hmarked, htext⟩, -⟩ := id hrun
  refine ⟨hrun.1, hrun.2, fun call hcall b hb => ?_⟩
  exact (template_taken_apart settings source root "a.js" htree hmarks hmarked htext call hcall
    b hb).2.2.2.1

end ThemedCss.Style
