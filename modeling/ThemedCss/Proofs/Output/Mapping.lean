import ThemedCss.Proofs.Compile
import ThemedCss.Proofs.Output.Layout
import ThemedCss.Proofs.Style.Grant

/-! The tokens given out, the tokens of the hooks and the keys of the mapping are the same. -/
namespace ThemedCss.Output
open ThemedCss.Syntax ThemedCss.Style ThemedCss.Text

variable {settings : Settings} {source : Bytes} {root : Node} {file filename : String}
  {labelled : List (Call Labelled)}

/-- The name that stands for a dynamic interpolation: the placeholder an earlier pass has left, or
else the token of its place. -/
def holeName (file : String) (call : Call Labelled) (b : Block Labelled) (i : Labelled) : String :=
  i.placeholder.getD (Token.render ⟨file, call.sequence, call.callSite, b.name, i.index⟩)

def callHoles (file : String) (call : Call Labelled) : List (String × Labelled) :=
  call.blocks.flatMap fun b => (b.interpolations.filter (·.label = .dynamic)).map fun i =>
    (holeName file call b i, i)

def namedHoles (file : String) (calls : List (Call Labelled)) : List (String × Labelled) :=
  calls.flatMap (callHoles file)

theorem mem_callHoles {call : Call Labelled} {name : String} {i : Labelled} :
    (name, i) ∈ callHoles file call ↔
      ∃ b ∈ call.blocks, i ∈ b.interpolations ∧ i.label = .dynamic ∧
      holeName file call b i = name := by
  simp only [callHoles, List.mem_flatMap, List.mem_map, List.mem_filter, decide_eq_true_eq,
    Prod.mk.injEq]
  constructor
  · rintro ⟨b, hb, j, ⟨hj, hdynamic⟩, hname, rfl⟩
    exact ⟨b, hb, hj, hdynamic, hname⟩
  · rintro ⟨b, hb, hi, hdynamic, hname⟩
    exact ⟨b, hb, i, ⟨hi, hdynamic⟩, hname, rfl⟩

theorem replace_token (marker : String) (i : Named) :
    (replace marker i).token = if i.label = .dynamic then some i.name else none := by
  unfold replace
  split_ifs <;> rfl

section Call
variable {call : Call Labelled}
  (hlabels : labelled.map (Call.map Labelled.toInterpolation) =
    (scan settings source root filename).calls)
  (hcall : call ∈ labelled)
include hlabels hcall

theorem toInterpolation_mem :
    call.map Labelled.toInterpolation ∈ (scan settings source root filename).calls :=
  hlabels ▸ List.mem_map.mpr ⟨call, hcall, rfl⟩

theorem tokenText_eq_holeName {b : Block Labelled} (hb : b ∈ call.blocks) {i : Labelled}
    (hi : i ∈ b.interpolations) :
    call.outline.tokenText file b.name i.slot = holeName file call b i := by
  -- an empty placeholder would not be kept, but there are none
  have hkept : i.slot.kept? = i.placeholder := by
    cases hp : i.placeholder with
    | none => simp [Slot.kept?, Labelled.slot, hp]
    | some name =>
      have hname : name.isEmpty = false := scan_placeholder (toInterpolation_mem hlabels hcall)
        (List.mem_map.mpr ⟨b, hb, rfl⟩) (List.mem_map.mpr ⟨i, hi, rfl⟩) hp
      simp [Slot.kept?, Labelled.slot, hp, hname]
  rw [Outline.tokenText, hkept]
  rfl

/-- Giving out tokens uses the names of the dynamic interpolations. -/
theorem names_places : names file call.outline.places = (callHoles file call).map (·.1) := by
  have hblock : ∀ b ∈ call.blocks,
      names file (call.outline.placesIn (b.name, b.interpolations.map (·.slot))) =
      (b.interpolations.filter (·.label = .dynamic)).map (holeName file call b) := by
    intro b hb
    simp only [names, Outline.placesIn, List.map_map, List.filter_map, Function.comp_def]
    refine List.map_congr_left fun i hi => ?_
    exact tokenText_eq_holeName hlabels hcall hb (List.mem_of_mem_filter hi)
  rw [Outline.places, Call.outline, List.flatMap_map, names_flatMap, callHoles, List.map_flatMap]
  refine List.flatMap_congr fun b hb => ?_
  rw [List.map_map]
  exact hblock b hb

/-- The replacements of a definition use them too. -/
theorem flatMap_token_eq (marker : String) {α : Type} (f : String × Labelled → α) :
    ((call.named file).blocks.flatMap fun b => b.interpolations.filterMap fun i =>
      (replace marker i).token.map fun t => f (t, i.toLabelled)) = (callHoles file call).map f := by
  rw [callHoles, List.map_flatMap, Call.named, List.flatMap_map]
  refine List.flatMap_congr fun b hb => ?_
  rw [List.filterMap_map, List.map_map, ← List.filterMap_eq_map, List.filterMap_filter]
  refine List.filterMap_congr fun i hi => ?_
  have hlabelled : (i.withToken ((call.placeOf b.name i).given file)).toLabelled = i := rfl
  by_cases hdynamic : i.label = .dynamic
  · rw [Function.comp_apply, replace_token, name_withToken call b.name hdynamic, hlabelled,
      if_pos hdynamic, tokenText_eq_holeName hlabels hcall hb hi]
    simp [hdynamic]
  · rw [Function.comp_apply, replace_token, hlabelled, if_neg hdynamic]
    simp [hdynamic]

theorem hookOf_tokens (marker : String) :
    (hookOf marker (call.named file)).tokens = (callHoles file call).map (·.1) := by
  rw [← flatMap_token_eq hlabels hcall marker]
  simp [hookOf, replacements, List.flatMap_map, List.filterMap_map, Function.comp_def]

private theorem source_of_mem_callHoles {h : String × Labelled} (hh : h ∈ callHoles file call) :
    h.2.source = slice source h.2.expr.start h.2.expr.stop := by
  obtain ⟨b, hb, hi, -⟩ := mem_callHoles.mp hh
  exact (scan_reads_source (toInterpolation_mem hlabels hcall) (List.mem_map.mpr ⟨b, hb, rfl⟩)).2
    h.2.toInterpolation
    (List.mem_map.mpr ⟨h.2, hi, rfl⟩)

end Call

section Module
variable (hlabels : labelled.map (Call.map Labelled.toInterpolation) =
  (scan settings source root filename).calls)
include hlabels

theorem names_eq_holes (file : String) :
    names file ((labelled.map (·.outline)).flatMap Outline.places) =
      (namedHoles file labelled).map (·.1) := by
  rw [List.flatMap_map, names_flatMap, namedHoles, List.map_flatMap]
  exact List.flatMap_congr fun call hcall => names_places hlabels hcall

theorem hooks_tokens (marker : String) :
    ((labelled.map (Call.named file)).map (hookOf marker)).flatMap (·.tokens) =
      (namedHoles file labelled).map (·.1) := by
  rw [namedHoles, List.map_flatMap, List.flatMap_map, List.flatMap_map]
  exact List.flatMap_congr fun call hcall => hookOf_tokens hlabels hcall marker

/-- If all names differ, then no entry of the mapping takes the place of another. -/
theorem mappingOf_eq (marker : String) (h : ((namedHoles file labelled).map (·.1)).Nodup) :
    mappingOf marker (labelled.map (Call.named file)) =
      (namedHoles file labelled).map fun h => (h.1, slice source h.2.expr.start h.2.expr.stop) := by
  have hentries : mappingOf marker (labelled.map (Call.named file)) =
      Table.insertAll ((namedHoles file labelled).map fun h =>
        (h.1, slice source h.2.expr.start h.2.expr.stop)) [] := by
    unfold mappingOf
    refine congrArg (Table.insertAll · []) ?_
    rw [namedHoles, List.map_flatMap, List.flatMap_map]
    refine List.flatMap_congr fun call hcall => ?_
    calc _ = (callHoles file call).map fun h => (h.1, h.2.source) := by
            rw [← flatMap_token_eq hlabels hcall marker]
            simp [replacements, List.flatMap_map, List.filterMap_map]
      _ = (callHoles file call).map fun h => (h.1, slice source h.2.expr.start h.2.expr.stop) :=
            List.map_congr_left fun h hh => by rw [source_of_mem_callHoles hlabels hcall hh]
  rw [hentries, Table.insertAll_eq_append, List.nil_append]
  rw [List.nil_append, Table.keys, List.map_map]
  exact h

/-- Dynamic interpolations are taken in the order of the text. -/
theorem namedHoles_ordered (file : String) (htree : TreeOf source root) :
    (namedHoles file labelled).Pairwise fun a b => a.2.span.Before b.2.span := by
  obtain ⟨hordered, hall⟩ := scan_laidOut settings source filename htree.nested htree.calleeFirst
  rw [← hlabels] at hordered
  have hlaid : ∀ call ∈ labelled, (call.map Labelled.toInterpolation).LaidOut :=
    fun call hcall => (hall _ (toInterpolation_mem hlabels hcall)).1
  have hhole : ∀ call ∈ labelled, ∀ b ∈ call.blocks, ∀ i ∈ b.interpolations,
      i.span.Within b.template :=
    fun call hcall b hb i hi =>
      ((hlaid call hcall).block _ (List.mem_map.mpr ⟨b, hb, rfl⟩)).hole _
        (List.mem_map.mpr ⟨i, hi, rfl⟩)
  refine List.pairwise_flatMap.mpr
    ⟨fun call hcall => List.pairwise_flatMap.mpr ⟨fun b hb => ?_, ?_⟩, ?_⟩
  · have hholes := ((hlaid call hcall).block _ (List.mem_map.mpr ⟨b, hb, rfl⟩)).holes
    exact List.pairwise_map.mpr
      ((hholes.of_map Labelled.toInterpolation fun _ _ hij => hij).filter _)
  · have htemplates :=
      (hlaid call hcall).templates.of_map (Block.map Labelled.toInterpolation) fun _ _ hab => hab
    refine htemplates.imp_of_mem fun {a b} ha hb hab x hx y hy => ?_
    obtain ⟨i, hi, rfl⟩ := List.mem_map.mp hx
    obtain ⟨j, hj, rfl⟩ := List.mem_map.mp hy
    exact hab.mono (hhole call hcall a ha i (List.mem_of_mem_filter hi))
      (hhole call hcall b hb j (List.mem_of_mem_filter hj))
  · have hin : ∀ call ∈ labelled, ∀ h ∈ callHoles file call, h.2.span.Within call.span := by
      intro call hcall h hh
      obtain ⟨b, hb, hi, -⟩ := mem_callHoles.mp hh
      exact (hhole call hcall b hb h.2 hi).trans
        ((hlaid call hcall).template _ (List.mem_map.mpr ⟨b, hb, rfl⟩))
    refine (hordered.of_map (Call.map Labelled.toInterpolation) fun _ _ hab => hab).imp_of_mem ?_
    intro a b ha hb hab x hx y hy
    exact Span.Before.mono hab (hin a ha x hx) (hin b hb y hy)

end Module

/-- Each dynamic interpolation has one name. -/
theorem namedHoles_interpolations (file : String) (labelled : List (Call Labelled)) :
    (namedHoles file labelled).map (·.2) =
      (labelled.flatMap fun call => call.blocks.flatMap (·.interpolations)).filter
        (·.label = .dynamic) := by
  simp [namedHoles, callHoles, List.map_flatMap, List.filter_flatMap, Function.comp_def]

/-- What two passes write down for the dynamic interpolations of a module agrees: the tokens given
out, the tokens of the hooks and the keys of the mapping are one list without repetitions. It has
one name for each dynamic interpolation, in the order of the text, and the mapping gives the text of
its expression. -/
theorem compileSource_tokens_agree (c : Compiler) (w : Workspace) (source : Bytes)
    (filename : String) (m : Compiled) (h : c.compileSource w source filename = .ok m) :
    ∃ path root labelled calls granted, Parsed w source filename path root ∧
      c.label w.files path filename root (scan c.settings source root filename).calls = .ok calls ∧
      labelled.map (Call.map Labelled.toInterpolation) =
        (scan c.settings source root filename).calls ∧
      calls.map (Call.map Named.toLabelled) = labelled ∧
      grantAll (fileId filename) [] (labelled.map (·.outline)) = .ok granted ∧
      let holes := namedHoles (fileId filename) labelled
      holes.map (·.2) =
        (labelled.flatMap fun call => call.blocks.flatMap (·.interpolations)).filter
          (·.label = .dynamic) ∧
      m.mapping.keys = holes.map (·.1) ∧ granted.1.keys = holes.map (·.1) ∧
      m.hooks.flatMap (·.tokens) = holes.map (·.1) ∧ (holes.map (·.1)).Nodup ∧
      (∀ name i, (name, i) ∈ holes →
        m.mapping.get? name = some (slice source i.expr.start i.expr.stop)) ∧
      (TreeOf source root → holes.Pairwise fun a b => a.2.span.Before b.2.span) := by
  obtain ⟨path, root, hparsed, hm⟩ := Compiler.parsed_of_compileSource h
  obtain ⟨calls, hlabel, hemit⟩ := Compiler.compileTree_eq_ok_iff.mp hm
  obtain ⟨labelled, hlabels, hnamed⟩ := Compiler.named_of_label hlabel
  obtain ⟨hfresh, rfl⟩ := nameAll_eq_ok_iff.mp hnamed
  obtain ⟨granted, hgranted⟩ := (grantAll_eq_ok_iff [] _).mpr hfresh
  have hnames := names_eq_holes hlabels (fileId filename)
  have hnodup : ((namedHoles (fileId filename) labelled).map (·.1)).Nodup := by
    rw [fresh_nil, hnames] at hfresh
    exact hfresh
  obtain ⟨hmapping, hhooks, -⟩ := emit_tables hemit
  rw [mappingOf_eq hlabels _ hnodup] at hmapping
  have hkeys : m.mapping.keys = (namedHoles (fileId filename) labelled).map (·.1) := by
    rw [hmapping, Table.keys, List.map_map]
    rfl
  refine ⟨path, root, labelled, _, granted, hparsed, hlabel, hlabels, ?_, hgranted,
    namedHoles_interpolations _ _, hkeys,
    ?_, ?_, hnodup, ?_, fun htree => namedHoles_ordered hlabels _ htree⟩
  · simp [Function.comp_def, toLabelled_named]
  · rw [(grantAll_ok hgranted).1, hnames]
    rfl
  · rw [hhooks]
    exact hooks_tokens hlabels _
  · intro name i hi
    refine Table.get?_eq_some_of_mem (hkeys ▸ hnodup) ?_
    rw [hmapping]
    exact List.mem_map.mpr ⟨(name, i), hi, rfl⟩

/-- A definition with a new token, a kept one, and a hole that is settled. -/
def keptAndNew : String :=
  "let m,__flairCreateStyles;" ++
    "f((\x7bp\x7d)=>(\x7ba:css\x60$\x7bp\x7d\x60,b:css\x60$\x7b'var(--k)'\x7d$\x7bm(1)\x7d\x60\x7d))"

theorem compileSource_tokens_agree_kept :
    let c : Compiler :=
      ⟨{ Settings.ofTheme "t" with factory := "f", marker := "m" }, ⟨⟨true, []⟩, [], [], []⟩⟩
    let w : Workspace := ⟨.empty, .root, ⟨.root, []⟩, none⟩
    ∃ m, c.compileSource w (encode keptAndNew) "/a.js" = .ok m ∧
      m.mapping.keys = ["--a--00000-0-a-0", "--k"] ∧
      m.hooks.flatMap (·.tokens) = m.mapping.keys := by
  intro c w
  let root := parse .script keptAndNew.toList
  let path : Path := ⟨true, ["a.js"]⟩
  have hrun : decode (encode keptAndNew) = .ok keptAndNew.toList ∧ w.resolve "/a.js" = .ok path ∧
      Dialect.ofSuffix? path.suffix = some .script ∧ TreeOf (encode keptAndNew) root ∧
      (c.label w.files path "/a.js" root
        (scan c.settings (encode keptAndNew) root "/a.js").calls).toOption.map
        (fun calls => (namedHoles (fileId "/a.js") (calls.map (Call.map Named.toLabelled))).map
          (·.1)) = some ["--a--00000-0-a-0", "--k"] := by
    decide +kernel
  obtain ⟨hchars, hpath, hd, htree, hrun⟩ := hrun
  have hparsed : Parsed w (encode keptAndNew) "/a.js" path root := .of_suffix hchars hpath hd
  cases hlabel : c.label w.files path "/a.js" root
    (scan c.settings (encode keptAndNew) root "/a.js").calls with
  | error f =>
    rw [hlabel] at hrun
    cases hrun
  | ok calls =>
    obtain ⟨m, hm⟩ := emit_ok htree (unlabelled_of_label hlabel)
      (scan c.settings (encode keptAndNew) root "/a.js").diagnostics
    have hcompile : c.compileSource w (encode keptAndNew) "/a.js" = .ok m := by
      rw [c.compileSource_eq_compileTree hparsed]
      exact Compiler.compileTree_eq_ok_iff.mpr ⟨calls, hlabel, hm⟩
    obtain ⟨path', root', labelled, calls', -, hparsed', hlabel', -, hlabelled, -, -, hkeys, -,
        htokens, -⟩ :=
      compileSource_tokens_agree c w (encode keptAndNew) "/a.js" m hcompile
    obtain ⟨rfl, rfl⟩ := hparsed.unique hparsed'
    obtain rfl := Except.ok.inj (hlabel.symm.trans hlabel')
    rw [hlabel, Except.toOption, Option.map_some, hlabelled] at hrun
    exact ⟨m, hcompile, hkeys.trans (Option.some.inj hrun), htokens.trans hkeys.symm⟩

end ThemedCss.Output
