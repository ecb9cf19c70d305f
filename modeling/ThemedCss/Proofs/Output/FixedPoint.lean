import ThemedCss.Proofs.Dependency.Classification
import ThemedCss.Proofs.Output.Code
import ThemedCss.Proofs.Output.Mapping

/-! A module that looks like a compiled one is left as it is. -/
namespace ThemedCss.Dependency
open ThemedCss.Syntax ThemedCss.Style

variable {calls : List (Call Interpolation)}

/-- All interpolations of a definition stand in calls of the marker. -/
def Wrapped (call : Call Interpolation) : Prop :=
  ∀ b ∈ call.blocks, ∀ i ∈ b.interpolations, i.wrapped = true

instance (call : Call Interpolation) : Decidable (Wrapped call) :=
  inferInstanceAs (Decidable (∀ b ∈ call.blocks, ∀ i ∈ b.interpolations, i.wrapped = true))

def allStatic (calls : List (Call Interpolation)) : List (Call Labelled) :=
  calls.map (Call.map fun i => { i with label := .static })

section Wrapped
variable (h : ∀ call ∈ calls, Wrapped call)
include h

/-- Nothing is asked about wrapped interpolations, so no module is looked into. -/
theorem not_mem_allAnswers (c : Context) (a : Answer) : a ∉ allAnswers c calls := by
  have hreads : calls.flatMap (callReads c) = [] := by
    refine List.flatMap_eq_nil_iff.mpr fun call hcall => List.flatMap_eq_nil_iff.mpr fun i hi => ?_
    obtain ⟨b, hb, hi⟩ := List.mem_flatMap.mp hi
    simp [interpolationReads, h call hcall b hb i hi]
  rw [mem_allAnswers, hreads]
  rintro (hmem | ⟨k, hk, hmem⟩)
  · simp at hmem
  · rw [found, hreads] at hk
    obtain rfl | rfl | ⟨j, hj, -⟩ := exists_path_of_mem_explore hk
    · simp [Context.reads] at hmem
    · simp [Context.reads] at hmem
    · simp at hj

private theorem map_labelCall_wrapped (c : Context) (dynamic : List Key) :
    calls.map (labelCall c dynamic) = allStatic calls := by
  refine List.map_congr_left fun call hcall => callMap_congr fun b hb i hi => ?_
  rw [labelOf, if_pos (h call hcall b hb i hi)]

/-- Wrapped interpolations are static in all surroundings. -/
theorem classify_wrapped (files : FileTree) (settings : Settings) (allows : List String → Bool)
    (path : Path) (root : Node) :
    ∃ r, classify files settings allows path root calls = .ok r ∧ r.calls = allStatic calls := by
  obtain ⟨c, hcdef⟩ : ∃ c, c = Context.ofTree files settings allows path root := ⟨_, rfl⟩
  obtain ⟨-, _, hok⟩ | ⟨hfault, -⟩ := classify_eq files settings allows path root calls hcdef
  · exact ⟨_, hok, map_labelCall_wrapped h c _⟩
  · exact absurd (fun a ha => absurd ha (not_mem_allAnswers h c a)) hfault

end Wrapped

end ThemedCss.Dependency

namespace ThemedCss.Output
open ThemedCss.Dependency ThemedCss.Syntax ThemedCss.Style ThemedCss.Text

variable {settings : Settings} {source : Bytes} {root : Node} {filename : String}

theorem toInterpolation_allStatic (calls : List (Call Interpolation)) :
    (allStatic calls).map (Call.map Labelled.toInterpolation) = calls := by
  simp [allStatic, Call.map, Block.map, Function.comp_def]

theorem namedHoles_allStatic (file : String) (calls : List (Call Interpolation)) :
    namedHoles file (allStatic calls) = [] := by
  simp [namedHoles, callHoles, allStatic, Call.map, Block.map]

/-- A module that looks like a compiled one: its definitions call the factory of compiled modules,
their interpolations are calls of the marker, and both names are declared. -/
structure OutputShaped (settings : Settings) (source : Bytes) (root : Node) (filename : String) :
    Prop where
  callee : ∀ call ∈ (scan settings source root filename).calls,
    slice source call.callee.start call.callee.stop = encode runtimeFactory
  wrapped : ∀ call ∈ (scan settings source root filename).calls, Wrapped call
  marker : settings.marker ∈ topLevelNames root
  factory : runtimeFactory ∈ topLevelNames root

instance (settings : Settings) (source : Bytes) (root : Node) (filename : String) :
    Decidable (OutputShaped settings source root filename) :=
  decidable_of_iff
    ((∀ call ∈ (scan settings source root filename).calls,
        slice source call.callee.start call.callee.stop = encode runtimeFactory) ∧
      (∀ call ∈ (scan settings source root filename).calls, Wrapped call) ∧
      settings.marker ∈ topLevelNames root ∧ runtimeFactory ∈ topLevelNames root)
    ⟨fun ⟨h₁, h₂, h₃, h₄⟩ => ⟨h₁, h₂, h₃, h₄⟩, fun ⟨h₁, h₂, h₃, h₄⟩ => ⟨h₁, h₂, h₃, h₄⟩⟩

section Shape
variable (h : OutputShaped settings source root filename)
include h

/-- There are no dynamic interpolations, so no tokens that could collide. -/
theorem label_outputShaped (environment : Theme.Environment) (files : FileTree) (path : Path) :
    Compiler.label ⟨settings, environment⟩ files path filename root
      (scan settings source root filename).calls =
      .ok ((allStatic (scan settings source root filename).calls).map
        (Call.named (fileId filename))) := by
  obtain ⟨r, hr, hcalls⟩ := classify_wrapped h.wrapped files settings environment.allows path root
  have hfresh :
      Fresh [] (names (fileId filename) ((r.calls.map (·.outline)).flatMap Outline.places)) := by
    rw [hcalls, fresh_nil, names_eq_holes (toInterpolation_allStatic _), namedHoles_allStatic]
    exact List.nodup_nil
  have hnamed := nameAll_eq_ok_iff.mpr ⟨hfresh, rfl⟩
  unfold Compiler.label
  split_ifs with hempty
  · rw [List.isEmpty_iff.mp hempty]
    rfl
  · rw [hr]
    dsimp only
    rw [hnamed, hcalls]

private theorem prologueEdits_outputShaped (calls : List (Call Named)) :
    prologueEdits settings root calls = [] := by
  have hmissing : missingCode settings (topLevelNames root) = [] := by
    simp [missingCode, h.marker, h.factory]
  unfold prologueEdits
  rw [hmissing]

/-- The only edits put the factory of compiled modules in its own place. -/
theorem text_of_mem_edits {file : String} {e : Edit} (he : e ∈ orderedEdits settings root
      ((allStatic (scan settings source root filename).calls).map (Call.named file))) :
    e.text = slice source e.start.toNat e.stop.toNat := by
  rw [orderedEdits, prologueEdits_outputShaped h, List.nil_append, List.flatMap_map] at he
  obtain ⟨labelled, hlabelled, he⟩ := List.mem_flatMap.mp he
  rw [callEdits_named (toInterpolation_allStatic _) hlabelled] at he
  obtain ⟨call, hcall, rfl⟩ := List.mem_map.mp hlabelled
  rw [callChanges, List.mem_cons] at he
  rcases he with rfl | he
  · exact (h.callee call hcall).symm
  · obtain ⟨b, hb, he⟩ := List.mem_flatMap.mp he
    obtain ⟨i, hi, he⟩ := List.mem_filterMap.mp he
    obtain ⟨block, hblock, rfl⟩ := List.mem_map.mp hb
    obtain ⟨j, hj, rfl⟩ := List.mem_map.mp hi
    simp [holeChange, h.wrapped call hcall block hblock j hj] at he

end Shape

/-- A module that looks like a compiled one is compiled to itself, with any theme and among any
files: nothing is replaced, no token is given out, and definitions that are not supported are only
reported. -/
theorem compile_fixed_point (settings : Settings) (source : Bytes) (root : Node) (filename : String)
    (htree : TreeOf source root) (hshape : OutputShaped settings source root filename) :
    ∃ m : Compiled, m.code = source ∧ m.mapping = [] ∧ (∀ hook ∈ m.hooks, hook.tokens = []) ∧
      m.hooks.length = (scan settings source root filename).calls.length ∧
      m.diagnostics = (scan settings source root filename).diagnostics ∧
      ∀ (environment : Theme.Environment) (w : Workspace) (path : Path),
        Compiler.compileTree ⟨settings, environment⟩ w source filename path root = .ok m ∧
        (Parsed w source filename path root →
          Compiler.compileSource ⟨settings, environment⟩ w source filename = .ok m) := by
  let labelled := allStatic (scan settings source root filename).calls
  let calls := labelled.map (Call.named (fileId filename))
  have hlabelled : labelled.map (Call.map Labelled.toInterpolation) =
      (scan settings source root filename).calls :=
    toInterpolation_allStatic _
  have hlabels : Labels settings source root filename calls := labels_named hlabelled
  have hholes : namedHoles (fileId filename) labelled = [] := namedHoles_allStatic _ _
  obtain ⟨m, hm, hcode, -⟩ :=
    emit_code htree hlabels (scan settings source root filename).diagnostics
  obtain ⟨hmapping, hhooks, hdiagnostics⟩ := emit_tables hm
  have hcompile : ∀ (environment : Theme.Environment) (w : Workspace) (path : Path),
      Compiler.compileTree ⟨settings, environment⟩ w source filename path root = .ok m := by
    intro environment w path
    exact Compiler.compileTree_eq_ok_iff.mpr
      ⟨calls, label_outputShaped hshape environment w.files path, hm⟩
  refine ⟨m, ?_, ?_, ?_, ?_, hdiagnostics,
    fun environment w path => ⟨hcompile environment w path, fun hparsed => ?_⟩⟩
  · rw [hcode]
    refine splice_eq_drop (fun e he => sortedEdits_fit htree hlabels he)
      (sortedEdits_pairwise htree hlabels)
      (fun e he => (sortedEdits_fit htree hlabels he).nonneg) fun e he => ?_
    exact text_of_mem_edits hshape ((sortedEdits_perm settings root calls).mem_iff.mp he)
  · rw [hmapping, mappingOf_eq hlabelled _ (by rw [hholes]; exact List.nodup_nil), hholes]
    rfl
  · intro hook hhook
    rw [hhooks, List.map_map] at hhook
    obtain ⟨call, hcall, rfl⟩ := List.mem_map.mp hhook
    rw [Function.comp_apply, hookOf_tokens hlabelled hcall,
      List.flatMap_eq_nil_iff.mp hholes call hcall]
    rfl
  · rw [hhooks, List.length_map, List.length_map]
    exact List.length_map _
  · rw [Compiler.compileSource_eq_compileTree _ hparsed]
    exact hcompile environment w path

/-- A module that looks like a compiled one, with a definition that is not supported. -/
def settledModule : String :=
  "let m,__flairCreateStyles;__flairCreateStyles(()=>(\x7ba:css\x60x$\x7bm(p)\x7dy\x60\x7d));__flairCreateStyles(1)"

theorem compile_fixed_point_settled :
    let c : Compiler := ⟨{ Settings.ofTheme "t" with marker := "m" }, ⟨⟨true, []⟩, [], [], []⟩⟩
    let w : Workspace := ⟨.empty, .root, ⟨.root, []⟩, none⟩
    ∃ m, c.compileSource w (encode settledModule) "/a.js" = .ok m ∧ m.code = encode settledModule ∧
      m.mapping = [] ∧ m.hooks.length = 1 ∧ m.diagnostics.length = 1 := by
  intro c w
  let root := parse .script settledModule.toList
  let path : Path := ⟨true, ["a.js"]⟩
  have hread : decode (encode settledModule) = .ok settledModule.toList ∧
      w.resolve "/a.js" = .ok path ∧ Dialect.ofSuffix? path.suffix = some .script := by
    decide +kernel
  have hscan : TreeOf (encode settledModule) root ∧
      OutputShaped c.settings (encode settledModule) root "/a.js" ∧
      (scan c.settings (encode settledModule) root "/a.js").calls.length = 1 ∧
      (scan c.settings (encode settledModule) root "/a.js").diagnostics.length = 1 := by
    decide +kernel
  obtain ⟨hchars, hpath, hd⟩ := hread
  obtain ⟨htree, hshape, hone, hother⟩ := hscan
  obtain ⟨m, hcode, hmapping, -, hhooks, hdiagnostics, hcompile⟩ :=
    compile_fixed_point c.settings (encode settledModule) root "/a.js" htree hshape
  refine ⟨m, (hcompile c.environment w path).2 (.of_suffix hchars hpath hd), hcode, hmapping,
    hhooks.trans hone, ?_⟩
  rw [hdiagnostics, hother]

end ThemedCss.Output
