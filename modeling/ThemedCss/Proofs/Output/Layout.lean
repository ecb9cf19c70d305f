import ThemedCss.Proofs.Compile
import ThemedCss.Proofs.Output.Edit
import ThemedCss.Proofs.Style.Layout

/-! The edits of a module never overlap. -/
namespace ThemedCss.Output
open ThemedCss.Syntax ThemedCss.Style ThemedCss.Text

variable {marker : String} {settings : Settings}

abbrev bare (i : Named) : Interpolation :=
  i.toInterpolation

def unlabelled (call : Call Named) : Call Interpolation :=
  call.map bare

theorem unlabelled_named (file : String) (call : Call Labelled) :
    unlabelled (call.named file) = call.map Labelled.toInterpolation := by
  simp [unlabelled, Call.named, Call.map, Block.map, Labelled.withToken, Function.comp_def]

abbrev Labels (settings : Settings) (source : Bytes) (root : Node) (filename : String)
    (calls : List (Call Named)) : Prop :=
  calls.map unlabelled = (scan settings source root filename).calls

theorem labels_named {source : Bytes} {root : Node} {filename file : String}
    {labelled : List (Call Labelled)}
    (h : labelled.map (Call.map Labelled.toInterpolation) =
      (scan settings source root filename).calls) :
    Labels settings source root filename (labelled.map (Call.named file)) := by
  rw [Labels, List.map_map, ← h]
  exact List.map_congr_left fun call _ => unlabelled_named file call

theorem labels_of_nameAll {source : Bytes} {root : Node} {filename file : String}
    {labelled : List (Call Labelled)} {calls : List (Call Named)}
    (hlabels : labelled.map (Call.map Labelled.toInterpolation) =
      (scan settings source root filename).calls)
    (h : nameAll file labelled = .ok calls) : Labels settings source root filename calls := by
  obtain ⟨-, rfl⟩ := nameAll_eq_ok_iff.mp h
  exact labels_named hlabels

def Edit.Within (e : Edit) (s : Span) : Prop :=
  (s.start : Int) ≤ e.start ∧ e.start ≤ e.stop ∧ e.stop ≤ (s.stop : Int)

theorem Edit.Within.trans {e : Edit} {s t : Span} (h : e.Within s) (hst : s.Within t) :
    e.Within t := by
  unfold Edit.Within Span.Within at *
  omega

theorem Edit.Within.le_of_before {a b : Edit} {s t : Span} (ha : a.Within s) (hb : b.Within t)
    (h : s.Before t) : a.stop ≤ b.start := by
  unfold Edit.Within Span.Before at *
  omega

theorem callEdits_eq (call : Call Named) :
    callEdits marker call = ⟨call.callee.start, call.callee.stop, encode runtimeFactory⟩ ::
      call.blocks.flatMap fun b => b.interpolations.filterMap fun i =>
        (replace marker i).edit := by
  simp [callEdits, replacements, List.flatMap_map, List.filterMap_map]

/-- An interpolation is replaced as a whole, or only its expression is. -/
theorem replace_edit {i : Named} {e : Edit}
    (h : (replace marker i).edit = some e) :
    e.start = i.span.start ∧ e.stop = i.span.stop ∨
      e.start = i.expr.start ∧ e.stop = i.expr.stop := by
  unfold replace at h
  split_ifs at h with hdynamic hwrapped hsequence
  · obtain rfl := Option.some.inj h
    exact .inl ⟨rfl, rfl⟩
  · obtain rfl := Option.some.inj h
    exact .inr ⟨rfl, rfl⟩
  · obtain rfl := Option.some.inj h
    exact .inr ⟨rfl, rfl⟩

section Call
variable {call : Call Named} (hcall : (unlabelled call).LaidOut)
include hcall

theorem laidOut_interpolation {b : Block Named} (hb : b ∈ call.blocks) :
    (b.map bare).LaidOut :=
  hcall.block _ (List.mem_map.mpr ⟨b, hb, rfl⟩)

theorem template_within {b : Block Named} (hb : b ∈ call.blocks) : b.template.Within call.span :=
  hcall.template _ (List.mem_map.mpr ⟨b, hb, rfl⟩)

theorem template_behind {b : Block Named} (hb : b ∈ call.blocks) : call.callee.Before b.template :=
  hcall.behind _ (List.mem_map.mpr ⟨b, hb, rfl⟩)

theorem templates_pairwise : call.blocks.Pairwise fun a b => a.template.Before b.template :=
  hcall.templates.of_map (Block.map bare) fun _ _ hab => hab

theorem holes_pairwise {b : Block Named} (hb : b ∈ call.blocks) :
    b.interpolations.Pairwise fun i j => i.span.Before j.span :=
  (laidOut_interpolation hcall hb).holes.of_map bare fun _ _ hij => hij

theorem edit_within_span {b : Block Named} (hb : b ∈ call.blocks) {i : Named}
    (hi : i ∈ b.interpolations) {e : Edit} (h : (replace marker i).edit = some e) :
    e.Within i.span := by
  have hlaid := laidOut_interpolation hcall hb
  have hmem : i.toInterpolation ∈ (b.map bare).interpolations := List.mem_map.mpr ⟨i, hi, rfl⟩
  have hexpr := hlaid.expr _ hmem
  have hhole := hlaid.hole _ hmem
  have hedit := replace_edit h
  unfold Span.Within at hexpr hhole
  unfold Edit.Within
  omega

theorem hole_within_template {b : Block Named} (hb : b ∈ call.blocks) {i : Named}
    (hi : i ∈ b.interpolations) : i.span.Within b.template :=
  (laidOut_interpolation hcall hb).hole _ (List.mem_map.mpr ⟨i, hi, rfl⟩)

theorem edit_within_template {b : Block Named} (hb : b ∈ call.blocks) {i : Named}
    (hi : i ∈ b.interpolations) {e : Edit} (h : (replace marker i).edit = some e) :
    e.Within b.template :=
  (edit_within_span hcall hb hi h).trans (hole_within_template hcall hb hi)

/-- The edits of a definition are in order if the edits of holes in order are. -/
theorem callEdits_pairwise_of {R : Edit → Edit → Prop}
    (hcallee : ∀ b ∈ call.blocks, ∀ i ∈ b.interpolations, ∀ e,
      (replace marker i).edit = some e →
        R ⟨call.callee.start, call.callee.stop, encode runtimeFactory⟩ e)
    (hholes : ∀ b ∈ call.blocks, ∀ i ∈ b.interpolations, ∀ c ∈ call.blocks, ∀ j ∈ c.interpolations,
      i.span.Before j.span → ∀ d e, (replace marker i).edit = some d →
        (replace marker j).edit = some e → R d e) :
    (callEdits marker call).Pairwise R := by
  rw [callEdits_eq, List.pairwise_cons]
  refine ⟨fun e he => ?_, List.pairwise_flatMap.mpr ⟨fun b hb => ?_, ?_⟩⟩
  · obtain ⟨b, hb, he⟩ := List.mem_flatMap.mp he
    obtain ⟨i, hi, he⟩ := List.mem_filterMap.mp he
    exact hcallee b hb i hi e he
  · refine List.pairwise_filterMap.mpr ((holes_pairwise hcall hb).imp_of_mem ?_)
    intro i j hi hj hij d hd e he
    exact hholes b hb i hi b hb j hj hij d e hd he
  · refine (templates_pairwise hcall).imp_of_mem ?_
    intro b c hb hc hbc d hd e he
    obtain ⟨i, hi, hd⟩ := List.mem_filterMap.mp hd
    obtain ⟨j, hj, he⟩ := List.mem_filterMap.mp he
    exact hholes b hb i hi c hc j hj
      (hbc.mono (hole_within_template hcall hb hi) (hole_within_template hcall hc hj))
      d e hd he

private theorem callEdits_pairwise :
    (callEdits marker call).Pairwise fun a b => a.stop ≤ b.start := by
  refine callEdits_pairwise_of hcall (fun b hb i hi e he => ?_)
    fun b hb i hi c hc j hj hij d e hd he => ?_
  · exact Int.le_trans (Int.ofNat_le.mpr (template_behind hcall hb))
      (edit_within_template hcall hb hi he).1
  · exact (edit_within_span hcall hb hi hd).le_of_before (edit_within_span hcall hc hj he) hij

theorem callEdits_within {e : Edit} (he : e ∈ callEdits marker call) : e.Within call.span := by
  rw [callEdits_eq, List.mem_cons] at he
  rcases he with rfl | he
  · have hcallee := hcall.callee
    simp only [unlabelled, Call.map, Span.Within, Edit.Within] at *
    omega
  · obtain ⟨b, hb, he⟩ := List.mem_flatMap.mp he
    obtain ⟨i, hi, he⟩ := List.mem_filterMap.mp he
    exact (edit_within_template hcall hb hi he).trans (template_within hcall hb)

end Call

private theorem anchor?_eq_some {limit : Nat} {leading : Bool} {found : Option Node}
    {statements : List Node} {a : Node} (h : anchor? limit leading found statements = some a) :
    found = some a ∨ a ∈ statements ∧ a.stop ≤ limit := by
  induction statements generalizing leading found with
  | nil => exact .inl h
  | cons s rest ih =>
    have hstep : ∀ {leading found'}, anchor? limit leading found' rest = some a →
        (found' = some s → s.stop ≤ limit) → found' = found ∨ found' = some s →
        found = some a ∨ a ∈ s :: rest ∧ a.stop ≤ limit := by
      intro leading found' h hs hfound
      rcases ih h with rfl | ⟨hmem, hstop⟩
      · rcases hfound with hfound | hfound
        · exact .inl hfound.symm
        · obtain rfl := Option.some.inj hfound
          exact .inr ⟨List.mem_cons_self, hs rfl⟩
      · exact .inr ⟨List.mem_cons_of_mem _ hmem, hstop⟩
    rw [anchor?] at h
    split_ifs at h with hlimit
    · exact .inl h
    · exact hstep h (fun _ => Nat.le_of_not_lt hlimit) (.inr rfl)
    · exact hstep h (fun _ => Nat.le_of_not_lt hlimit) (.inr rfl)
    · exact hstep h (fun _ => Nat.le_of_not_lt hlimit) (.inl rfl)

/-- Code goes to the top, or after a statement that ends before the limit. -/
theorem injection_range (root : Node) (code : String) (limit : Nat) :
    (injection root code limit).start = (injection root code limit).stop ∧
      ((injection root code limit).stop = 0 ∨
        ∃ a ∈ root.named, (injection root code limit).stop = a.stop ∧ a.stop ≤ limit) := by
  unfold injection
  split
  · exact ⟨rfl, .inl rfl⟩
  · next a ha =>
    rcases anchor?_eq_some ha with hnone | ⟨hmem, hstop⟩
    · simp at hnone
    · exact ⟨rfl, .inr ⟨a, hmem, rfl, hstop⟩⟩

theorem foldl_min_le {calls : List (Call Named)} {n : Nat} :
    calls.foldl (fun n call => min n call.span.start) n ≤ n ∧
      ∀ call ∈ calls, calls.foldl (fun n call => min n call.span.start) n ≤ call.span.start := by
  induction calls generalizing n with
  | nil => exact ⟨Nat.le_refl _, by simp⟩
  | cons call rest ih =>
    obtain ⟨hle, hall⟩ := @ih (min n call.span.start)
    refine ⟨by rw [List.foldl_cons]; omega, fun c hc => ?_⟩
    rw [List.foldl_cons]
    rcases List.mem_cons.mp hc with rfl | hc
    · omega
    · exact hall c hc

/-- At most one text is inserted, at the top or after a statement, and before all definitions. -/
theorem prologueEdits_cases (settings : Settings) (root : Node) (calls : List (Call Named)) :
    prologueEdits settings root calls = [] ∨
      ∃ e, prologueEdits settings root calls = [e] ∧ e.start = e.stop ∧
      (e.stop = 0 ∨ ∃ a ∈ root.named, e.stop = a.stop) ∧
      ∀ call ∈ calls, e.stop ≤ call.span.start := by
  unfold prologueEdits
  split
  · exact .inl rfl
  · exact .inl rfl
  · next first rest _ =>
    refine .inr ⟨_, rfl, ?_⟩
    have hmin := @foldl_min_le rest first.span.start
    obtain ⟨heq, hcases⟩ := injection_range root
      ("\n\n".intercalate (missingCode settings (topLevelNames root)))
      (rest.foldl (fun n call => min n call.span.start) first.span.start)
    refine ⟨heq, hcases.imp_right fun ⟨a, ha, hstop, _⟩ => ⟨a, ha, hstop⟩, fun call hcall => ?_⟩
    have hle : rest.foldl (fun n call => min n call.span.start) first.span.start ≤
        call.span.start := by
      rcases List.mem_cons.mp hcall with rfl | hcall
      · exact hmin.1
      · exact hmin.2 call hcall
    rcases hcases with hzero | ⟨a, -, hstop, hlimit⟩
    · omega
    · omega

theorem prologueEdits_before {root : Node} {calls : List (Call Named)} {e : Edit}
    (he : e ∈ prologueEdits settings root calls) {call : Call Named} (hcall : call ∈ calls) :
    e.start = e.stop ∧ e.stop ≤ call.span.start := by
  rcases prologueEdits_cases settings root calls with hnone | ⟨e', hone, heq, -, hbefore⟩
  · simp [hnone] at he
  · rw [hone, List.mem_singleton] at he
    exact he ▸ ⟨heq, hbefore call hcall⟩

/-- Compiling changes the code and nothing else can fail. -/
theorem emit_eq (settings : Settings) (source : Bytes) (root : Node) (filename : String)
    (calls : List (Call Named)) (diagnostics : List Diagnostic) :
    emit settings source root filename calls diagnostics =
      (if calls.isEmpty then .ok source else apply source (editsOf settings root calls)).map
        fun code =>
        { filename, code, mapping := mappingOf settings.marker calls
          hooks := calls.map (hookOf settings.marker), diagnostics } := by
  unfold emit
  dsimp only
  split_ifs
  · rfl
  · cases apply source (editsOf settings root calls) <;> rfl

/-- The parts of a compiled module beside its code. -/
theorem emit_tables {source : Bytes} {root : Node} {filename : String} {calls : List (Call Named)}
    {diagnostics : List Diagnostic} {m : Compiled}
    (h : emit settings source root filename calls diagnostics = .ok m) :
    m.mapping = mappingOf settings.marker calls ∧
      m.hooks = calls.map (hookOf settings.marker) ∧ m.diagnostics = diagnostics := by
  rw [emit_eq] at h
  cases hcode : if calls.isEmpty then .ok source
    else apply source (editsOf settings root calls) with
  | error pos =>
    rw [hcode] at h
    simp [Except.map] at h
  | ok code =>
    rw [hcode] at h
    obtain rfl := Except.ok.inj h
    exact ⟨rfl, rfl, rfl⟩

theorem prologueEdits_nil (settings : Settings) (root : Node) :
    prologueEdits settings root [] = [] := by
  unfold prologueEdits
  cases missingCode settings (topLevelNames root) <;> rfl

def sortedEdits (settings : Settings) (root : Node) (calls : List (Call Named)) : List Edit :=
  ((editsOf settings root calls).mergeSort Edit.notBefore).reverse

section Module
variable {source : Bytes} {root : Node} {filename : String} {calls : List (Call Named)}
  (htree : TreeOf source root) (hcalls : Labels settings source root filename calls)
include hcalls

theorem unlabelled_mem {call : Call Named} (hcall : call ∈ calls) :
    unlabelled call ∈ (scan settings source root filename).calls :=
  hcalls ▸ List.mem_map.mpr ⟨call, hcall, rfl⟩

include htree

theorem laidOut_of_mem {call : Call Named} (hcall : call ∈ calls) :
    (unlabelled call).LaidOut ∧ call.span.Within (.ofNode root) :=
  (scan_laidOut settings source filename htree.nested htree.calleeFirst).2 _
    (unlabelled_mem hcalls hcall)

theorem call_stop_le {call : Call Named} (hcall : call ∈ calls) : call.span.stop ≤ source.length :=
  Nat.le_trans (laidOut_of_mem htree hcalls hcall).2.2.2 htree.size

theorem calls_pairwise : calls.Pairwise fun a b => a.span.Before b.span := by
  have h := (scan_laidOut settings source filename htree.nested htree.calleeFirst).1
  rw [← hcalls] at h
  exact h.of_map unlabelled fun _ _ hab => hab

private theorem flatMap_callEdits_pairwise :
    (calls.flatMap (callEdits settings.marker)).Pairwise fun a b => a.stop ≤ b.start := by
  refine List.pairwise_flatMap.mpr
    ⟨fun call hcall => callEdits_pairwise (laidOut_of_mem htree hcalls hcall).1, ?_⟩
  refine (calls_pairwise htree hcalls).imp_of_mem fun ha hb hab x hx y hy => ?_
  exact (callEdits_within (laidOut_of_mem htree hcalls ha).1 hx).le_of_before
    (callEdits_within (laidOut_of_mem htree hcalls hb).1 hy) hab

theorem callEdits_fit {e : Edit} (he : e ∈ calls.flatMap (callEdits settings.marker)) :
    e.Fits source.length := by
  obtain ⟨call, hcall, he⟩ := List.mem_flatMap.mp he
  have hin := callEdits_within (laidOut_of_mem htree hcalls hcall).1 he
  have hsize := call_stop_le htree hcalls hcall
  unfold Edit.Within at hin
  exact ⟨by omega, hin.2.1, by omega⟩

theorem prologueEdits_fit {e : Edit} (he : e ∈ prologueEdits settings root calls) :
    e.Fits source.length ∧ e.start = e.stop ∧
      ∀ d ∈ calls.flatMap (callEdits settings.marker), e.stop ≤ d.start := by
  rcases prologueEdits_cases settings root calls with hnone | ⟨e', hone, heq, hplace, hbefore⟩
  · simp [hnone] at he
  · rw [hone, List.mem_singleton] at he
    subst he
    refine ⟨?_, heq, fun d hd => ?_⟩
    · have hsize := htree.size
      rcases hplace with hzero | ⟨a, ha, hstop⟩
      · exact ⟨by omega, by omega, by omega⟩
      · have hin := htree.nested.bounds (Node.contains_named ha)
        exact ⟨by omega, by omega, by omega⟩
    · obtain ⟨call, hcall, hd⟩ := List.mem_flatMap.mp hd
      exact Int.le_trans (hbefore call hcall)
        (callEdits_within (laidOut_of_mem htree hcalls hcall).1 hd).1

theorem editsOf_fit {e : Edit} (he : e ∈ editsOf settings root calls) : e.Fits source.length := by
  rcases List.mem_append.mp he with he | he
  · exact callEdits_fit htree hcalls he
  · exact (prologueEdits_fit htree hcalls he).1

theorem editsOf_apart : (editsOf settings root calls).Pairwise Edit.Apart := by
  refine List.pairwise_append.mpr
    ⟨(flatMap_callEdits_pairwise htree hcalls).imp .inl, ?_, fun d hd e he => ?_⟩
  · rcases prologueEdits_cases settings root calls with hnone | ⟨e, hone, -⟩
    · simp [hnone]
    · simp [hone]
  · exact .inr ((prologueEdits_fit htree hcalls he).2.2 d hd)

theorem sortedEdits_pairwise :
    (sortedEdits settings root calls).Pairwise fun a b => a.stop ≤ b.start :=
  List.pairwise_reverse.mpr (pairwise_sorted_of_apart (fun _ he => editsOf_fit htree hcalls he)
    (editsOf_apart htree hcalls))

theorem emit_code (diagnostics : List Diagnostic) :
    ∃ m, emit settings source root filename calls diagnostics = .ok m ∧
      m.code = splice source 0 (sortedEdits settings root calls) ∧
      m.hooks = calls.map (hookOf settings.marker) := by
  rw [emit_eq]
  split_ifs with hempty
  · refine ⟨_, rfl, ?_, rfl⟩
    rw [List.isEmpty_iff.mp hempty, sortedEdits, editsOf, prologueEdits_nil]
    simp [splice]
  · have happly := apply_eq_splice (fun _ he => editsOf_fit htree hcalls he)
      (editsOf_apart htree hcalls)
    rw [happly]
    exact ⟨_, rfl, rfl, rfl⟩

theorem emit_ok (diagnostics : List Diagnostic) :
    ∃ m, emit settings source root filename calls diagnostics = .ok m := by
  obtain ⟨m, hm, -⟩ := emit_code htree hcalls diagnostics
  exact ⟨m, hm⟩

end Module

/-- Labelling the definitions of a module and giving out tokens changes nothing else in them. -/
theorem unlabelled_of_label {c : Compiler} {files : FileTree} {path : Path} {filename : String}
    {root : Node} {calls : List (Call Interpolation)} {named : List (Call Named)}
    (h : c.label files path filename root calls = .ok named) : named.map unlabelled = calls := by
  obtain ⟨labelled, hlabelled, hnamed⟩ := Compiler.named_of_label h
  obtain ⟨-, rfl⟩ := nameAll_eq_ok_iff.mp hnamed
  rw [List.map_map, ← hlabelled]
  exact List.map_congr_left fun call _ => unlabelled_named _ call

private theorem label_ne_overlap {c : Compiler} {files : FileTree} {path : Path} {filename : String}
    {root : Node} {calls : List (Call Interpolation)} {pos : Int} :
    c.label files path filename root calls ≠ .error (.overlap pos) := by
  unfold Compiler.label
  split_ifs
  · simp
  · split
    · simp
    · split <;> simp

theorem compileTree_ne_overlap {source : Bytes} {root : Node} (htree : TreeOf source root)
    (c : Compiler) (w : Workspace) (filename : String) (path : Path) (pos : Int) :
    c.compileTree w source filename path root ≠ .error (.overlap pos) := by
  unfold Compiler.compileTree
  dsimp only
  cases hl : c.label w.files path filename root (scan c.settings source root filename).calls with
  | error f =>
    intro h
    obtain rfl := Except.error.inj h
    exact label_ne_overlap hl
  | ok calls =>
    obtain ⟨m, hm⟩ :=
      emit_ok htree (unlabelled_of_label hl) (scan c.settings source root filename).diagnostics
    simp [bind, Except.bind, hm, pure, Except.pure]

/-- The ranges of a module fit together: definitions do not overlap, templates lie behind the callee
of their definition, holes in their template and expressions in their hole, and code is inserted
before all definitions. So edits never overlap. -/
theorem ranges_fit_together (settings : Settings) (source : Bytes) (root : Node) (filename : String)
    (htree : TreeOf source root) :
    ((scan settings source root filename).calls.Pairwise fun a b => a.span.Before b.span) ∧
      (∀ call ∈ (scan settings source root filename).calls, call.LaidOut ∧
        call.span.Within (.ofNode root)) ∧
      (∀ calls : List (Call Named), calls.map unlabelled =
        (scan settings source root filename).calls →
        (∀ e ∈ prologueEdits settings root calls,
          0 ≤ e.start ∧ e.start = e.stop ∧ ∀ call ∈ calls, e.stop ≤ call.span.start) ∧
        (editsOf settings root calls).Pairwise Edit.Apart ∧
        ∀ diagnostics, ∃ m, emit settings source root filename calls diagnostics = .ok m) ∧
      ∀ (c : Compiler) (w : Workspace) (pos : Int),
        (∀ path, c.compileTree w source filename path root ≠ .error (.overlap pos)) ∧
        ((∀ chars path d, decode source = .ok chars → w.resolve filename = .ok path →
          Compiler.dialectOf path = .ok d →
          parse d chars = root) → c.compileSource w source filename ≠ .error (.overlap pos)) := by
  obtain ⟨hpairwise, hlaid⟩ := scan_laidOut settings source filename htree.nested htree.calleeFirst
  refine ⟨hpairwise, hlaid,
    fun calls hcalls => ⟨fun e he => ?_, editsOf_apart htree hcalls, emit_ok htree hcalls⟩, ?_⟩
  · obtain ⟨hfits, heq, -⟩ := prologueEdits_fit htree hcalls he
    exact ⟨hfits.nonneg, heq, fun call hcall => (prologueEdits_before he hcall).2⟩
  · intro c w pos
    refine ⟨fun path => compileTree_ne_overlap htree c w filename path pos, fun hparse h => ?_⟩
    unfold Compiler.compileSource at h
    cases hchars : decode source with
    | error f => simp [hchars, bind, Except.bind] at h
    | ok chars =>
      cases hpath : w.resolve filename with
      | error f =>
        simp [hchars, hpath, bind, Except.bind, throw, throwThe, MonadExceptOf.throw] at h
      | ok path =>
        cases hd : Compiler.dialectOf path with
        | error f =>
          simp only [hchars, hpath, hd, bind, Except.bind] at h
          obtain rfl := Except.error.inj h
          simp only [Compiler.dialectOf] at hd
          split at hd <;> simp at hd
        | ok d =>
          simp only [hchars, hpath, hd, bind, Except.bind, hparse chars path d hchars hpath hd] at h
          exact compileTree_ne_overlap htree c w filename path pos h

/-- A definition with parentheses around its function and its object, and another one in a hole of
it. -/
def nestedDefinitions : String :=
  "f((()=>\x7breturn(\x7ba:css\x60$\x7bf(()=>(\x7b\x7d))\x7d$\x7b1,2\x7d\x60,b:css\x60\x60\x7d)\x7d));f(()=>(\x7b\x7d))"

theorem ranges_fit_together_nested :
    let settings : Settings := { Settings.ofTheme "t" with factory := "f" }
    let root := parse .script nestedDefinitions.toList
    let calls := (scan settings (encode nestedDefinitions) root "a.js").calls
    TreeOf (encode nestedDefinitions) root ∧
      calls.map (·.blocks.map (·.interpolations.length)) = [[2, 0], []] ∧
      (calls.Pairwise fun a b => a.span.Before b.span) ∧ ∀ call ∈ calls, call.LaidOut := by
  intro settings root calls
  have hrun : TreeOf (encode nestedDefinitions) root ∧
      calls.map (·.blocks.map (·.interpolations.length)) = [[2, 0], []] := by
    decide +kernel
  obtain ⟨hpairwise, hlaid, -⟩ :=
    ranges_fit_together settings (encode nestedDefinitions) root "a.js" hrun.1
  exact ⟨hrun.1, hrun.2, hpairwise, fun call hcall => (hlaid call hcall).1⟩

end ThemedCss.Output
