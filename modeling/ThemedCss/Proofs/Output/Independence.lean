import ThemedCss.Proofs.Output.Holes

/-! The code of a compiled module, and what has no influence on it. -/
namespace ThemedCss.Output
open ThemedCss.Syntax ThemedCss.Style ThemedCss.Text

def isHole (n : Node) : Bool :=
  n.named.length == 1 && n.children.all (·.role == .plain)

/-- The difference of modules whose dynamic holes hold different expressions. -/
def dynamicHoles (settings : Settings) (calls : List (Call Named)) (move : Nat → Nat) :
    Difference where
  move := move
  opens := isFactoryCall [settings.factory, runtimeFactory]
  free n m :=
    (dynamicSpans calls).contains (.ofNode n) && isHole n && isHole m && m.hasError == n.hasError

theorem dynamicHoles_free {settings : Settings} {calls : List (Call Named)} {move : Nat → Nat}
    {n m : Node} (h : (dynamicHoles settings calls move).free n m = true) :
    Span.ofNode n ∈ dynamicSpans calls ∧ isHole n = true ∧ isHole m = true ∧
      m.hasError = n.hasError := by
  simpa [dynamicHoles, and_assoc] using h

theorem isHole_iff {n : Node} :
    isHole n = true ↔ n.named.length = 1 ∧ ∀ c ∈ n.children, c.role = .plain := by
  simp [isHole]

theorem dynamicHoles_fair (settings : Settings) (calls : List (Call Named)) (move : Nat → Nat) :
    (dynamicHoles settings calls move).Fair where
  named n m h := by
    obtain ⟨-, hn, hm, -⟩ := dynamicHoles_free h
    exact ⟨(isHole_iff.mp hn).1, (isHole_iff.mp hm).1⟩
  plain n m h := by
    obtain ⟨-, hn, hm, -⟩ := dynamicHoles_free h
    exact ⟨(isHole_iff.mp hn).2, (isHole_iff.mp hm).2⟩
  fault n m h := (dynamicHoles_free h).2.2.2

/-- Every dynamic hole is replaced. -/
theorem dynamicSpans_replaced {settings : Settings} {root : Node} {calls : List (Call Named)}
    {d : Span} (hd : d ∈ dynamicSpans calls) :
    ∃ e ∈ orderedEdits settings root calls, e.start = d.start ∧ e.stop = d.stop := by
  obtain ⟨call, hcall, b, hb, i, hi, hdynamic, rfl⟩ := mem_dynamicSpans.mp hd
  obtain ⟨e, he, hrange⟩ : ∃ e, (replace settings.marker i).edit = some e ∧
      e.start = i.span.start ∧ e.stop = i.span.stop := by
    rw [replace, if_pos hdynamic]
    exact ⟨_, rfl, rfl, rfl⟩
  refine ⟨e, List.mem_append_right _ (List.mem_flatMap.mpr ⟨call, hcall, ?_⟩), hrange⟩
  rw [callEdits_eq]
  exact List.mem_cons_of_mem _ (List.mem_flatMap.mpr ⟨b, hb, List.mem_filterMap.mpr ⟨i, hi, he⟩⟩)

section Labels
variable {settings : Settings} {source source' : Bytes} {root root' : Node} {filename : String}
  {δ : Difference}
  {labelled labelled' : List (Call Labelled)}
  (hlabels : labelled.map (Call.map Labelled.toInterpolation) =
    (scan settings source root filename).calls)
  (hlabels' : labelled'.map (Call.map Labelled.toInterpolation) =
    (scan settings source' root' filename).calls)
  (hsame : labelled'.map marksOf = labelled.map marksOf) (hfair : δ.Fair)
  (hopens : δ.opens = isFactoryCall [settings.factory, runtimeFactory])
    (halike : Node.alike δ false root root' = true)
include hlabels hlabels' hsame hfair hopens halike

private theorem labelled_alike : List.Forall₂ (fun a b =>
    (a.map Labelled.toInterpolation).Alike δ (b.map Labelled.toInterpolation) ∧
      marksOf b = marksOf a)
      labelled labelled' := by
  have hscan : List.Forall₂ (Call.Alike _) (scan settings source root filename).calls
      (scan settings source' root' filename).calls := scan_alike hfair hopens halike
  rw [← hlabels, ← hlabels', List.forall₂_map_left_iff, List.forall₂_map_right_iff] at hscan
  exact hscan.mp (fun a b hab hmark => ⟨hab, hmark⟩) (forall₂_of_map_eq hsame)

/-- Tokens can be given out for both modules or for none. -/
theorem nameAll_alike {calls : List (Call Named)}
    (h : nameAll (fileId filename) labelled = .ok calls) :
    ∃ calls', nameAll (fileId filename) labelled' = .ok calls' ∧
      List.Forall₂ (CallAlike δ) calls calls' := by
  have hall := labelled_alike hlabels hlabels' hsame hfair hopens halike
  obtain ⟨hfresh, rfl⟩ := nameAll_eq_ok_iff.mp h
  have houtlines : labelled'.map Call.outline = labelled.map Call.outline :=
    map_eq_of_forall₂ hall fun a b hab => outline_alike hab.1 hab.2
  refine ⟨_, nameAll_eq_ok_iff.mpr ⟨houtlines ▸ hfresh, rfl⟩, ?_⟩
  refine List.forall₂_map_left_iff.mpr (List.forall₂_map_right_iff.mpr (hall.imp fun a b hab => ?_))
  exact named_alike hab.1 hab.2 _

end Labels

section Modules
variable {settings : Settings} {source source' : Bytes} {root root' : Node} {filename : String}
  {calls calls' : List (Call Named)} {move : Nat → Nat} (htree : TreeOf source root)
    (hmarks : Delimited root)
  (hcalls : Labels settings source root filename calls)
    (hmoves : Moves move (dynamicSpans calls) source source')
include htree hmarks hcalls

/-- The first byte of a definition is not in a dynamic hole. -/
theorem start_not_dynamic {call : Call Named} (hcall : call ∈ calls) {d : Span}
    (hd : d ∈ dynamicSpans calls) : call.span.start < d.start ∨ d.stop ≤ call.span.start := by
  obtain ⟨call', hcall', b, hb, i, hi, -, rfl⟩ := mem_dynamicSpans.mp hd
  have hlaid := (laidOut_of_mem htree hcalls hcall).1
  have hlaid' := (laidOut_of_mem htree hcalls hcall').1
  have hcallee := start_lt_callee hlaid (scan_delimited hmarks (unlabelled_mem hcalls hcall))
  have hhole : i.span.Within b.template := hole_within_template hlaid' hb hi
  have htemplate : b.template.Within call'.span := template_within hlaid' hb
  by_cases hcc : call' = call
  · subst hcc
    have hbehind : call'.callee.Before b.template := template_behind hlaid' hb
    unfold Span.Before Span.Within at *
    omega
  · have hcases := pairwise_or (calls_pairwise htree hcalls) hcall' hcall hcc
    unfold Span.Before Span.Within at *
    omega

include hmoves

private theorem start_moves {call : Call Named} (hcall : call ∈ calls) :
    move call.span.start < move (call.span.start + 1) := by
  have hcallee := start_lt_callee (laidOut_of_mem htree hcalls hcall).1
    (scan_delimited hmarks (unlabelled_mem hcalls hcall))
  have hsize := call_stop_le htree hcalls hcall
  have hbyte := hmoves.byte call.span.start (by omega) fun d hd =>
    start_not_dynamic htree hmarks hcalls hcall hd
  omega

variable (htree' : TreeOf source' root') (hmarks' : Delimited root')
  (hcalls' : Labels settings source' root' filename calls')
  (halike : Node.alike (dynamicHoles settings calls move) false root root' = true)
  (hall : List.Forall₂ (CallAlike (dynamicHoles settings calls move)) calls calls')
include hcalls' halike hall

private theorem orderedEdits_moved :
    List.Forall₂ (Edit.Moved move) (orderedEdits settings root calls)
      (orderedEdits settings root' calls') := by
  have hstarts : List.Forall₂ (fun a b => b.span.start = move a.span.start) calls calls' :=
    hall.imp fun a b hab => congrArg Span.start hab.plain.span
  refine List.rel_append
    (prologueEdits_moved (dynamicHoles_fair settings calls move) settings hmoves.zero hmoves.mono
    (Node.Alike.children_of_outside halike) hstarts fun call hcall =>
      start_moves htree hmarks hcalls hmoves hcall) ?_
  refine List.rel_flatMap (forall₂_mem hall) fun a b ⟨hab, ha, hb⟩ => ?_
  exact callEdits_moved htree hmarks hcalls hcalls' hmoves ha hb
    (fun _ _ h => (dynamicHoles_free h).1) hab
    settings.marker

include htree' hmarks'

/-- What stands in dynamic holes has no influence on the code and the hooks of a module. -/
theorem emit_same (diagnostics' : List Diagnostic) {m : Compiled}
    (hcode : m.code = splice source 0 (sortedEdits settings root calls))
    (hhooks : m.hooks = calls.map (hookOf settings.marker)) :
    ∃ m', emit settings source' root' filename calls' diagnostics' = .ok m' ∧ m'.code = m.code ∧
      m'.hooks = m.hooks := by
  obtain ⟨m', hm', hcode', hhooks'⟩ := emit_code htree' hcalls' diagnostics'
  refine ⟨m', hm', ?_, ?_⟩
  · rw [hcode, hcode', sortedEdits_eq htree hmarks hcalls, sortedEdits_eq htree' hmarks' hcalls']
    have hsplice :=
      hmoves.splice (orderedEdits_moved htree hmarks hcalls hmoves hcalls' halike hall)
        (fun e he => orderedEdits_fit htree hcalls he) (orderedEdits_precede htree hmarks hcalls)
          (Nat.zero_le _)
        (fun e he => (orderedEdits_fit htree hcalls he).nonneg)
        (fun d hd => .inr (dynamicSpans_replaced hd))
    rwa [hmoves.zero] at hsplice
  · rw [hhooks, hhooks']
    refine map_eq_of_forall₂ (forall₂_mem hall) ?_
    intro a b ⟨hab, ha, hb⟩
    exact hookOf_same htree hmarks hcalls hcalls' hmoves ha hb
      (fun _ _ h => (dynamicHoles_free h).1) hab _

end Modules

/-- The code of a compiled module is its source with some ranges replaced: those of the callees, the
dynamic holes and the static expressions of its definitions, and at most one empty range. Bytes that
no replacement touches are copied, among them the calls of the factory that are no definitions. What
stands in dynamic holes has no influence on code and hooks if tokens of an earlier pass stay the
same. -/
theorem emit_replaces_ranges (settings : Settings) (source : Bytes) (root : Node)
    (filename : String) (labelled : List (Call Labelled)) (calls : List (Call Named))
    (diagnostics : List Diagnostic) (htree : TreeOf source root)
    (hlabels : labelled.map (Call.map Labelled.toInterpolation) =
      (scan settings source root filename).calls)
    (htokens : nameAll (fileId filename) labelled = .ok calls) :
    ∃ m edits, emit settings source root filename calls diagnostics = .ok m ∧
      m.code = splice source 0 edits ∧ (edits.Pairwise fun a b => a.stop ≤ b.start) ∧
      edits.Perm (prologueEdits settings root calls ++
        labelled.flatMap (callChanges source (fileId filename) settings.marker)) ∧
      (prologueEdits settings root calls).length ≤ 1 ∧
      (∀ e ∈ prologueEdits settings root calls, e.start = e.stop) ∧
      (∀ lo hi : Nat, lo ≤ hi → (∀ e ∈ edits, e.stop ≤ lo ∨ (hi : Int) ≤ e.start) →
        Copied source edits lo hi m.code) ∧
      (∀ site ∈ candidates settings root, (∀ call ∈ calls, call.span ≠ .ofNode site.call) →
        Copied source edits site.call.start site.call.stop m.code) ∧
      (Delimited root →
        edits = prologueEdits settings root calls ++
          labelled.flatMap (callChanges source (fileId filename) settings.marker) ∧
        ∀ (source' : Bytes) (root' : Node) (labelled' : List (Call Labelled))
          (diagnostics' : List Diagnostic) (move : Nat → Nat), TreeOf source' root' → Delimited root' →
          labelled'.map (Call.map Labelled.toInterpolation) =
            (scan settings source' root' filename).calls →
          Moves move (dynamicSpans calls) source source' →
          Node.alike (dynamicHoles settings calls move) false root root' = true →
          labelled'.map marksOf = labelled.map marksOf →
          ∃ calls' m', nameAll (fileId filename) labelled' = .ok calls' ∧
            emit settings source' root' filename calls' diagnostics' = .ok m' ∧ m'.code = m.code ∧
            m'.hooks = m.hooks) := by
  have hcalls := labels_of_nameAll hlabels htokens
  obtain ⟨m, hm, hcode, hhooks⟩ := emit_code htree hcalls diagnostics
  have hchanges : calls.flatMap (callEdits settings.marker) =
      labelled.flatMap (callChanges source (fileId filename) settings.marker) := by
    obtain ⟨-, rfl⟩ := nameAll_eq_ok_iff.mp htokens
    rw [List.flatMap_map]
    exact List.flatMap_congr fun call hcall => callEdits_named hlabels hcall
  have hperm := sortedEdits_perm settings root calls
  rw [orderedEdits, hchanges] at hperm
  have hcopied : ∀ lo hi : Nat, lo ≤ hi →
      (∀ e ∈ sortedEdits settings root calls, e.stop ≤ lo ∨ (hi : Int) ≤ e.start) →
      Copied source (sortedEdits settings root calls) lo hi m.code := by
    intro lo hi hle haway
    rw [hcode]
    exact splice_frame hle (fun e he => sortedEdits_fit htree hcalls he)
      (sortedEdits_pairwise htree hcalls) haway
  refine ⟨m, _, hm, hcode, sortedEdits_pairwise htree hcalls, hperm, ?_, ?_, hcopied, ?_,
    fun hmarks => ⟨?_, ?_⟩⟩
  · rcases prologueEdits_cases settings root calls with hnone | ⟨e, hone, -⟩
    · simp [hnone]
    · simp [hone]
  · exact fun e he => (prologueEdits_fit htree hcalls he).2.1
  · intro site hsite hother
    refine hcopied _ _ (htree.nested.of_contains (contains_of_mem_candidates hsite).1).le
      fun e he => ?_
    exact site_untouched htree hcalls hsite hother
      ((sortedEdits_perm settings root calls).mem_iff.mp he)
  · rw [sortedEdits_eq htree hmarks hcalls, orderedEdits, hchanges]
  · intro source' root' labelled' diagnostics' move htree' hmarks' hlabels' hmoves halike hsame
    obtain ⟨calls', htokens', hall⟩ :=
      nameAll_alike hlabels hlabels' hsame (dynamicHoles_fair settings calls move) rfl
        halike htokens
    have hcalls' := labels_of_nameAll hlabels' htokens'
    obtain ⟨m', hm', hsameCode⟩ :=
      emit_same htree hmarks hcalls hmoves htree' hmarks' hcalls' halike hall diagnostics'
        hcode hhooks
    exact ⟨calls', m', htokens', hm', hsameCode⟩

def oneHole (expr : String) : String :=
  "let m,__flairCreateStyles;f(()=>(\x7ba:css\x60x$\x7b" ++ expr ++ "\x7dy\x60\x7d))"

def oneHoleSettings : Settings :=
  { Settings.ofTheme "t" with factory := "f", marker := "m" }

def oneHoleTree (expr : String) : Node :=
  parse .script (oneHole expr).toList

def oneHoleLabels (expr : String) : List (Call Labelled) :=
  allDynamic (scan oneHoleSettings (encode (oneHole expr)) (oneHoleTree expr) "a.js").calls

def oneHoleCalls (expr : String) : List (Call Named) :=
  (oneHoleLabels expr).map (Call.named (fileId "a.js"))

theorem nameAll_oneHole {expr : String}
    (h : (names (fileId "a.js")
      (((oneHoleLabels expr).map Call.outline).flatMap Outline.places)).Nodup) :
    nameAll (fileId "a.js") (oneHoleLabels expr) = .ok (oneHoleCalls expr) :=
  nameAll_eq_ok_iff.mpr ⟨fresh_nil.mpr h, rfl⟩

theorem emit_replaces_ranges_longer_hole :
    TreeOf (encode (oneHole "p")) (oneHoleTree "p") ∧ (oneHoleCalls "p").length = 1 ∧
      ∃ calls' m m', nameAll (fileId "a.js") (oneHoleLabels "p") = .ok (oneHoleCalls "p") ∧
        nameAll (fileId "a.js") (oneHoleLabels "p.q") = .ok calls' ∧
        emit oneHoleSettings (encode (oneHole "p")) (oneHoleTree "p") "a.js" (oneHoleCalls "p") [] =
          .ok m ∧
        emit oneHoleSettings (encode (oneHole "p.q")) (oneHoleTree "p.q") "a.js" calls' [] =
          .ok m' ∧
        m'.code = m.code ∧ m'.hooks = m.hooks := by
  have hrun : TreeOf (encode (oneHole "p")) (oneHoleTree "p") ∧ (oneHoleCalls "p").length = 1 ∧
      (names (fileId "a.js")
        (((oneHoleLabels "p").map Call.outline).flatMap Outline.places)).Nodup ∧
      Delimited (oneHoleTree "p") ∧ TreeOf (encode (oneHole "p.q")) (oneHoleTree "p.q") ∧
      Delimited (oneHoleTree "p.q") ∧
      dynamicSpans (oneHoleCalls "p") = [⟨41, 45⟩] ∧
      (oneHoleLabels "p.q").map marksOf = (oneHoleLabels "p").map marksOf ∧
      Node.alike (dynamicHoles oneHoleSettings (oneHoleCalls "p") fun p => if p < 45 then p
        else p + 2) false
        (oneHoleTree "p") (oneHoleTree "p.q") = true := by
    decide +kernel
  obtain ⟨htree, hone, hnames, hmarks, htree', hmarks', hspans, hsame, halike⟩ := hrun
  have hmoves : Moves (fun p => if p < 45 then p else p + 2) (dynamicSpans (oneHoleCalls "p"))
      (encode (oneHole "p"))
      (encode (oneHole "p.q")) := by
    rw [hspans]
    refine ⟨rfl, fun a b hab => ?_, by decide +kernel, by decide +kernel⟩
    split_ifs <;> omega
  have htokens := nameAll_oneHole hnames
  obtain ⟨m, _, hm, -, -, -, -, -, -, -, hrest⟩ :=
    emit_replaces_ranges oneHoleSettings (encode (oneHole "p"))
      (oneHoleTree "p") "a.js" (oneHoleLabels "p") (oneHoleCalls "p") [] htree
        (toInterpolation_allDynamic _) htokens
  obtain ⟨calls', m', htokens', hm', hcode, hhooks⟩ :=
    (hrest hmarks).2 (encode (oneHole "p.q")) (oneHoleTree "p.q")
      (oneHoleLabels "p.q") [] _ htree' hmarks' (toInterpolation_allDynamic _) hmoves halike hsame
  exact ⟨htree, hone, calls', m, m', htokens, htokens', hm, hm', hcode, hhooks⟩

/-- Tokens of an earlier pass stand in dynamic holes and show in the code. -/
theorem kept_token_in_code :
    let labelled := oneHoleLabels "'var(--a)'"
    let labelled' := oneHoleLabels "'var(--b)'"
    let calls := oneHoleCalls "'var(--a)'"
    let calls' := oneHoleCalls "'var(--b)'"
    nameAll (fileId "a.js") labelled = .ok calls ∧ nameAll (fileId "a.js") labelled' = .ok calls' ∧
      Moves id (dynamicSpans calls) (encode (oneHole "'var(--a)'"))
        (encode (oneHole "'var(--b)'")) ∧
      Node.alike (dynamicHoles oneHoleSettings calls id) false (oneHoleTree "'var(--a)'")
        (oneHoleTree "'var(--b)'") ∧
      (labelled'.map (·.blocks.map (·.interpolations.map (·.label)))) =
        labelled.map (·.blocks.map (·.interpolations.map (·.label))) ∧
      ∃ m m', emit oneHoleSettings (encode (oneHole "'var(--a)'")) (oneHoleTree "'var(--a)'") "a.js"
        calls [] = .ok m ∧
        emit oneHoleSettings (encode (oneHole "'var(--b)'")) (oneHoleTree "'var(--b)'") "a.js"
          calls' [] = .ok m' ∧
        m'.code ≠ m.code := by
  intro labelled labelled' calls calls'
  have hrun : TreeOf (encode (oneHole "'var(--a)'")) (oneHoleTree "'var(--a)'") ∧
      Delimited (oneHoleTree "'var(--a)'") ∧
      TreeOf (encode (oneHole "'var(--b)'")) (oneHoleTree "'var(--b)'") ∧
      Delimited (oneHoleTree "'var(--b)'") ∧
      (names (fileId "a.js") ((labelled.map Call.outline).flatMap Outline.places)).Nodup ∧
      (names (fileId "a.js") ((labelled'.map Call.outline).flatMap Outline.places)).Nodup ∧
      dynamicSpans calls = [⟨41, 54⟩] ∧
      Node.alike (dynamicHoles oneHoleSettings calls id) false (oneHoleTree "'var(--a)'")
        (oneHoleTree "'var(--b)'") ∧
      (labelled'.map (·.blocks.map (·.interpolations.map (·.label)))) =
        labelled.map (·.blocks.map (·.interpolations.map (·.label))) ∧
      splice (encode (oneHole "'var(--b)'")) 0
        (orderedEdits oneHoleSettings (oneHoleTree "'var(--b)'") calls')
        ≠ splice (encode (oneHole "'var(--a)'")) 0
          (orderedEdits oneHoleSettings (oneHoleTree "'var(--a)'") calls) := by
    decide +kernel
  obtain ⟨htree, hmarks, htree', hmarks', hnames, hnames', hspans, halike, hlabels, hne⟩ := hrun
  have htokens := nameAll_oneHole hnames
  have htokens' := nameAll_oneHole hnames'
  have hcalls := labels_of_nameAll (toInterpolation_allDynamic _) htokens
  have hcalls' := labels_of_nameAll (toInterpolation_allDynamic _) htokens'
  obtain ⟨m, hm, hcode, -⟩ := emit_code htree hcalls []
  obtain ⟨m', hm', hcode', -⟩ := emit_code htree' hcalls' []
  refine ⟨htokens, htokens', ?_, halike, hlabels, m, m', hm, hm', ?_⟩
  · rw [hspans]
    exact ⟨rfl, fun _ _ hab => hab, by decide +kernel, by decide +kernel⟩
  · rw [hcode, hcode', sortedEdits_eq htree hmarks hcalls, sortedEdits_eq htree' hmarks' hcalls']
    exact hne

end ThemedCss.Output
