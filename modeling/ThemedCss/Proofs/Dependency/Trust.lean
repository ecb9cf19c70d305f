import ThemedCss.Proofs.Dependency.Classification
import ThemedCss.Proofs.Style.Scan

/-! More trust never makes a static value dynamic. -/
namespace ThemedCss.Dependency
open ThemedCss.Syntax ThemedCss.Scope ThemedCss.Style ThemedCss.Text

/-- What an answer may become when more is trusted: it stays, or it is static. No fault comes in. -/
structure Answer.Upgraded (a b : Answer) : Prop where
  key : b.key = a.key ∨ b.key = .static
  fault : a.fault = none → b.fault = none

namespace Answer.Upgraded

theorem refl (a : Answer) : a.Upgraded a :=
  ⟨.inl rfl, id⟩

theorem of_static {a b : Answer} (hkey : b.key = .static) (hfault : b.fault = none) :
    a.Upgraded b :=
  ⟨.inr hkey, fun _ => hfault⟩

/-- Answers for the same things are upgraded one by one. -/
theorem map {α : Type} {l : List α} {f f' : α → Answer} (h : ∀ x ∈ l, (f x).Upgraded (f' x)) :
    List.Forall₂ Upgraded (l.map f) (l.map f') :=
  List.forall₂_map_right_iff.mpr (List.forall₂_map_left_iff.mpr (List.forall₂_same.mpr h))

/-- A star source that is trusted now ends the search, and one that was known still ends it. -/
theorem firstKnown {ask ask' : String → Answer} (h : ∀ source, (ask source).Upgraded (ask' source))
    (sources : List String) :
    (Answer.firstKnown ask sources).Upgraded (Answer.firstKnown ask' sources) := by
  induction sources with
  | nil => exact refl _
  | cons source rest ih =>
    obtain ⟨hkey, hfault⟩ := h source
    simp only [Answer.firstKnown]
    by_cases hd : (ask source).key = .dynamic
    · rw [if_neg (not_not.mpr hd)]
      rcases hkey with hsame | hstatic
      · rw [if_neg (not_not.mpr (hsame.trans hd))]
        refine ⟨ih.key, fun hnone => ?_⟩
        obtain ⟨hfirst, hrest⟩ := Option.or_eq_none_iff.mp hnone
        exact Option.or_eq_none_iff.mpr ⟨hfault hfirst, ih.fault hrest⟩
      · rw [if_pos (by simp [hstatic])]
        exact ⟨.inr hstatic, fun hnone => hfault (Option.or_eq_none_iff.mp hnone).1⟩
    · have hd' : (ask' source).key ≠ .dynamic := by
        rcases hkey with hsame | hstatic
        · exact hsame ▸ hd
        · simp [hstatic]
      rw [if_pos hd, if_pos hd']
      exact ⟨hkey, hfault⟩

end Answer.Upgraded

section Exports
variable {pureModules pureModules' : List String} (hpure : pureModules ⊆ pureModules')
include hpure

theorem upgraded_importKey {ask ask' : Path → String → Answer}
    (h : ∀ p n, (ask p n).Upgraded (ask' p n)) (m : Module) (source n : String) :
    (importKey pureModules ask m source n).Upgraded (importKey pureModules' ask' m source n) := by
  unfold importKey
  by_cases hr : Module.isRelative source
  · rw [if_pos hr, if_pos hr]
    cases m.links.get? source with
    | none => exact .refl _
    | some link =>
      cases link with
      | missing | faulty => exact .refl _
      | found target => exact ⟨(h target n).key, (h target n).fault⟩
  · rw [if_neg hr, if_neg hr]
    by_cases hp : source ∈ pureModules
    · simp only [List.contains_iff_mem, hp, hpure hp, if_true]
      exact .refl _
    · simp only [List.contains_iff_mem, hp, if_false]
      split_ifs
      · exact .of_static rfl rfl
      · exact .refl _

private theorem upgraded_exportKey (program : Program) (depth : Nat) (seen : List (Path × String))
    (p : Path) (n : String) :
    (exportKey program pureModules depth seen p n).Upgraded
      (exportKey program pureModules' depth seen p n) := by
  induction depth generalizing seen p n with
  | zero => exact .refl _
  | succ depth ih =>
    simp only [exportKey]
    split_ifs
    · exact .refl _
    cases program.module? p with
    | none => exact .refl _
    | some m =>
      dsimp only
      cases m.exports.get? n with
      | none => exact .firstKnown (fun source => upgraded_importKey hpure (ih _) m source n) m.stars
      | some e =>
        cases e with
        | own name => exact .refl _
        | reexported source name => exact upgraded_importKey hpure (ih _) m source name

end Exports

/-- The second context trusts all that the first one trusts, and else they are the same. -/
structure Context.Trusts (c c' : Context) : Prop where
  program : c'.program = c.program
  marker : c'.settings.marker = c.settings.marker
  path : c'.path = c.path
  main : c'.main = c.main
  pureModules : c.settings.pureModules ⊆ c'.settings.pureModules
  allows : ∀ chain, c.allows chain → c'.allows chain

section Reads
variable {c c' : Context} (h : c.Trusts c')
include h

theorem Context.Trusts.importKey (m : Module) (source n : String) :
    (c.importKey m source n).Upgraded (c'.importKey m source n) := by
  refine upgraded_importKey h.pureModules (fun p n => ?_) m source n
  unfold Context.exportKey
  rw [h.program]
  exact upgraded_exportKey h.pureModules _ _ _ _ _

theorem Context.Trusts.globalKey (p : Path) (m : Module) (r : Read) :
    (c.globalKey p m r).Upgraded (c'.globalKey p m r) := by
  cases r with
  | effect pos => exact .refl _
  | name n chain pos =>
    unfold Context.globalKey
    rw [h.marker]
    dsimp only
    cases m.bindings.get? n with
    | none => exact .refl _
    | some d =>
      cases d with
      | imported | node | unknown => exact .refl _
      | namespaceOf source =>
        cases chain with
        | nil => exact .refl _
        | cons member rest =>
          dsimp only
          split_ifs
          · exact .refl _
          · exact h.importKey m source member

theorem Context.Trusts.localKey (s : StyleScope) (r : Read) :
    (c.localKey s r).Upgraded (c'.localKey s r) := by
  unfold Context.localKey
  rw [h.path, h.main]
  cases r with
  | effect pos => exact .refl _
  | name n chain pos =>
    dsimp only
    by_cases hlocal : s.locals.has n
    · rw [if_pos hlocal, if_pos hlocal]
      exact .refl _
    rw [if_neg hlocal, if_neg hlocal]
    cases s.parameters.theme.get? n with
    | some way =>
      dsimp only
      split_ifs with hchanged ha ha'
      · exact .refl _
      · exact .refl _
      · exact absurd (h.allows _ ha) ha'
      · exact .of_static rfl rfl
      · exact .refl _
    | none =>
      dsimp only
      split_ifs
      · exact .refl _
      · exact .refl _
      · exact h.globalKey _ _ _

/-- Every node reads the same in both contexts, up to trust. -/
theorem Context.Trusts.reads (scopes : List StyleScope) (k : Key) :
    List.Forall₂ Answer.Upgraded (c.reads scopes k) (c'.reads scopes k) := by
  have hself : ∀ answers : List Answer, List.Forall₂ Answer.Upgraded answers answers :=
    fun answers => List.forall₂_same.mpr fun a _ => .refl a
  cases k with
  | dynamic | static => exact hself _
  | global p n =>
    simp only [Context.reads, Context.globalReads, h.program]
    cases c.program.module? p with
    | none => exact hself _
    | some m =>
      dsimp only
      split_ifs
      · exact hself _
      cases m.bindings.get? n with
      | none => exact hself _
      | some d =>
        cases d with
        | imported source name => exact .cons (h.importKey m source name) .nil
        | node node => exact Answer.Upgraded.map fun r _ => h.globalKey p m r
        | namespaceOf | unknown => exact hself _
  | «local» p callSite n =>
    simp only [Context.reads, Context.localReads, h.main]
    cases scopes.find? (·.callSite = callSite) with
    | none => exact hself _
    | some s =>
      dsimp only
      cases s.locals.get? n with
      | none => exact hself _
      | some node =>
        cases node with
        | none => exact hself _
        | some node =>
          dsimp only
          split_ifs
          · exact hself _
          · exact Answer.Upgraded.map fun r _ => h.localKey s r

theorem Context.Trusts.interpolationReads (s : StyleScope) (i : Interpolation) :
    List.Forall₂ Answer.Upgraded (interpolationReads c s i) (interpolationReads c' s i) := by
  unfold Dependency.interpolationReads
  split_ifs
  · exact .nil
  · exact Answer.Upgraded.map fun r _ => h.localKey s r

/-- An answer of the second context comes from one of the first. -/
theorem Context.Trusts.exists_callReads {calls : List (Call Interpolation)} {b : Answer}
    (hb : b ∈ calls.flatMap (callReads c')) : ∃ a ∈ calls.flatMap (callReads c), a.Upgraded b := by
  simp only [callReads, List.mem_flatMap] at hb ⊢
  obtain ⟨call, hcall, i, hi, hb⟩ := hb
  obtain ⟨a, ha, hab⟩ := exists_of_mem_right (h.interpolationReads _ i) hb
  exact ⟨a, ⟨call, hcall, i, hi, ha⟩, hab⟩

end Reads

section Graphs
variable {c c' : Context} {g : Ground} {calls : List (Call Interpolation)}

theorem edge_graphOf {k d : Key} :
    (graphOf c calls).Edge k d ↔
      k ∈ found c calls ∧ ∃ a ∈ c.reads (scopesOf calls) k, a.key = d := by
  constructor
  · rintro ⟨deps, hmem, hd⟩
    obtain ⟨⟨j, answers⟩, hj, heq⟩ := List.mem_map.mp hmem
    obtain ⟨rfl, rfl⟩ := Prod.mk.inj heq
    obtain ⟨hfound, rfl⟩ := mem_explore.mp hj
    exact ⟨hfound, List.mem_map.mp (List.mem_eraseDups.mp hd)⟩
  · rintro ⟨hk, hd⟩
    exact ⟨_, List.mem_map.mpr ⟨(k, _), mem_explore.mpr ⟨hk, rfl⟩, rfl⟩,
      List.mem_eraseDups.mpr (List.mem_map.mpr hd)⟩

theorem static_not_mem_reaching : Key.static ∉ (graphOf c calls).reaching .dynamic := by
  rw [Graph.mem_reaching]
  intro hpath
  rcases hpath.cases_head with heq | ⟨d, hedge, -⟩
  · simp at heq
  · obtain ⟨-, a, ha, -⟩ := edge_graphOf.mp hedge
    simp [Context.reads] at ha

variable (hc : c.Holds g) (h : c.Trusts c')
include hc h

/-- With more trust no new node comes up. -/
theorem Context.Trusts.found_subset {k : Key} (hk : k ∈ found c' calls) : k ∈ found c calls := by
  have hstep : ∀ {a b : Answer}, a.key ∈ found c calls → a.Upgraded b → b.key ∈ found c calls := by
    intro a b ha hab
    rcases hab.key with hsame | hstatic
    · exact hsame ▸ ha
    · exact hstatic ▸ root_mem_explore.2
  obtain rfl | rfl | ⟨j, hj, hjk⟩ := exists_path_of_mem_explore hk
  · exact root_mem_explore.1
  · exact root_mem_explore.2
  · clear hk
    induction hjk with
    | refl =>
      obtain ⟨b, hb, rfl⟩ := List.mem_map.mp hj
      obtain ⟨a, ha, hab⟩ := h.exists_callReads hb
      exact hstep ((found_closed hc).1 a ha) hab
    | tail _ hread ih =>
      obtain ⟨b, hb, rfl⟩ := hread
      obtain ⟨a, ha, hab⟩ := exists_of_mem_right (h.reads _ _) hb
      exact hstep ((found_closed hc).2 _ ih a ha) hab

/-- With more trust no fault comes up. -/
theorem Context.Trusts.faultless (hf : ∀ a ∈ allAnswers c calls, a.fault = none) {b : Answer}
    (hb : b ∈ allAnswers c' calls) : b.fault = none := by
  rcases mem_allAnswers.mp hb with hb | ⟨k, hk, hb⟩
  · obtain ⟨a, ha, hab⟩ := h.exists_callReads hb
    exact hab.fault (hf a (mem_allAnswers.mpr (.inl ha)))
  · obtain ⟨a, ha, hab⟩ := exists_of_mem_right (h.reads _ _) hb
    exact hab.fault (hf a (mem_allAnswers.mpr (.inr ⟨k, h.found_subset hc hk, ha⟩)))

/-- A node that is dynamic in spite of more trust was dynamic before: a path to the dynamic root
never goes through the static one, so all its steps were there. -/
theorem Context.Trusts.mem_reaching {k : Key} (hk : k ∈ found c calls)
    (hd : k ∈ (graphOf c' calls).reaching .dynamic) : k ∈ (graphOf c calls).reaching .dynamic := by
  rw [Graph.mem_reaching] at hd ⊢
  induction hd using Relation.ReflTransGen.head_induction_on with
  | refl => exact .refl
  | head hedge hpath ih =>
    obtain ⟨-, b, hb, rfl⟩ := edge_graphOf.mp hedge
    obtain ⟨a, ha, hab⟩ := exists_of_mem_right (h.reads _ _) hb
    rcases hab.key with hsame | hstatic
    · rw [hsame] at ih
      exact .head (edge_graphOf.mpr ⟨hk, a, ha, rfl⟩) (ih ((found_closed hc).2 _ hk a ha))
    · rw [hstatic] at hpath
      exact absurd (Graph.mem_reaching.mpr hpath) static_not_mem_reaching

theorem Context.Trusts.labelOf {call : Call Interpolation} (hcall : call ∈ calls)
    {b : Block Interpolation} (hb : b ∈ call.blocks) {i : Interpolation} (hi : i ∈ b.interpolations)
    (hs : labelOf c ((graphOf c calls).reaching .dynamic) (.ofCall call) i = .static) :
    Dependency.labelOf c' ((graphOf c' calls).reaching .dynamic) (.ofCall call) i = .static := by
  unfold Dependency.labelOf at hs ⊢
  split_ifs at hs ⊢ with hw hp hany hany'
  · rfl
  · obtain ⟨b', hb', hd'⟩ := List.any_eq_true.mp hany
    obtain ⟨a, ha, hab⟩ := exists_of_mem_right (h.interpolationReads _ i) hb'
    rw [List.contains_iff_mem] at hd'
    rcases hab.key with hsame | hstatic
    · have hfound : a.key ∈ found c calls := by
        refine (found_closed hc).1 a ?_
        simp only [callReads, List.mem_flatMap]
        exact ⟨call, hcall, i, ⟨b, hb, hi⟩, ha⟩
      refine absurd (List.any_eq_true.mpr ⟨a, ha, ?_⟩) hany'
      exact List.contains_iff_mem.mpr (h.mem_reaching hc hfound (hsame ▸ hd'))
    · rw [hstatic] at hd'
      exact absurd hd' static_not_mem_reaching
  · rfl

end Graphs

def labelsOf (calls : List (Call Labelled)) : List Label :=
  calls.flatMap fun call => call.blocks.flatMap fun b => b.interpolations.map (·.label)

section Labels
variable {c c' : Context} {dynamic dynamic' : List Key} {calls : List (Call Interpolation)}

theorem toInterpolation_labelCall (c : Context) (dynamic : List Key)
    (calls : List (Call Interpolation)) :
    (calls.map (labelCall c dynamic)).map (Call.map Labelled.toInterpolation) = calls := by
  simp [labelCall, Call.map, Block.map, Function.comp_def]

/-- What holds of the two labels of each interpolation holds along the lists of labels. -/
theorem labelsOf_forall₂ {R : Label → Label → Prop}
    (h : ∀ call ∈ calls, ∀ b ∈ call.blocks, ∀ i ∈ b.interpolations,
      R (labelOf c dynamic (.ofCall call) i) (labelOf c' dynamic' (.ofCall call) i)) :
    List.Forall₂ R (labelsOf (calls.map (labelCall c dynamic)))
      (labelsOf (calls.map (labelCall c' dynamic'))) := by
  simp only [labelsOf, labelCall, Call.map, Block.map, List.flatMap_map, List.map_map]
  refine forall₂_flatMap fun call hcall => forall₂_flatMap fun b hb => ?_
  exact List.forall₂_map_right_iff.mpr
    (List.forall₂_map_left_iff.mpr (List.forall₂_same.mpr (h call hcall b hb)))

private theorem map_labelCall_congr (h : ∀ call ∈ calls, ∀ b ∈ call.blocks, ∀ i ∈ b.interpolations,
      labelOf c dynamic (.ofCall call) i = labelOf c' dynamic' (.ofCall call) i) :
    calls.map (labelCall c dynamic) = calls.map (labelCall c' dynamic') := by
  refine List.map_congr_left fun call hcall => ?_
  exact callMap_congr fun b hb i hi => by rw [h call hcall b hb i hi]

end Labels

theorem Context.trusts_ofTree (files : FileTree) {settings settings' : Settings}
    {allows allows' : List String → Bool} (path : Path) (root : Node)
    (hmarker : settings'.marker = settings.marker)
    (hpure : settings.pureModules ⊆ settings'.pureModules)
    (hallows : ∀ chain, allows chain → allows' chain) :
    (ofTree files settings allows path root).Trusts (ofTree files settings' allows' path root) :=
  ⟨rfl, hmarker, rfl, rfl, hpure, hallows⟩

/-- With more pure modules and more members of the theme, what could be classified still can be, and
what was static stays static. So labels depend on the theme only through the members it has. -/
theorem classify_static_of_more_trust (files : FileTree) (settings : Settings)
    (pureModules : List String) (allows allows' : List String → Bool) (path : Path) (root : Node)
    (calls : List (Call Interpolation)) (r : Classification)
    (hpure : settings.pureModules ⊆ pureModules) (hallows : ∀ chain, allows chain → allows' chain)
    (hr : classify files settings allows path root calls = .ok r) :
    ∃ r', classify files { settings with pureModules } allows' path root calls = .ok r' ∧
      r.calls.map (Call.map Labelled.toInterpolation) = calls ∧
      r'.calls.map (Call.map Labelled.toInterpolation) = calls ∧
      List.Forall₂ (fun l l' => l = .static → l' = .static) (labelsOf r.calls) (labelsOf r'.calls) ∧
      (pureModules ⊆ settings.pureModules → (∀ chain, allows' chain → allows chain) →
        r'.calls = r.calls) := by
  obtain ⟨c, hcdef⟩ : ∃ c, c = Context.ofTree files settings allows path root := ⟨_, rfl⟩
  obtain ⟨c', hcdef'⟩ : ∃ c', c' =
      Context.ofTree files { settings with pureModules } allows' path root := ⟨_, rfl⟩
  have hc := hcdef ▸ Context.holds_ofTree files settings allows path root
  have hc' := hcdef' ▸ Context.holds_ofTree files { settings with pureModules } allows' path root
  have htrusts : c.Trusts c' := by
    rw [hcdef, hcdef']
    exact Context.trusts_ofTree files path root rfl hpure hallows
  obtain ⟨hf, _, hok⟩ | ⟨-, f, herr⟩ := classify_eq files settings allows path root calls hcdef
  swap
  · rw [herr] at hr
    simp at hr
  obtain rfl := Except.ok.inj (hok.symm.trans hr)
  obtain ⟨-, _, hok'⟩ | ⟨hfault, -⟩ :=
    classify_eq files { settings with pureModules } allows' path root calls hcdef'
  swap
  · exact absurd (fun a ha => htrusts.faultless hc hf ha) hfault
  refine ⟨_, hok', toInterpolation_labelCall _ _ _, toInterpolation_labelCall _ _ _, ?_,
    fun hpure' hallows' => ?_⟩
  · exact labelsOf_forall₂ fun call hcall b hb i hi => htrusts.labelOf hc hcall hb hi
  · have htrusts' : c'.Trusts c := by
      rw [hcdef, hcdef']
      exact Context.trusts_ofTree files path root rfl hpure' hallows'
    refine map_labelCall_congr fun call hcall b hb i hi => ?_
    have hmp := htrusts.labelOf hc hcall hb hi
    have hmpr := htrusts'.labelOf hc' hcall hb hi
    generalize labelOf c _ _ i = l at hmp hmpr ⊢
    generalize labelOf c' _ _ i = l' at hmp hmpr ⊢
    cases l <;> cases l' <;> simp_all

/-- A module that exports all of a package, and all of another module. -/
def twoStars : FileTree :=
  ⟨[(["b.js"], .file (encode "export*from'p';export*from'./c'")),
    (["c.js"], .file (encode "export let x=1"))], [], []⟩

/-- A style definition that reads an export of the module above and a member of the theme. -/
def starAndTheme : String :=
  "import\x7bx\x7dfrom'./b';f((\x7bcss,theme\x7d)=>(\x7br:css\x60$\x7bx\x7d$\x7btheme.a\x7d\x60\x7d))"

theorem classify_static_of_more_trust_star :
    let settings : Settings := { Settings.ofTheme "t" with factory := "f" }
    let root := parse .script starAndTheme.toList
    let path : Path := ⟨true, ["a.js"]⟩
    let calls := (scan settings (encode starAndTheme) root "a.js").calls
    settings.pureModules ⊆ ["p"] ∧
      ∃ r r', classify twoStars settings (fun _ => false) path root calls = .ok r ∧
        labelsOf r.calls = [.static, .dynamic] ∧
        classify twoStars { settings with pureModules := ["p"] } (fun _ => true) path root calls =
          .ok r' ∧
        List.Forall₂ (fun l l' => l = .static → l' = .static) (labelsOf r.calls)
          (labelsOf r'.calls) := by
  intro settings root path calls
  have hrun : (classify twoStars settings (fun _ => false) path root calls).toOption.map
      (labelsOf ·.calls) = some [.static, .dynamic] := by
    decide +kernel
  have hpure : settings.pureModules ⊆ ["p"] := List.nil_subset _
  cases hr : classify twoStars settings (fun _ => false) path root calls with
  | error f =>
    rw [hr] at hrun
    cases hrun
  | ok r =>
    rw [hr] at hrun
    obtain ⟨r', hr', -, -, hlabels, -⟩ :=
      classify_static_of_more_trust twoStars settings ["p"] (fun _ => false)
        (fun _ => true) path root calls r hpure (fun _ _ => rfl) hr
    exact ⟨hpure, r, r', rfl, Option.some.inj hrun, hr', hlabels⟩

end ThemedCss.Dependency
