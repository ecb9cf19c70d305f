import ThemedCss.Proofs.Dependency.Alike
import ThemedCss.Proofs.Dependency.Classification
import ThemedCss.Proofs.Scope.Enclosed

/-! Programs whose definitions read the same with some chains cut: what was dynamic stays so. -/
namespace ThemedCss.Style
open ThemedCss.Syntax

/-- The theme has what the chain leads to from a name that stands for a part of it. -/
def Parameters.allowed (allows : List String → Bool) (p : Parameters) : ChainCheck :=
  fun x chain => (p.theme.get? x).any fun way => allows (way ++ chain)

end ThemedCss.Style

namespace ThemedCss.Dependency
open ThemedCss.Syntax ThemedCss.Scope ThemedCss.Style

variable {checks : List ChainCheck}

/-- Nodes that read the same, except that chains may be cut. -/
def CutNodes (checks : List ChainCheck) (n m : Node) : Prop :=
  CutReads checks (n.reads []) (m.reads [])

theorem CutNodes.refl (n : Node) : CutNodes checks n n :=
  CutReads.refl _

section Related

variable {R S : Node → Node → Prop}

theorem Definition.Related.imp (h : ∀ n m, R n m → S n m) {d d' : Definition}
    (hd : d.Related R d') : d.Related S d' := by
  cases hd with
  | imported source name => exact .imported source name
  | namespaceOf source => exact .namespaceOf source
  | node hnm => exact .node (h _ _ hnm)
  | unknown => exact .unknown

theorem Definition.Related.refl (h : ∀ n, R n n) (d : Definition) : d.Related R d := by
  cases d with
  | imported source name => exact .imported source name
  | namespaceOf source => exact .namespaceOf source
  | node n => exact .node (h n)
  | unknown => exact .unknown

theorem Module.Related.imp (h : ∀ n m, R n m → S n m) {m m' : Module} (hm : m.Related R m') :
    m.Related S m' :=
  ⟨List.Forall₂.imp (fun _ _ he => ⟨he.1, he.2.imp h⟩) hm.bindings, hm.exports, hm.stars⟩

theorem Module.Related.refl (h : ∀ n, R n n) (m : Module) : m.Related R m :=
  ⟨List.forall₂_same.mpr fun e _ => ⟨rfl, .refl h e.2⟩, rfl, rfl⟩

theorem StyleScope.Related.imp (h : ∀ n m, R n m → S n m) {s s' : StyleScope}
    (hs : s.Related R s') : s.Related S s' := by
  refine ⟨hs.callSite, hs.parameters, List.Forall₂.imp (fun e f he => ⟨he.1, ?_⟩) hs.locals⟩
  rcases Node.rel_cases he.2 with ⟨hn, hm⟩ | ⟨n, m, hn, hm, hnm⟩
  · rw [hn, hm]
    exact .none
  · rw [hn, hm]
    exact .some (h n m hnm)

end Related

/-- The rest of the program is the same, and so is what changes and what is trusted. -/
structure Ground.Cut (checks : List ChainCheck) (g g' : Ground) : Prop where
  module? : ∀ p, Option.Rel
    (fun m m' => m.Related (CutNodes checks) m' ∧ m'.reassigned = m.reassigned)
    (g.module? p) (g'.module? p)
  link : g'.link = g.link
  pureModules : g'.pureModules = g.pureModules
  marker : g'.marker = g.marker
  allows : g'.allows = g.allows
  path : g'.path = g.path
  main : g.main.Related (CutNodes checks) g'.main
  reassigned : g'.main.reassigned = g.main.reassigned

/-- All checks that are made of chains in a program with these style functions. -/
def chainChecks (allows : List String → Bool) (parameters : List Parameters) : List ChainCheck :=
  isPureGlobal :: parameters.map (·.allowed allows)

/-- Questions that definitions ask, with some chains cut. -/
inductive Question.Cut (checks : List ChainCheck) (allows : List String → Bool) :
    Question → Question → Prop
  | unknown : Cut checks allows .unknown .unknown
  | imported (seen : List (Path × String)) (path : Path) (source name : String) :
      Cut checks allows (.imported seen path source name) (.imported seen path source name)
  | atTop (path : Path) {r r' : Read} :
      r.Cut checks r' → Cut checks allows (.atTop path r) (.atTop path r')
  | inStyle {s s' : StyleScope} {r r' : Read} :
      s.Related (CutNodes checks) s' → s.parameters.allowed allows ∈ checks →
      r.Cut checks r' → Cut checks allows (.inStyle s r) (.inStyle s' r')

def Question.isLink : Question → Prop
  | .atTop _ _ | .inStyle _ _ => False
  | _ => True

section Means

variable {g g' : Ground} {q q' : Question} {k : Key}

theorem Ground.Cut.exists_module (hg : g.Cut checks g') {p : Path} {m : Module}
    (hm : g.module? p = some m) :
    ∃ m', g'.module? p = some m' ∧ m.Related (CutNodes checks) m' ∧
      m'.reassigned = m.reassigned := by
  rcases Node.rel_cases (hg.module? p) with ⟨hn, -⟩ | ⟨a, m', ha, hm', hrelated⟩
  · rw [hm] at hn
    cases hn
  · obtain rfl := Option.some.inj (ha.symm.trans hm)
    exact ⟨m', hm', hrelated⟩

theorem Ground.Cut.module?_eq_none (hg : g.Cut checks g') {p : Path} (hm : g.module? p = none) :
    g'.module? p = none := by
  rcases Node.rel_cases (hg.module? p) with ⟨-, hn⟩ | ⟨a, b, ha, -, -⟩
  · exact hn
  · rw [hm] at ha
    cases ha

/-- What is exported does not depend on how definitions read. -/
theorem Means.of_link (hg : g.Cut checks g') (h : Means g q k) (hq : q.isLink) : Means g' q k := by
  induction h with
  | unknown => exact .unknown
  | circular hs => exact .circular hs
  | unreadable hs hm => exact .unreadable hs (hg.module?_eq_none hm)
  | own hs hm he hb =>
    obtain ⟨m', hm', hrelated, -⟩ := hg.exists_module hm
    exact .own hs hm' (hrelated.exports ▸ he) (hrelated.bindings.keys ▸ hb)
  | unbound hs hm he hb =>
    obtain ⟨m', hm', hrelated, -⟩ := hg.exists_module hm
    exact .unbound hs hm' (hrelated.exports ▸ he) (hrelated.bindings.keys ▸ hb)
  | reexported hs hm he _ ih =>
    obtain ⟨m', hm', hrelated, -⟩ := hg.exists_module hm
    exact .reexported hs hm' (hrelated.exports ▸ he) (ih trivial)
  | unlisted hs hm he _ ih =>
    obtain ⟨m', hm', hrelated, -⟩ := hg.exists_module hm
    exact .unlisted hs hm' (hrelated.exports ▸ he) (hrelated.stars ▸ ih trivial)
  | noStar => exact .noStar
  | thisStar _ hk ih => exact .thisStar (ih trivial) hk
  | laterStar _ _ ih ihrest => exact .laterStar (ih trivial) (ihrest trivial)
  | purePackage hr hp => exact .purePackage hr (hg.pureModules ▸ hp)
  | package hr hp => exact .package hr (hg.pureModules ▸ hp)
  | missing hr hl => exact .missing hr (hg.link ▸ hl)
  | found hr hl _ ih => exact .found hr (hg.link ▸ hl) (ih trivial)
  | _ => exact hq.elim

variable {x : String} {chain kept : List String} (pos' : Nat) (hg : g.Cut checks g')
  (hpure : isPureGlobal ∈ checks)
  (hinitial : kept <+: chain)
    (hchecks : ∀ check ∈ checks, check x kept = true → check x chain = true)
include hg hpure hinitial hchecks

/-- Cutting a chain at the top level changes nothing, or makes the answer dynamic. -/
theorem Means.cut_atTop {p : Path} {pos : Nat} (h : Means g (.atTop p (.name x chain pos)) k) :
    ∃ k', Means g' (.atTop p (.name x kept pos')) k' ∧ (k' = k ∨ k' = .dynamic) := by
  -- a name that is not bound is trusted with the cut chain only if it was before
  have hunbound : ∀ {m}, g.module? p = some m → m.bindings.get? x = none →
      (isPureGlobal x chain ∨ x = g.marker → k = .static) →
      ∃ k', Means g' (.atTop p (.name x kept pos')) k' ∧ (k' = k ∨ k' = .dynamic) := by
    intro m hm hunbound hk
    obtain ⟨m', hm', hrelated, -⟩ := hg.exists_module hm
    have hb : m'.bindings.get? x = none := by
      rw [Table.get?_eq_none_iff] at hunbound ⊢
      rwa [hrelated.bindings.keys]
    by_cases ht : isPureGlobal x kept ∨ x = g'.marker
    · refine ⟨.static, .pureGlobal hm' hb ht, .inl (hk ?_).symm⟩
      rw [hg.marker] at ht
      exact ht.imp_left (hchecks _ hpure)
    · exact ⟨.dynamic, .strange hm' hb ht, .inr rfl⟩
  have hspace : ∀ {m m' : Module} {source}, m.Related (CutNodes checks) m' →
      m.bindings.get? x = some (.namespaceOf source) →
      m'.bindings.get? x = some (.namespaceOf source) := by
    intro m m' source hrelated hb
    rcases Node.rel_cases (hrelated.bindings.get? x) with ⟨hn, -⟩ | ⟨d, d', hd, hd', hdd⟩
    · rw [hb] at hn
      cases hn
    · obtain rfl := Option.some.inj (hd.symm.trans hb)
      cases hdd with
      | namespaceOf => exact hd'
  cases h with
  | pureGlobal hm hb ht => exact hunbound hm hb fun _ => rfl
  | strange hm hb ht => exact hunbound hm hb fun h => absurd h ht
  | wholeNamespace hm hb =>
    obtain ⟨m', hm', hrelated, -⟩ := hg.exists_module hm
    obtain rfl := List.prefix_nil.mp hinitial
    exact ⟨.dynamic, .wholeNamespace hm' (hspace hrelated hb), .inr rfl⟩
  | changedNamespace hm hb hc =>
    obtain ⟨m', hm', hrelated, hreassigned⟩ := hg.exists_module hm
    exact ⟨.dynamic, .changedNamespace hm' (hspace hrelated hb) (hreassigned ▸ hc), .inr rfl⟩
  | member hm hb hc hk =>
    obtain ⟨m', hm', hrelated, hreassigned⟩ := hg.exists_module hm
    cases kept with
    | nil => exact ⟨.dynamic, .wholeNamespace hm' (hspace hrelated hb), .inr rfl⟩
    | cons member rest =>
      obtain ⟨rfl, -⟩ := List.cons_prefix_cons.mp hinitial
      exact ⟨k, .member hm' (hspace hrelated hb) (hreassigned ▸ hc) (hk.of_link hg trivial),
        .inl rfl⟩
  | bound hm hb hd =>
    obtain ⟨m', hm', hrelated, -⟩ := hg.exists_module hm
    rcases Node.rel_cases (hrelated.bindings.get? x) with ⟨hn, -⟩ | ⟨d, d', hd', hd'', hdd⟩
    · rw [hb] at hn
      cases hn
    · obtain rfl := Option.some.inj (hd'.symm.trans hb)
      refine ⟨_, .bound hm' hd'' ?_, .inl rfl⟩
      intro source
      cases hdd with
      | namespaceOf source' => exact absurd rfl (hd source')
      | _ => simp

/-- Cutting a chain in a style function changes nothing, or makes the answer dynamic. -/
theorem Means.cut_inStyle {s s' : StyleScope} {pos : Nat} (hs : s.Related (CutNodes checks) s')
    (hallowed : s.parameters.allowed g.allows ∈ checks)
    (h : Means g (.inStyle s (.name x chain pos)) k) :
    ∃ k', Means g' (.inStyle s' (.name x kept pos')) k' ∧ (k' = k ∨ k' = .dynamic) := by
  have hkeys := hs.locals.keys
  have hparameters := hs.parameters
  cases h with
  | ownLocal hl =>
    refine ⟨.local g'.path s'.callSite x, .ownLocal (hkeys ▸ hl), .inl ?_⟩
    rw [hg.path, hs.callSite]
  | changedTheme hl ht hc =>
    exact ⟨.dynamic, .changedTheme (hkeys ▸ hl) (hparameters ▸ ht) (hg.reassigned ▸ hc), .inr rfl⟩
  | @theme _ _ _ _ way hl ht hc ha =>
    by_cases ha' : g'.allows (way ++ kept)
    · exact ⟨.static, .theme (hkeys ▸ hl) (hparameters ▸ ht) (hg.reassigned ▸ hc) ha', .inl rfl⟩
    · exact ⟨.dynamic, .strangeTheme (hkeys ▸ hl) (hparameters ▸ ht) (hg.reassigned ▸ hc) ha',
        .inr rfl⟩
  | @strangeTheme _ _ _ _ way hl ht hc ha =>
    refine ⟨.dynamic, .strangeTheme (hkeys ▸ hl) (hparameters ▸ ht) (hg.reassigned ▸ hc) fun ha' =>
      ha ?_, .inr rfl⟩
    have hcheck := hchecks _ hallowed
    simp only [Parameters.allowed, ht, Option.any_some] at hcheck
    exact hcheck (hg.allows ▸ ha')
  | tag hl ht h => exact ⟨.static, .tag (hkeys ▸ hl) (hparameters ▸ ht) (hparameters ▸ h), .inl rfl⟩
  | parameter hl ht h ho =>
    exact ⟨.dynamic, .parameter (hkeys ▸ hl) (hparameters ▸ ht) (hparameters ▸ h)
      (hparameters ▸ ho), .inr rfl⟩
  | outer hl ht h ho hk =>
    obtain ⟨k', hk', heq⟩ := hk.cut_atTop pos' hg hpure hinitial hchecks
    rw [← hg.path] at hk'
    exact ⟨k', .outer (hkeys ▸ hl) (hparameters ▸ ht) (hparameters ▸ h) (hparameters ▸ ho) hk', heq⟩

omit hinitial hchecks in
theorem Means.cut (hq : q.Cut checks g.allows q') (h : Means g q k) :
    ∃ k', Means g' q' k' ∧ (k' = k ∨ k' = .dynamic) := by
  cases hq with
  | unknown => exact ⟨k, h.of_link hg trivial, .inl rfl⟩
  | imported => exact ⟨k, h.of_link hg trivial, .inl rfl⟩
  | atTop p hr =>
    cases hr with
    | effect => exact ⟨.dynamic, .effect, .inr rfl⟩
    | name _ pos' hinitial hchecks => exact h.cut_atTop pos' hg hpure hinitial hchecks
  | inStyle hs hallowed hr =>
    cases hr with
    | effect => exact ⟨.dynamic, .styleEffect, .inr rfl⟩
    | name _ pos' hinitial hchecks => exact h.cut_inStyle pos' hg hpure hinitial hchecks hs hallowed

end Means

section Asked

variable {allows : List String → Bool}

theorem Module.Related.asked {m m' : Module} (h : m.Related (CutNodes checks) m')
    (hreassigned : m'.reassigned = m.reassigned) (p : Path) (x : String) :
    List.Forall₂ (Question.Cut checks allows) (m.asked p x) (m'.asked p x) := by
  have hunknown : List.Forall₂ (Question.Cut checks allows) [.unknown] [.unknown] :=
    .cons .unknown .nil
  unfold Module.asked
  rw [hreassigned]
  split_ifs
  · exact hunknown
  · rcases Node.rel_cases (h.bindings.get? x) with ⟨hd, hd'⟩ | ⟨d, d', hd, hd', hdd⟩
    · rw [hd, hd']
      exact hunknown
    · rw [hd, hd']
      cases hdd with
      | imported source name => exact .cons (.imported [] p source name) .nil
      | namespaceOf | unknown => exact hunknown
      | node hnm => exact List.rel_map (fun r r' hr => .atTop p hr) hnm

theorem StyleScope.Related.asked {s s' : StyleScope} {m m' : Module}
    (h : s.Related (CutNodes checks) s') (hallowed : s.parameters.allowed allows ∈ checks)
    (hreassigned : m'.reassigned = m.reassigned) (x : String) :
    List.Forall₂ (Question.Cut checks allows) (s.asked m x) (s'.asked m' x) := by
  have hunknown : List.Forall₂ (Question.Cut checks allows) [.unknown] [.unknown] :=
    .cons .unknown .nil
  unfold StyleScope.asked
  rw [hreassigned]
  rcases Node.rel_cases (h.locals.get? x) with ⟨hd, hd'⟩ | ⟨d, d', hd, hd', hdd⟩
  · rw [hd, hd']
    exact hunknown
  · rw [hd, hd']
    cases hdd with
    | none => exact hunknown
    | some hnm =>
      dsimp only
      split_ifs
      · exact hunknown
      · exact List.rel_map (fun r r' hr => .inStyle h hallowed hr) hnm

end Asked

/-- A program with style functions, and the same with some chains cut, where all checks that are
made of chains count. -/
structure Cuts (checks : List ChainCheck) (g : Ground) (scopes : List StyleScope) (g' : Ground)
    (scopes' : List StyleScope) : Prop where
  ground : g.Cut checks g'
  styles : List.Forall₂ (StyleScope.Related (CutNodes checks)) scopes scopes'
  pure : isPureGlobal ∈ checks
  allowed : ∀ s ∈ scopes, s.parameters.allowed g.allows ∈ checks

namespace Cuts

variable {g g' : Ground} {scopes scopes' : List StyleScope} {k d : Key} {q q' : Question}
  (h : Cuts checks g scopes g' scopes')
include h

private theorem asks (hq : Asks g scopes k q) :
    ∃ q', Asks g' scopes' k q' ∧ q.Cut checks g.allows q' := by
  cases hq with
  | @atTop p m x _ hm hq =>
    obtain ⟨m', hm', hrelated, hreassigned⟩ := h.ground.exists_module hm
    obtain ⟨q', hq', hcut⟩ := exists_of_mem_left (hrelated.asked hreassigned p x) hq
    exact ⟨q', .atTop hm' hq', hcut⟩
  | @inStyle s x _ hs hq =>
    obtain ⟨s', hs', hrelated⟩ := exists_of_mem_left h.styles hs
    obtain ⟨q', hq', hcut⟩ :=
      exists_of_mem_left (hrelated.asked (h.allowed s hs) h.ground.reassigned x) hq
    have hasks : Asks g' scopes' (.local g'.path s'.callSite x) q' := .inStyle hs' hq'
    rw [h.ground.path, hrelated.callSite] at hasks
    exact ⟨q', hasks, hcut⟩

theorem asks_back (hq : Asks g' scopes' k q') :
    ∃ q, Asks g scopes k q ∧ q.Cut checks g.allows q' := by
  cases hq with
  | @atTop p m' x _ hm' hq =>
    rcases Node.rel_cases (h.ground.module? p) with ⟨-, hn⟩ | ⟨m, b, hm, hb, hrelated, hreassigned⟩
    · rw [hm'] at hn
      cases hn
    · obtain rfl := Option.some.inj (hb.symm.trans hm')
      obtain ⟨q, hq, hcut⟩ := exists_of_mem_right (hrelated.asked hreassigned p x) hq
      exact ⟨q, .atTop hm hq, hcut⟩
  | @inStyle s' x _ hs' hq =>
    obtain ⟨s, hs, hrelated⟩ := exists_of_mem_right h.styles hs'
    obtain ⟨q, hq, hcut⟩ :=
      exists_of_mem_right (hrelated.asked (h.allowed s hs) h.ground.reassigned x) hq
    refine ⟨q, ?_, hcut⟩
    rw [h.ground.path, hrelated.callSite]
    exact .inStyle hs hq

/-- What depends on something dynamic still does. -/
theorem dynamic (hk : Dynamic g scopes k) : Dynamic g' scopes' k := by
  induction hk with
  | root => exact .root
  | reads hreads _ ih =>
    obtain ⟨q, hq, hmeans⟩ := hreads
    obtain ⟨q', hq', hcut⟩ := h.asks hq
    obtain ⟨d', hd', rfl | rfl⟩ := hmeans.cut h.ground h.pure hcut
    · exact .reads ⟨q', hq', hd'⟩ ih
    · exact .reads ⟨q', hq', hd'⟩ .root

/-- A question with a chain cut leads to where it led before, if anywhere, or to the dynamic
node. -/
theorem means_back (hcut : q.Cut checks g.allows q') (hsome : ∃ d, Means g q d)
    (hk : Means g' q' k) : k = .dynamic ∨ Means g q k := by
  obtain ⟨d, hd⟩ := hsome
  obtain ⟨d', hd', heq⟩ := hd.cut h.ground h.pure hcut
  obtain rfl := hd'.unique hk
  rcases heq with rfl | rfl
  · exact .inr hd
  · exact .inl rfl

omit h in
/-- If each question of the interpolations comes from a question before chains were cut, no fault
comes in. -/
theorem answerable {calls calls' : List (Call Interpolation)}
    (h : Cuts checks g (scopesOf calls) g' (scopesOf calls'))
    (hback : ∀ q', Asked calls' q' → ∃ q, Asked calls q ∧ q.Cut checks g.allows q')
    (ha : Answerable g calls) : Answerable g' calls' := by
  have hreachable : ∀ k, Reachable g' calls' k → k = .dynamic ∨ Reachable g calls k := by
    rintro k ⟨q', d, hq', hd, hpath⟩
    induction hpath with
    | refl =>
      obtain ⟨q, hq, hcut⟩ := hback q' hq'
      exact (h.means_back hcut (ha.1 q hq) hd).imp_right fun hd => ⟨q, d, hq, hd, .refl⟩
    | tail _ hstep ih =>
      obtain ⟨p', hp', hc⟩ := hstep
      rcases ih with rfl | hb
      · cases hp'
      · obtain ⟨p, hp, hcut⟩ := h.asks_back hp'
        refine (h.means_back hcut (ha.2 _ hb p hp) hc).imp_right fun hc => ?_
        obtain ⟨q, e, hq, he, hpath⟩ := hb
        exact ⟨q, e, hq, he, hpath.tail ⟨p, hp, hc⟩⟩
  have hcut : ∀ {q q'}, q.Cut checks g.allows q' → (∃ d, Means g q d) → ∃ d, Means g' q' d := by
    rintro q q' hcut ⟨d, hd⟩
    obtain ⟨d', hd', -⟩ := hd.cut h.ground h.pure hcut
    exact ⟨d', hd'⟩
  refine ⟨fun q' hq' => ?_, fun k hk q' hq' => ?_⟩
  · obtain ⟨q, hq, hqq⟩ := hback q' hq'
    exact hcut hqq (ha.1 q hq)
  · rcases hreachable k hk with rfl | hk
    · cases hq'
    · obtain ⟨q, hq, hqq⟩ := h.asks_back hq'
      exact hcut hqq (ha.2 k hk q hq)

/-- An interpolation that was dynamic still is, unless it was a placeholder and is none any more. -/
theorem label {s s' : StyleScope} (hs : s.Related (CutNodes checks) s')
    (hallowed : s.parameters.allowed g.allows ∈ checks) {i j : Interpolation}
    (hnode : CutNodes checks i.node j.node) (hwrapped : j.wrapped → i.wrapped)
    (hplaceholder : i.placeholder.isSome → j.placeholder.isSome)
    (hi : g.label scopes s i = .dynamic) : g'.label scopes' s' j = .dynamic := by
  unfold Ground.label at hi ⊢
  by_cases hw : i.wrapped
  · rw [if_pos hw] at hi
    cases hi
  rw [if_neg fun hj => hw (hwrapped hj)]
  by_cases hp : j.placeholder.isSome
  · rw [if_pos hp]
  rw [if_neg hw, if_neg fun hi => hp (hplaceholder hi)] at hi
  rw [if_neg hp]
  refine if_pos ?_
  obtain ⟨read, hread, k, hk, hd⟩ :
      ∃ r ∈ i.node.reads [], ∃ k, Means g (.inStyle s r) k ∧ Dynamic g scopes k := by
    by_contra hnot
    rw [if_neg hnot] at hi
    cases hi
  obtain ⟨read', hread', hcut⟩ := exists_of_mem_left hnode hread
  obtain ⟨k', hk', rfl | rfl⟩ := hk.cut h.ground h.pure (.inStyle hs hallowed hcut)
  · exact ⟨read', hread', k', hk', h.dynamic hd⟩
  · exact ⟨read', hread', .dynamic, hk', .root⟩

end Cuts

end ThemedCss.Dependency
