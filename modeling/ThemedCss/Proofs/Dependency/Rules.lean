import ThemedCss.Dependency.Classify
import ThemedCss.Proofs.Table

/-! The rules by which names depend on each other, read straight off the files: no graph, no order
and no depth. -/
namespace ThemedCss.Dependency
open ThemedCss.Syntax ThemedCss.Scope ThemedCss.Style

/-- What the rules rest on: the module at each path, where each specifier leads from there, and what
is trusted. -/
structure Ground where
  module? : Path → Option Module
  link : Path → String → Link
  pureModules : List String
  marker : String
  allows : List String → Bool
  path : Path
  main : Module

/-- The files around a module whose tree is known. -/
def Ground.ofTree (files : FileTree) (settings : Settings) (allows : List String → Bool)
    (path : Path) (root : Node) : Ground where
  module? p := if p = path then some (.ofTree files path root) else Program.readModule files p
  link := Link.resolve files
  pureModules := settings.pureModules
  marker := settings.marker
  allows := allows
  path := path
  main := .ofTree files path root

/-- Something a definition asks for. `seen` are the exports that led to the question. -/
inductive Question where
  | unknown
  | exported (seen : List (Path × String)) (path : Path) (name : String)
  | starred (seen : List (Path × String)) (path : Path) (name : String) (sources : List String)
  | imported (seen : List (Path × String)) (path : Path) (source name : String)
  | atTop (path : Path) (read : Read)
  | inStyle (scope : StyleScope) (read : Read)

/-- The node a question leads to. A specifier that cannot be looked up leads nowhere. -/
inductive Means (g : Ground) : Question → Key → Prop
  | unknown : Means g .unknown .dynamic
  | circular {seen p n} : (p, n) ∈ seen → Means g (.exported seen p n) .dynamic
  | unreadable {seen p n} :
      (p, n) ∉ seen → g.module? p = none → Means g (.exported seen p n) .dynamic
  | own {seen p n m own} : (p, n) ∉ seen → g.module? p = some m →
      m.exports.get? n = some (.own own) →
      own ∈ m.bindings.keys → Means g (.exported seen p n) (.global p own)
  | unbound {seen p n m own} :
      (p, n) ∉ seen → g.module? p = some m → m.exports.get? n = some (.own own) →
      own ∉ m.bindings.keys → Means g (.exported seen p n) .dynamic
  | reexported {seen p n m source name k} : (p, n) ∉ seen → g.module? p = some m →
      m.exports.get? n = some (.reexported source name) →
      Means g (.imported ((p, n) :: seen) p source name) k → Means g (.exported seen p n) k
  | unlisted {seen p n m k} : (p, n) ∉ seen → g.module? p = some m → m.exports.get? n = none →
      Means g (.starred ((p, n) :: seen) p n m.stars) k → Means g (.exported seen p n) k
  | noStar {seen p n} : Means g (.starred seen p n []) .dynamic
  | thisStar {seen p n source rest k} : Means g (.imported seen p source n) k → k ≠ .dynamic →
      Means g (.starred seen p n (source :: rest)) k
  | laterStar {seen p n source rest k} :
      Means g (.imported seen p source n) .dynamic → Means g (.starred seen p n rest) k →
      Means g (.starred seen p n (source :: rest)) k
  | purePackage {seen p source n} : ¬Module.isRelative source → source ∈ g.pureModules →
      Means g (.imported seen p source n) .static
  | package {seen p source n} : ¬Module.isRelative source → source ∉ g.pureModules →
      Means g (.imported seen p source n) .dynamic
  | missing {seen p source n} : Module.isRelative source → g.link p source = .missing →
      Means g (.imported seen p source n) .dynamic
  | found {seen p source n target k} : Module.isRelative source → g.link p source = .found target →
      Means g (.exported seen target n) k → Means g (.imported seen p source n) k
  | effect {p pos} : Means g (.atTop p (.effect pos)) .dynamic
  | pureGlobal {p m n chain pos} : g.module? p = some m → m.bindings.get? n = none →
      isPureGlobal n chain ∨ n = g.marker → Means g (.atTop p (.name n chain pos)) .static
  | strange {p m n chain pos} : g.module? p = some m → m.bindings.get? n = none →
      ¬(isPureGlobal n chain ∨ n = g.marker) → Means g (.atTop p (.name n chain pos)) .dynamic
  | wholeNamespace {p m n source pos} :
      g.module? p = some m → m.bindings.get? n = some (.namespaceOf source) →
      Means g (.atTop p (.name n [] pos)) .dynamic
  | changedNamespace {p m n source chain pos} :
      g.module? p = some m → m.bindings.get? n = some (.namespaceOf source) →
      n ∈ m.reassigned → Means g (.atTop p (.name n chain pos)) .dynamic
  | member {p m n source member chain pos k} :
      g.module? p = some m → m.bindings.get? n = some (.namespaceOf source) →
      n ∉ m.reassigned → Means g (.imported [] p source member) k →
      Means g (.atTop p (.name n (member :: chain) pos)) k
  | bound {p m n d chain pos} :
      g.module? p = some m → m.bindings.get? n = some d → (∀ source, d ≠ .namespaceOf source) →
      Means g (.atTop p (.name n chain pos)) (.global p n)
  | styleEffect {s pos} : Means g (.inStyle s (.effect pos)) .dynamic
  | ownLocal {s n chain pos} :
      n ∈ s.locals.keys → Means g (.inStyle s (.name n chain pos)) (.local g.path s.callSite n)
  | changedTheme {s n chain pos way} :
      n ∉ s.locals.keys → s.parameters.theme.get? n = some way → n ∈ g.main.reassigned →
      Means g (.inStyle s (.name n chain pos)) .dynamic
  | theme {s n chain pos way} :
      n ∉ s.locals.keys → s.parameters.theme.get? n = some way → n ∉ g.main.reassigned →
      g.allows (way ++ chain) → Means g (.inStyle s (.name n chain pos)) .static
  | strangeTheme {s n chain pos way} :
      n ∉ s.locals.keys → s.parameters.theme.get? n = some way → n ∉ g.main.reassigned →
      ¬g.allows (way ++ chain) → Means g (.inStyle s (.name n chain pos)) .dynamic
  | tag {s n chain pos} : n ∉ s.locals.keys → s.parameters.theme.get? n = none →
      n = s.parameters.tag → Means g (.inStyle s (.name n chain pos)) .static
  | parameter {s n chain pos} :
      n ∉ s.locals.keys → s.parameters.theme.get? n = none → n ≠ s.parameters.tag →
      n ∈ s.parameters.others → Means g (.inStyle s (.name n chain pos)) .dynamic
  | outer {s n chain pos k} :
      n ∉ s.locals.keys → s.parameters.theme.get? n = none → n ≠ s.parameters.tag →
      n ∉ s.parameters.others → Means g (.atTop g.path (.name n chain pos)) k →
      Means g (.inStyle s (.name n chain pos)) k

section Inversion

variable {g : Ground} {seen : List (Path × String)} {p : Path} {n source : String}
  {chain : List String} {pos : Nat} {k : Key}

@[simp] theorem means_unknown : Means g .unknown k ↔ k = .dynamic :=
  ⟨fun h => by cases h; rfl, fun h => h ▸ .unknown⟩

theorem means_exported_of_mem (h : (p, n) ∈ seen) :
    Means g (.exported seen p n) k ↔ k = .dynamic := by
  refine ⟨fun hk => ?_, fun hk => hk ▸ .circular h⟩
  cases hk with
  | circular | unreadable | unbound => rfl
  | own hs | reexported hs | unlisted hs => exact absurd h hs

theorem means_exported_of_none (hm : g.module? p = none) :
    Means g (.exported seen p n) k ↔ k = .dynamic := by
  refine ⟨fun hk => ?_, fun hk => ?_⟩
  · cases hk with
    | circular | unreadable | unbound => rfl
    | own _ h | reexported _ h | unlisted _ h => simp [hm] at h
  · by_cases hs : (p, n) ∈ seen
    · exact hk ▸ .circular hs
    · exact hk ▸ .unreadable hs hm

theorem means_exported {m : Module} (hs : (p, n) ∉ seen) (hm : g.module? p = some m) :
    Means g (.exported seen p n) k ↔
      match m.exports.get? n with
      | some (.own own) => k = if own ∈ m.bindings.keys then .global p own else .dynamic
      | some (.reexported source name) => Means g (.imported ((p, n) :: seen) p source name) k
      | none => Means g (.starred ((p, n) :: seen) p n m.stars) k := by
  constructor
  · intro hk
    cases hk with
    | circular h => exact absurd h hs
    | unreadable _ h => simp [hm] at h
    | own _ h he hb | unbound _ h he hb =>
      obtain rfl := Option.some.inj (hm.symm.trans h)
      simp [he, hb]
    | reexported _ h he hk | unlisted _ h he hk =>
      obtain rfl := Option.some.inj (hm.symm.trans h)
      simpa [he] using hk
  · intro hk
    split at hk
    next own he =>
      split_ifs at hk with hb
      · exact hk ▸ .own hs hm he hb
      · exact hk ▸ .unbound hs hm he hb
    next he => exact .reexported hs hm he hk
    next he => exact .unlisted hs hm he hk

@[simp] theorem means_starred_nil : Means g (.starred seen p n []) k ↔ k = .dynamic :=
  ⟨fun h => by cases h; rfl, fun h => h ▸ .noStar⟩

theorem means_starred_cons {rest : List String} :
    Means g (.starred seen p n (source :: rest)) k ↔
      (Means g (.imported seen p source n) k ∧ k ≠ .dynamic) ∨
        (Means g (.imported seen p source n) .dynamic ∧ Means g (.starred seen p n rest) k) := by
  constructor
  · intro hk
    cases hk with
    | thisStar hk hd => exact .inl ⟨hk, hd⟩
    | laterStar hd hk => exact .inr ⟨hd, hk⟩
  · rintro (⟨hk, hd⟩ | ⟨hd, hk⟩)
    · exact .thisStar hk hd
    · exact .laterStar hd hk

theorem means_imported :
    Means g (.imported seen p source n) k ↔
      if Module.isRelative source then
        match g.link p source with
        | .missing => k = .dynamic
        | .faulty _ => False
        | .found target => Means g (.exported seen target n) k
      else k = if source ∈ g.pureModules then .static else .dynamic := by
  constructor
  · intro hk
    cases hk with
    | purePackage hr hp | package hr hp => simp [hr, hp]
    | missing hr hl => simp [hr, hl]
    | found hr hl hk => simpa [hr, hl] using hk
  · intro hk
    split_ifs at hk with hr hp
    · split at hk
      next hl => exact hk ▸ .missing hr hl
      next => exact hk.elim
      next hl => exact .found hr hl hk
    · exact hk ▸ .purePackage hr hp
    · exact hk ▸ .package hr hp

@[simp] theorem means_atTop_effect : Means g (.atTop p (.effect pos)) k ↔ k = .dynamic :=
  ⟨fun h => by cases h; rfl, fun h => h ▸ .effect⟩

theorem means_atTop_name {m : Module} (hm : g.module? p = some m) :
    Means g (.atTop p (.name n chain pos)) k ↔
      match m.bindings.get? n with
      | none => k = if isPureGlobal n chain ∨ n = g.marker then .static else .dynamic
      | some (.namespaceOf source) =>
        match chain with
        | [] => k = .dynamic
        | member :: _ =>
          if n ∈ m.reassigned then k = .dynamic else Means g (.imported [] p source member) k
      | some _ => k = .global p n := by
  constructor
  · intro hk
    cases hk with
    | pureGlobal h hb ht | strange h hb ht =>
      obtain rfl := Option.some.inj (hm.symm.trans h)
      simp [hb, ht]
    | wholeNamespace h hb =>
      obtain rfl := Option.some.inj (hm.symm.trans h)
      simp [hb]
    | changedNamespace h hb hc =>
      obtain rfl := Option.some.inj (hm.symm.trans h)
      cases chain <;> simp [hb, hc]
    | member h hb hc hk =>
      obtain rfl := Option.some.inj (hm.symm.trans h)
      simpa [hb, hc] using hk
    | bound h hb hd =>
      obtain rfl := Option.some.inj (hm.symm.trans h)
      rw [hb]
      split <;> simp_all
  · intro hk
    split at hk
    next hb =>
      split_ifs at hk with ht
      · exact hk ▸ .pureGlobal hm hb ht
      · exact hk ▸ .strange hm hb ht
    next hb =>
      cases chain with
      | nil => exact hk ▸ .wholeNamespace hm hb
      | cons member rest =>
        dsimp only at hk
        split_ifs at hk with hc
        · exact hk ▸ .changedNamespace hm hb hc
        · exact .member hm hb hc hk
    next hd hb => exact hk ▸ .bound hm hb hd

@[simp] theorem means_inStyle_effect {s : StyleScope} :
    Means g (.inStyle s (.effect pos)) k ↔ k = .dynamic :=
  ⟨fun h => by cases h; rfl, fun h => h ▸ .styleEffect⟩

theorem means_inStyle_name {s : StyleScope} :
    Means g (.inStyle s (.name n chain pos)) k ↔
      if n ∈ s.locals.keys then k = .local g.path s.callSite n
      else
        match s.parameters.theme.get? n with
        | some way =>
          k = if n ∉ g.main.reassigned ∧ g.allows (way ++ chain) then .static else .dynamic
        | none =>
          if n = s.parameters.tag then k = .static
          else if n ∈ s.parameters.others then k = .dynamic
          else Means g (.atTop g.path (.name n chain pos)) k := by
  constructor
  · intro hk
    cases hk with
    | ownLocal hl => simp [hl]
    | changedTheme hl ht hc | theme hl ht hc ha | strangeTheme hl ht hc ha => simp_all
    | tag hl ht h => simp [hl, ht, ← h]
    | parameter hl ht h ho => simp [hl, ht, h, ho]
    | outer hl ht h ho hk => simpa [hl, ht, h, ho] using hk
  · intro hk
    by_cases hl : n ∈ s.locals.keys
    · rw [if_pos hl] at hk
      exact hk ▸ .ownLocal hl
    rw [if_neg hl] at hk
    split at hk
    next way ht =>
      by_cases hc : n ∈ g.main.reassigned
      · rw [if_neg (by simp [hc])] at hk
        exact hk ▸ .changedTheme hl ht hc
      · split_ifs at hk with ha
        · exact hk ▸ .theme hl ht hc ha.2
        · exact hk ▸ .strangeTheme hl ht hc fun h => ha ⟨hc, h⟩
    next ht =>
      split_ifs at hk with h ho
      · exact hk ▸ .tag hl ht h
      · exact hk ▸ .parameter hl ht h ho
      · exact .outer hl ht h ho hk

/-- A question leads to one node at most. -/
theorem Means.unique {q : Question} (h : Means g q k) : ∀ {j : Key}, Means g q j → j = k := by
  induction h with
  | unknown => exact fun h => means_unknown.mp h
  | circular hs => exact fun h => (means_exported_of_mem hs).mp h
  | unreadable _ hm => exact fun h => (means_exported_of_none hm).mp h
  | own hs hm he hb | unbound hs hm he hb =>
    intro j h
    rw [means_exported hs hm, he] at h
    simpa [hb] using h
  | reexported hs hm he _ ih | unlisted hs hm he _ ih =>
    intro j h
    rw [means_exported hs hm, he] at h
    exact ih h
  | noStar => exact fun h => means_starred_nil.mp h
  | thisStar _ hk ih =>
    intro j h
    rcases means_starred_cons.mp h with ⟨h, -⟩ | ⟨h, -⟩
    · exact ih h
    · exact absurd (ih h).symm hk
  | laterStar _ _ ih ihrest =>
    intro j h
    rcases means_starred_cons.mp h with ⟨h, hj⟩ | ⟨-, h⟩
    · exact absurd (ih h) hj
    · exact ihrest h
  | purePackage hr hp | package hr hp =>
    intro j h
    rw [means_imported, if_neg hr] at h
    simpa [hp] using h
  | missing hr hl =>
    intro j h
    rw [means_imported, if_pos hr, hl] at h
    exact h
  | found hr hl _ ih =>
    intro j h
    rw [means_imported, if_pos hr, hl] at h
    exact ih h
  | effect => exact fun h => means_atTop_effect.mp h
  | pureGlobal hm hb ht | strange hm hb ht =>
    intro j h
    rw [means_atTop_name hm, hb] at h
    simpa [ht] using h
  | wholeNamespace hm hb =>
    intro j h
    rw [means_atTop_name hm, hb] at h
    exact h
  | @changedNamespace p m n source chain pos hm hb hc =>
    intro j h
    rw [means_atTop_name hm, hb] at h
    cases chain with
    | nil => exact h
    | cons => simpa [hc] using h
  | member hm hb hc _ ih =>
    intro j h
    rw [means_atTop_name hm, hb] at h
    dsimp only at h
    rw [if_neg hc] at h
    exact ih h
  | @bound p m n d chain pos hm hb hd =>
    intro j h
    rw [means_atTop_name hm, hb] at h
    cases d with
    | namespaceOf source => exact absurd rfl (hd source)
    | _ => exact h
  | styleEffect => exact fun h => means_inStyle_effect.mp h
  | ownLocal hl =>
    intro j h
    rw [means_inStyle_name, if_pos hl] at h
    exact h
  | changedTheme hl ht hc | theme hl ht hc ha | strangeTheme hl ht hc ha =>
    intro j h
    rw [means_inStyle_name, if_neg hl, ht] at h
    simp_all
  | tag hl ht h =>
    intro j hj
    rw [means_inStyle_name, if_neg hl, ht] at hj
    dsimp only at hj
    rwa [if_pos h] at hj
  | parameter hl ht h ho =>
    intro j hj
    rw [means_inStyle_name, if_neg hl, ht] at hj
    dsimp only at hj
    rwa [if_neg h, if_pos ho] at hj
  | outer hl ht h ho _ ih =>
    intro j hj
    rw [means_inStyle_name, if_neg hl, ht] at hj
    dsimp only at hj
    rw [if_neg h, if_neg ho] at hj
    exact ih hj

end Inversion

def Module.asked (m : Module) (p : Path) (n : String) : List Question :=
  if n ∈ m.reassigned then [.unknown]
  else
    match m.bindings.get? n with
    | some (.imported source name) => [.imported [] p source name]
    | some (.node node) => (node.reads []).map (.atTop p)
    | _ => [.unknown]

def StyleScope.asked (s : StyleScope) (m : Module) (n : String) : List Question :=
  match s.locals.get? n with
  | some (some node) => if n ∈ m.reassigned then [.unknown] else (node.reads []).map (.inStyle s)
  | _ => [.unknown]

inductive Asks (g : Ground) (scopes : List StyleScope) : Key → Question → Prop
  | atTop {p m n q} : g.module? p = some m → q ∈ m.asked p n → Asks g scopes (.global p n) q
  | inStyle {s n q} : s ∈ scopes → q ∈ s.asked g.main n →
      Asks g scopes (.local g.path s.callSite n) q

def Reads (g : Ground) (scopes : List StyleScope) (k d : Key) : Prop :=
  ∃ q, Asks g scopes k q ∧ Means g q d

/-- The least set that holds the dynamic node and each node whose definition reads one of its
nodes. -/
inductive Dynamic (g : Ground) (scopes : List StyleScope) : Key → Prop
  | root : Dynamic g scopes .dynamic
  | reads {k d} : Reads g scopes k d → Dynamic g scopes d → Dynamic g scopes k

theorem dynamic_iff_reaches {g : Ground} {scopes : List StyleScope} {k : Key} :
    Dynamic g scopes k ↔ Relation.ReflTransGen (Reads g scopes) k .dynamic := by
  constructor
  · intro h
    induction h with
    | root => exact .refl
    | reads hr _ ih => exact .head hr ih
  · intro h
    induction h using Relation.ReflTransGen.head_induction_on with
    | refl => exact .root
    | head hr _ ih => exact .reads hr ih

/-- What an interpolation asks for; an earlier pass may have settled it. -/
def questionsOf (s : StyleScope) (i : Interpolation) : List Question :=
  if i.wrapped || i.placeholder.isSome then [] else (i.node.reads []).map (.inStyle s)

def callQuestions (call : Call Interpolation) : List Question :=
  (call.blocks.flatMap (·.interpolations)).flatMap (questionsOf (.ofCall call))

def scopesOf (calls : List (Call Interpolation)) : List StyleScope :=
  calls.map StyleScope.ofCall

def Asked (calls : List (Call Interpolation)) (q : Question) : Prop :=
  ∃ call ∈ calls, ∃ i ∈ call.blocks.flatMap (·.interpolations), q ∈ questionsOf (.ofCall call) i

theorem mem_flatMap_callQuestions {calls : List (Call Interpolation)} {q : Question} :
    q ∈ calls.flatMap callQuestions ↔ Asked calls q := by
  simp only [Asked, callQuestions, List.mem_flatMap]

/-- The node can be reached from what some interpolation reads. -/
def Reachable (g : Ground) (calls : List (Call Interpolation)) (k : Key) : Prop :=
  ∃ q d, Asked calls q ∧ Means g q d ∧ Relation.ReflTransGen (Reads g (scopesOf calls)) d k

/-- Every question that comes up leads somewhere. -/
def Answerable (g : Ground) (calls : List (Call Interpolation)) : Prop :=
  (∀ q, Asked calls q → ∃ k, Means g q k) ∧
    ∀ k, Reachable g calls k → ∀ q, Asks g (scopesOf calls) k q → ∃ d, Means g q d

end ThemedCss.Dependency
