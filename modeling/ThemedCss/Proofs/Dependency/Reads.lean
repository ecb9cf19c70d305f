import ThemedCss.Proofs.Dependency.Answers

/-! What the nodes of the graph read, as answered and as the rules say. -/
namespace ThemedCss.Dependency
open ThemedCss.Syntax ThemedCss.Scope ThemedCss.Style

structure Context.Holds (c : Context) (g : Ground) : Prop where
  loaded : c.program.Loaded g
  pureModules : c.settings.pureModules = g.pureModules
  marker : c.settings.marker = g.marker
  allows : c.allows = g.allows
  path : c.path = g.path
  main : c.main = g.main

theorem Context.holds_ofTree (files : FileTree) (settings : Settings) (allows : List String → Bool)
    (path : Path) (root : Node) :
    (Context.ofTree files settings allows path root).Holds
      (.ofTree files settings allows path root) := by
  have hl := Program.loaded_ofTree files settings allows path root
  refine ⟨hl, rfl, rfl, rfl, rfl, ?_⟩
  have hm : (Program.ofTree files path root).module? path = some (.ofTree files path root) :=
    (hl.module path hl.main.1).trans hl.main.2
  simp only [Context.ofTree, hm, Option.getD_some, Ground.ofTree]

theorem exists_of_mem_forall₂ {α β : Type} {R : α → β → Prop} {l : List α} {m : List β}
    (h : List.Forall₂ R l m) {b : β} (hb : b ∈ m) : ∃ a ∈ l, R a b := by
  induction h with
  | nil => cases hb
  | cons hab _ ih =>
    rcases List.mem_cons.mp hb with rfl | hb
    · exact ⟨_, List.mem_cons_self, hab⟩
    · obtain ⟨a, ha, hab⟩ := ih hb
      exact ⟨a, List.mem_cons_of_mem _ ha, hab⟩

/-- The answers are those to the questions: one for each, and no others. -/
def TellAll (g : Ground) (answers : List Answer) (asked : Question → Prop) : Prop :=
  (∀ a ∈ answers, ∃ q, asked q ∧ a.Tells g q) ∧ ∀ q, asked q → ∃ a ∈ answers, a.Tells g q

namespace TellAll

variable {g : Ground} {answers : List Answer} {asked : Question → Prop}

theorem of_forall₂ {R : Question → Answer → Prop} {questions : List Question}
    (h : List.Forall₂ R questions answers) (hR : ∀ q a, R q a → a.Tells g q) :
    TellAll g answers (· ∈ questions) := by
  constructor
  · intro a ha
    obtain ⟨q, hq, hqa⟩ := exists_of_mem_forall₂ h ha
    exact ⟨q, hq, hR q a hqa⟩
  · intro q hq
    obtain ⟨a, ha, hqa⟩ := exists_of_mem_forall₂ h.flip hq
    exact ⟨a, ha, hR q a hqa⟩

/-- No answer has a fault exactly if every question leads somewhere. -/
theorem faultless_iff (h : TellAll g answers asked) :
    (∀ a ∈ answers, a.fault = none) ↔ ∀ q, asked q → ∃ k, Means g q k := by
  constructor
  · intro hf q hq
    obtain ⟨a, ha, hq⟩ := h.2 q hq
    exact ⟨a.key, (hq _).mpr ⟨hf a ha, rfl⟩⟩
  · intro hm a ha
    obtain ⟨q, hq, haq⟩ := h.1 a ha
    obtain ⟨k, hk⟩ := hm q hq
    exact ((haq k).mp hk).1

/-- The questions lead to the nodes of the answers that have no fault. -/
theorem exists_means_iff (h : TellAll g answers asked) {k : Key} :
    (∃ q, asked q ∧ Means g q k) ↔ ∃ a ∈ answers, a.fault = none ∧ a.key = k := by
  constructor
  · rintro ⟨q, hq, hk⟩
    obtain ⟨a, ha, haq⟩ := h.2 q hq
    obtain ⟨hf, rfl⟩ := (haq k).mp hk
    exact ⟨a, ha, hf, rfl⟩
  · rintro ⟨a, ha, hf, rfl⟩
    obtain ⟨q, hq, haq⟩ := h.1 a ha
    exact ⟨q, hq, (haq _).mpr ⟨hf, rfl⟩⟩

end TellAll

variable {c : Context} {g : Ground}

private theorem tells_dynamic : Answer.dynamic.Tells g .unknown :=
  Answer.tells_of_eq fun _ => means_unknown

theorem Context.tells_importKey (hc : c.Holds g) {p : Path} {m : Module} {source n : String}
    (hp : p ∈ Table.keys c.program) (hm : g.module? p = some m) (hs : source ∈ m.sources) :
    (c.importKey m source n).Tells g (.imported [] p source n) := by
  unfold Context.importKey
  rw [hc.pureModules]
  refine Dependency.tells_importKey hc.loaded hp hm hs fun q hq => ?_
  unfold Context.exportKey
  rw [hc.pureModules]
  exact tells_exportKey hc.loaded hq

theorem Context.tells_globalKey (hc : c.Holds g) {p : Path} {m : Module}
    (hp : p ∈ Table.keys c.program) (hm : g.module? p = some m) (r : Read) :
    (c.globalKey p m r).Tells g (.atTop p r) := by
  cases r with
  | effect pos => exact Answer.tells_of_eq fun _ => means_atTop_effect
  | name n chain pos =>
    intro k
    rw [means_atTop_name hm, globalKey]
    cases hb : m.bindings.get? n with
    | none =>
      by_cases ht : isPureGlobal n chain ∨ n = g.marker
      · have ht' : (isPureGlobal n chain || decide (n = c.settings.marker)) = true := by
          simpa [hc.marker] using ht
        simp [ht, ht']
      · have ht' : (isPureGlobal n chain || decide (n = c.settings.marker)) = false := by
          simpa [hc.marker] using ht
        simp [ht, ht', Answer.dynamic]
    | some d =>
      cases d with
      | namespaceOf source =>
        cases chain with
        | nil => simp [Answer.dynamic]
        | cons member rest =>
          by_cases hr : n ∈ m.reassigned
          · simp [hr, Answer.dynamic]
          · simpa [hr] using tells_importKey hc hp hm (Module.mem_sources_of_namespaceOf hb) k
      | imported | node | unknown => simp

theorem Context.tells_localKey (hc : c.Holds g) (s : StyleScope) (r : Read) :
    (c.localKey s r).Tells g (.inStyle s r) := by
  obtain ⟨hp, hm⟩ := hc.loaded.main
  cases r with
  | effect pos => exact Answer.tells_of_eq fun _ => means_inStyle_effect
  | name n chain pos =>
    intro k
    rw [means_inStyle_name, localKey, hc.path, hc.main, hc.allows]
    by_cases hl : n ∈ s.locals.keys
    · simp [hl, Table.has_iff.mpr hl]
    simp only [hl, Table.has_eq_false.mpr hl, Bool.false_eq_true, if_false]
    cases ht : s.parameters.theme.get? n with
    | some way =>
      by_cases hr : n ∈ g.main.reassigned
      · simp [hr, Answer.dynamic]
      · by_cases ha : g.allows (way ++ chain) <;> simp [hr, ha, Answer.dynamic]
    | none =>
      by_cases htag : n = s.parameters.tag
      · simp [htag]
      by_cases ho : n ∈ s.parameters.others
      · simp [htag, ho, Answer.dynamic]
      simpa [htag, ho] using tells_globalKey hc hp hm (.name n chain pos) k

/-- What is answered to the questions of definitions and interpolations. -/
inductive Context.Answers (c : Context) (g : Ground) (scopes : List StyleScope) :
    Question → Answer → Prop
  | unknown : Answers c g scopes .unknown .dynamic
  | imported {p m source n} : p ∈ Table.keys c.program → g.module? p = some m → source ∈ m.sources →
      Answers c g scopes (.imported [] p source n) (c.importKey m source n)
  | atTop {p m r} : p ∈ Table.keys c.program → g.module? p = some m →
      Answers c g scopes (.atTop p r) (c.globalKey p m r)
  | inStyle {s r} : s ∈ scopes → Answers c g scopes (.inStyle s r) (c.localKey s r)

variable {scopes : List StyleScope}

namespace Context

theorem Answers.tells (hc : c.Holds g) {q : Question} {a : Answer} (h : c.Answers g scopes q a) :
    a.Tells g q := by
  cases h with
  | unknown => exact tells_dynamic
  | imported hp hm hs => exact tells_importKey hc hp hm hs
  | atTop hp hm => exact tells_globalKey hc hp hm _
  | inStyle => exact tells_localKey hc _ _

theorem answers_globalReads (hc : c.Holds g) {p : Path} {m : Module} (hp : p ∈ Table.keys c.program)
    (hm : g.module? p = some m) (n : String) :
    List.Forall₂ (c.Answers g scopes) (m.asked p n) (c.globalReads p n) := by
  unfold globalReads Module.asked
  rw [hc.loaded.module p hp, hm]
  by_cases hr : n ∈ m.reassigned
  · simpa [hr] using Answers.unknown
  simp only [hr, if_false, List.contains_eq_mem, decide_false, Bool.false_eq_true]
  cases hb : m.bindings.get? n with
  | none => exact .cons .unknown .nil
  | some d =>
    cases d with
    | imported source name => exact .cons (.imported hp hm (Module.mem_sources_of_imported hb)) .nil
    | node node =>
      rw [List.forall₂_map_left_iff, List.forall₂_map_right_iff, List.forall₂_same]
      exact fun r _ => .atTop hp hm
    | namespaceOf | unknown => exact .cons .unknown .nil

theorem answers_localReads (hc : c.Holds g) {s : StyleScope} (hs : s ∈ scopes) (n : String) :
    List.Forall₂ (c.Answers g scopes) (s.asked g.main n) (c.localReads s n) := by
  unfold localReads StyleScope.asked
  rw [hc.main]
  cases s.locals.get? n with
  | none => exact .cons .unknown .nil
  | some d =>
    cases d with
    | none => exact .cons .unknown .nil
    | some node =>
      by_cases hr : n ∈ g.main.reassigned
      · simpa [hr] using Answers.unknown
      simp only [hr, List.contains_eq_mem, decide_false, Bool.false_eq_true, if_false]
      rw [List.forall₂_map_left_iff, List.forall₂_map_right_iff, List.forall₂_same]
      exact fun r _ => .inStyle hs

theorem tellAll_globalReads (hc : c.Holds g) {p : Path} {m : Module} (hp : p ∈ Table.keys c.program)
    (hm : g.module? p = some m) (n : String) : TellAll g (c.globalReads p n) (· ∈ m.asked p n) := by
  have hasked : List.Forall₂ (c.Answers g []) (m.asked p n) (c.globalReads p n) :=
    answers_globalReads hc hp hm n
  exact .of_forall₂ hasked fun _ _ h => h.tells hc

private theorem tellAll_localReads (hc : c.Holds g) (s : StyleScope) (n : String) :
    TellAll g (c.localReads s n) (· ∈ s.asked g.main n) :=
  .of_forall₂ (answers_localReads hc (List.mem_singleton_self s) n) fun _ _ h => h.tells hc

end Context

/-- The nodes that can come up: the two roots, the top-level names of the program, and the names of
the scopes. -/
def Context.nodes (c : Context) (scopes : List StyleScope) : List Key :=
  [.dynamic, .static] ++
    (c.program.flatMap fun (p, m) => ((m.map (·.bindings.keys)).getD []).map (Key.global p)) ++
    scopes.flatMap fun s => s.locals.keys.map (Key.local c.path s.callSite)

theorem Context.length_nodes_lt (c : Context) (scopes : List StyleScope) :
    (c.nodes scopes).length < keyCount c scopes := by
  have hglobal :
      (c.program.flatMap fun (p, m) =>
        ((m.map (·.bindings.keys)).getD []).map (Key.global p)).length =
      (c.program.map fun (_, m) => ((m.map (·.bindings.length)).getD 0)).sum := by
    rw [List.length_flatMap]
    congr 1
    refine List.map_congr_left fun ⟨p, m⟩ _ => ?_
    cases m <;> simp [Table.keys]
  have hlocal : (scopes.flatMap fun s => s.locals.keys.map (Key.local c.path s.callSite)).length =
      (scopes.map (·.locals.length)).sum := by
    simp [List.length_flatMap, Table.keys]
  have hcount : keyCount c scopes =
      (c.program.map fun (_, m) => ((m.map (·.bindings.length)).getD 0)).sum +
      (scopes.map (·.locals.length)).sum + 3 := rfl
  simp only [nodes, List.length_append, hglobal, hlocal, hcount, List.length_cons, List.length_nil]
  omega

theorem Context.dynamic_mem_nodes : Key.dynamic ∈ c.nodes scopes := by
  simp [nodes]

theorem Context.static_mem_nodes : Key.static ∈ c.nodes scopes := by
  simp [nodes]

theorem Context.global_mem_nodes {p : Path} {m : Module} {n : String}
    (hm : c.program.module? p = some m) (hn : n ∈ m.bindings.keys) :
    Key.global p n ∈ c.nodes scopes := by
  obtain ⟨o, ho, rfl⟩ : ∃ o, Table.get? c.program p = some o ∧ o = some m := by
    simpa [Program.module?, Option.join_eq_some_iff] using hm
  refine List.mem_append_left _
    (List.mem_append_right _ (List.mem_flatMap.mpr ⟨(p, some m), Table.mem_of_get? ho, ?_⟩))
  exact List.mem_map.mpr ⟨n, hn, rfl⟩

theorem Context.local_mem_nodes {s : StyleScope} {n : String} (hs : s ∈ scopes)
    (hn : n ∈ s.locals.keys) : Key.local c.path s.callSite n ∈ c.nodes scopes :=
  List.mem_append_right _ (List.mem_flatMap.mpr ⟨s, hs, List.mem_map.mpr ⟨n, hn, rfl⟩⟩)

theorem Answer.key_firstKnown {P : Key → Prop} (hd : P .dynamic) {ask : String → Answer}
    (h : ∀ source, P (ask source).key) (sources : List String) :
    P (firstKnown ask sources).key := by
  induction sources with
  | nil => exact hd
  | cons source rest ih =>
    simp only [firstKnown]
    split_ifs
    · exact h source
    · exact ih

theorem key_importKey {P : Key → Prop} (hd : P .dynamic) (hs : P .static)
    {ask : Path → String → Answer} {n : String} (h : ∀ p, P (ask p n).key)
    (pureModules : List String) (m : Module) (source : String) :
    P (importKey pureModules ask m source n).key := by
  unfold importKey
  split_ifs
  · split
    · exact h _
    · exact hd
    · exact hd
  · exact hs
  · exact hd

/-- Whatever the depth, exports are answered by nodes that can come up. -/
theorem Context.key_exportKey_mem (depth : Nat) (seen : List (Path × String)) (p : Path)
    (n : String) :
    (Dependency.exportKey c.program c.settings.pureModules depth seen p n).key ∈
      c.nodes scopes := by
  induction depth generalizing seen p n with
  | zero => exact dynamic_mem_nodes
  | succ depth ih =>
    unfold Dependency.exportKey
    split_ifs
    · exact dynamic_mem_nodes
    cases hm : c.program.module? p with
    | none => exact dynamic_mem_nodes
    | some m =>
      dsimp only
      split
      · split_ifs with hb
        · exact global_mem_nodes hm (Table.has_iff.mp hb)
        · exact dynamic_mem_nodes
      · exact key_importKey dynamic_mem_nodes static_mem_nodes (fun q => ih _ q _) _ _ _
      · refine Answer.key_firstKnown (P := (· ∈ c.nodes scopes)) dynamic_mem_nodes
          (fun source => ?_) _
        exact key_importKey dynamic_mem_nodes static_mem_nodes (fun q => ih _ q _) _ _ _

theorem Context.key_importKey_mem (m : Module) (source n : String) :
    (c.importKey m source n).key ∈ c.nodes scopes :=
  key_importKey dynamic_mem_nodes static_mem_nodes (fun _ => key_exportKey_mem _ _ _ _) _ _ _

theorem Context.key_globalKey_mem {p : Path} {m : Module} (hm : c.program.module? p = some m)
    (r : Read) : (c.globalKey p m r).key ∈ c.nodes scopes := by
  cases r with
  | effect pos => exact dynamic_mem_nodes
  | name n chain pos =>
    simp only [globalKey]
    split
    · split_ifs
      · exact static_mem_nodes
      · exact dynamic_mem_nodes
    · cases chain with
      | nil => exact dynamic_mem_nodes
      | cons member rest =>
        dsimp only
        split_ifs
        · exact dynamic_mem_nodes
        · exact key_importKey_mem _ _ _
    next hb =>
      refine global_mem_nodes hm (Table.has_iff.mp ?_)
      simp [Table.has, hb]

theorem Context.key_localKey_mem (hc : c.Holds g) {s : StyleScope} (hs : s ∈ scopes) (r : Read) :
    (c.localKey s r).key ∈ c.nodes scopes := by
  have hm : c.program.module? c.path = some c.main := by
    rw [hc.path, hc.main]
    exact (hc.loaded.module _ hc.loaded.main.1).trans hc.loaded.main.2
  cases r with
  | effect pos => exact dynamic_mem_nodes
  | name n chain pos =>
    simp only [localKey]
    by_cases hl : s.locals.has n
    · rw [if_pos hl]
      exact local_mem_nodes hs (Table.has_iff.mp hl)
    rw [if_neg hl]
    split
    · split_ifs
      · exact dynamic_mem_nodes
      · exact static_mem_nodes
      · exact dynamic_mem_nodes
    · split_ifs
      · exact static_mem_nodes
      · exact dynamic_mem_nodes
      · exact key_globalKey_mem hm _

/-- What the nodes are, one case for each kind. -/
theorem Context.mem_nodes_cases (hc : c.Holds g) {k : Key} (hk : k ∈ c.nodes scopes) :
    k = .dynamic ∨ k = .static ∨
      (∃ p m n, k = .global p n ∧ p ∈ Table.keys c.program ∧ g.module? p = some m) ∨
      ∃ s ∈ scopes, ∃ n, k = .local c.path s.callSite n := by
  simp only [nodes, List.mem_append, List.mem_cons, List.not_mem_nil, or_false, List.mem_flatMap,
    List.mem_map] at hk
  rcases hk with ((rfl | rfl) | ⟨⟨p, o⟩, hp, n, hn, rfl⟩) | ⟨s, hs, n, -, rfl⟩
  · exact .inl rfl
  · exact .inr (.inl rfl)
  · cases o with
    | none => simp at hn
    | some m =>
      have hkey : p ∈ Table.keys c.program := Table.mem_keys.mpr ⟨_, hp⟩
      have hm : c.program.module? p = some m := by
        simp [Program.module?, Table.get?_eq_some_of_mem hc.loaded.nodup hp]
      exact .inr (.inr (.inl ⟨p, m, n, rfl, hkey, (hc.loaded.module p hkey).symm.trans hm⟩))
  · exact .inr (.inr (.inr ⟨s, hs, n, rfl⟩))

theorem find?_callSite {s : StyleScope} (hn : (scopes.map (·.callSite)).Nodup) (hs : s ∈ scopes) :
    scopes.find? (·.callSite = s.callSite) = some s := by
  induction scopes with
  | nil => simp at hs
  | cons t rest ih =>
    obtain ⟨ht, hr⟩ := List.nodup_cons.mp hn
    rcases List.mem_cons.mp hs with rfl | hs
    · simp
    · have hne : t.callSite ≠ s.callSite := fun h => ht (List.mem_map.mpr ⟨s, hs, h.symm⟩)
      simpa [hne] using ih hr hs

/-- What a node reads is answered as the rules say. -/
theorem Context.tellAll_reads (hc : c.Holds g) (hn : (scopes.map (·.callSite)).Nodup) {k : Key}
    (hk : k ∈ c.nodes scopes) : TellAll g (c.reads scopes k) (Asks g scopes k) := by
  obtain rfl | rfl | ⟨p, m, n, rfl, hp, hm⟩ | ⟨s, hs, n, rfl⟩ := mem_nodes_cases hc hk
  · exact ⟨by simp [reads], fun q hq => nomatch hq⟩
  · exact ⟨by simp [reads], fun q hq => nomatch hq⟩
  · have hasks : ∀ q, Asks g scopes (.global p n) q ↔ q ∈ m.asked p n := by
      refine fun q => ⟨fun hq => ?_, .atTop hm⟩
      cases hq with
      | atTop h hq => exact Option.some.inj (hm.symm.trans h) ▸ hq
    simp only [reads, funext fun q => propext (hasks q)]
    exact tellAll_globalReads hc hp hm n
  · have hasks : ∀ q, Asks g scopes (.local c.path s.callSite n) q ↔ q ∈ s.asked g.main n := by
      intro q
      constructor
      · rw [hc.path]
        generalize hcs : s.callSite = site
        intro hq
        cases hq with
        | inStyle h hq =>
          have := (find?_callSite hn h).symm.trans (hcs ▸ find?_callSite hn hs)
          exact Option.some.inj this ▸ hq
      · exact fun hq => hc.path ▸ .inStyle hs hq
    simp only [reads, find?_callSite hn hs, funext fun q => propext (hasks q)]
    exact tellAll_localReads hc s n

theorem Context.Answers.key_mem (hc : c.Holds g) {q : Question} {a : Answer}
    (h : c.Answers g scopes q a) : a.key ∈ c.nodes scopes := by
  cases h with
  | unknown => exact dynamic_mem_nodes
  | imported => exact key_importKey_mem _ _ _
  | atTop hp hm => exact key_globalKey_mem ((hc.loaded.module _ hp).trans hm) _
  | inStyle hs => exact key_localKey_mem hc hs _

/-- All that a node reads are answers to questions. -/
theorem Context.answers_reads (hc : c.Holds g) {k : Key} (hk : k ∈ c.nodes scopes) :
    ∃ asked, List.Forall₂ (c.Answers g scopes) asked (c.reads scopes k) := by
  obtain rfl | rfl | ⟨p, m, n, rfl, hp, hm⟩ | ⟨s, hs, n, rfl⟩ := mem_nodes_cases hc hk
  · exact ⟨[], .nil⟩
  · exact ⟨[], .nil⟩
  · exact ⟨_, answers_globalReads hc hp hm n⟩
  · simp only [reads]
    split
    next t ht => exact ⟨_, answers_localReads hc (List.mem_of_find?_eq_some ht) n⟩
    next => exact ⟨_, .cons .unknown .nil⟩

/-- Nodes that can come up read only nodes that can come up. -/
theorem Context.key_reads_mem (hc : c.Holds g) {k : Key} (hk : k ∈ c.nodes scopes) {a : Answer}
    (ha : a ∈ c.reads scopes k) : a.key ∈ c.nodes scopes := by
  obtain ⟨asked, hasked⟩ := answers_reads hc hk
  obtain ⟨q, -, hqa⟩ := exists_of_mem_forall₂ hasked ha
  exact hqa.key_mem hc

end ThemedCss.Dependency
