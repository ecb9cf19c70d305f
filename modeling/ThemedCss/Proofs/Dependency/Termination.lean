import ThemedCss.Proofs.Dependency.Classification
import ThemedCss.Proofs.Dependency.Settling

/-! Walks come to an end, however imports, exports and definitions lead back to each other. -/
namespace ThemedCss.Dependency
open ThemedCss.Syntax ThemedCss.Scope ThemedCss.Style ThemedCss.Text

variable {c : Context} {g : Ground} {scopes : List StyleScope}

def Context.entry (c : Context) (scopes : List StyleScope) (k : Key) : Key × List Key :=
  (k, ((c.reads scopes k).map (·.key)).eraseDups)

/-- A module is looked into for one of several answers, or for what one of several nodes reads. -/
def Consulted (c : Context) (scopes : List StyleScope) (answers : List Answer) (nodes : List Key)
    (p : Path) : Prop :=
  (∃ a ∈ answers, p ∈ a.consulted) ∨ ∃ k ∈ nodes, ∃ a ∈ c.reads scopes k, p ∈ a.consulted

/-- Questions that were asked in a state end as following their answers does: with the same fault,
or with the same nodes in the graph, each with all it depends on, and just the modules indexed that
had to be looked into. -/
inductive Simulates (c : Context) (scopes : List StyleScope) (w : Walk) (answers : List Answer)
    (followed : Except LinkFault (List Key)) (run : Except Halt (List Key) × Walk) : Prop
  | fault {f w'} : followed = .error f → run = (.error (.fault f), w') →
      Simulates c scopes w answers followed run
  | done {new w'} : followed = .ok (Table.keys w.graph ++ new) →
      run = (.ok (answers.map (·.key)), w') → w'.graph = w.graph ++ new.map (c.entry scopes) →
      (∀ p, p ∈ Table.keys w'.modules ↔
        p ∈ Table.keys w.modules ∨ Consulted c scopes answers new p) →
      Simulates c scopes w answers followed run

section Following

open Walking

variable {limit : Nat} {w w' : Walk} {k : Key} {a : Answer} {rest : List Answer} {q : Question}
  {asked qs : List Question}
  {followed : Except LinkFault (List Key)} {new : List Key}

theorem keys_map_entry (new : List Key) : Table.keys (new.map (c.entry scopes)) = new :=
  Table.keys_map_pair _ new

private theorem consulted_append {answers answers' : List Answer} {new new' : List Key} {p : Path} :
    Consulted c scopes (answers ++ answers') (new ++ new') p ↔
      Consulted c scopes answers new p ∨ Consulted c scopes answers' new' p := by
  simp only [Consulted, List.mem_append, or_and_right, exists_or]
  exact or_or_or_comm

/-- One more question before the others. -/
theorem Simulates.cons (hrun : (answer g limit q).runFrom w = (.ok a.key, w'))
    (hgraph : w'.graph = w.graph ++ new.map (c.entry scopes))
    (hmodules : ∀ p, p ∈ Table.keys w'.modules ↔
      p ∈ Table.keys w.modules ∨ Consulted c scopes [a] new p)
    (h : Simulates c scopes w' rest followed ((qs.mapM (answer g limit)).runFrom w')) :
    Simulates c scopes w (a :: rest) followed (((q :: qs).mapM (answer g limit)).runFrom w) := by
  rw [List.mapM_cons, runFrom_bind_ok hrun]
  cases h with
  | fault hf hr => exact .fault hf (runFrom_bind_error hr _)
  | @done new' w'' hf hr hgraph' hmodules' =>
    have hfollowed : followed = .ok (Table.keys w.graph ++ (new ++ new')) := by
      rw [hf, hgraph, Table.keys_append, keys_map_entry, List.append_assoc]
    have hentries : w''.graph = w.graph ++ (new ++ new').map (c.entry scopes) := by
      rw [hgraph', hgraph, List.map_append, List.append_assoc]
    refine .done hfollowed (runFrom_bind_ok hr _) hentries fun p => ?_
    rw [hmodules', hmodules, or_assoc, ← consulted_append, List.singleton_append]

/-- The questions of a definition are asked after its node was registered. -/
theorem Simulates.defines (hk : k ∉ Table.keys w.graph)
    (h : Simulates c scopes (w.register k) (c.reads scopes k) followed
      ((asked.mapM (answer g limit)).runFrom (w.register k))) :
    (∃ f w', followed = .error f ∧
      (define g (limit + 1) k asked).runFrom w = (.error (.fault f), w')) ∨
      ∃ new w', followed = .ok (Table.keys w.graph ++ k :: new) ∧
      (define g (limit + 1) k asked).runFrom w = (.ok k, w') ∧
        w'.graph = w.graph ++ (k :: new).map (c.entry scopes) ∧
        ∀ p, p ∈ Table.keys w'.modules ↔
        p ∈ Table.keys w.modules ∨ Consulted c scopes [] (k :: new) p := by
  have hregister : (w.register k).graph = w.graph ++ [(k, [])] := Table.insert_eq_append _ hk
  cases h with
  | @fault f w' hf hr => exact .inl ⟨f, w', hf, define_of_error hk hr⟩
  | @done new w' hf hr hgraph hmodules =>
    rw [hregister, List.append_assoc, List.singleton_append] at hgraph
    refine .inr ⟨new, _, ?_, define_of_ok hk hr, ?_, fun p => ?_⟩
    · rw [hf, hregister, Table.keys_append, List.append_assoc]
      rfl
    · rw [Walk.record, hgraph]
      exact Table.insert_append_cons hk _ _ _
    · refine (hmodules p).trans (or_congr_right ?_)
      simp [Consulted]

/-- The first question leads to a node that is in the graph. -/
theorem Simulates.of_seen {depth : Nat} (hf : a.fault = none) (hk : a.key ∈ Table.keys w.graph)
    (hrun : (answer g limit q).runFrom w = (.ok a.key, w.loadAll g a.consulted))
    (h : Simulates c scopes (w.loadAll g a.consulted) rest
      (follow c scopes (depth + 1) rest (Table.keys (w.loadAll g a.consulted).graph))
      ((qs.mapM (answer g limit)).runFrom (w.loadAll g a.consulted))) :
    Simulates c scopes w (a :: rest) (follow c scopes (depth + 1) (a :: rest) (Table.keys w.graph))
      (((q :: qs).mapM (answer g limit)).runFrom w) := by
  have hgraph : (w.loadAll g a.consulted).graph =
      w.graph ++ ([] : List Key).map (c.entry scopes) := by simp
  rw [Walk.graph_loadAll] at h
  rw [follow_seen hf hk]
  refine .cons hrun hgraph (fun p => ?_) h
  rw [Walk.mem_modules_loadAll]
  simp [Consulted]

theorem keys_register_loadAll {ps : List Path} (hk : k ∉ Table.keys w.graph) :
    Table.keys ((w.loadAll g ps).register k).graph = Table.keys w.graph ++ [k] := by
  rw [Walk.register, Walk.graph_loadAll, Table.insert_eq_append _ hk, Table.keys_append]
  rfl

/-- The first question leads to a node that is not in the graph: all that it leads to comes before
the other questions. -/
theorem Simulates.of_new {depth limit' : Nat} (hf : a.fault = none)
    (hk : a.key ∉ Table.keys w.graph)
    (hrun : (answer g limit q).runFrom w =
      (define g (limit' + 1) a.key asked).runFrom (w.loadAll g a.consulted))
    (hinner : Simulates c scopes ((w.loadAll g a.consulted).register a.key) (c.reads scopes a.key)
      (follow c scopes depth (c.reads scopes a.key)
        (Table.keys ((w.loadAll g a.consulted).register a.key).graph))
          ((asked.mapM (answer g limit')).runFrom ((w.loadAll g a.consulted).register a.key)))
    (hlater : ∀ w', w.Extends g w' →
      Simulates c scopes w' rest (follow c scopes (depth + 1) rest (Table.keys w'.graph))
        ((qs.mapM (answer g limit)).runFrom w')) :
    Simulates c scopes w (a :: rest) (follow c scopes (depth + 1) (a :: rest) (Table.keys w.graph))
      (((q :: qs).mapM (answer g limit)).runFrom w) := by
  have hk' : a.key ∉ Table.keys (w.loadAll g a.consulted).graph := by simpa using hk
  rw [keys_register_loadAll hk] at hinner
  rw [follow_new hf hk]
  obtain ⟨f, w', hfollow, hdefine⟩ | ⟨new, w', hfollow, hdefine, hgraph, hmodules⟩ :=
    hinner.defines hk'
  · rw [hfollow, List.mapM_cons]
    exact .fault rfl (runFrom_bind_error (hrun.trans hdefine) _)
  · rw [Walk.graph_loadAll] at hfollow hgraph
    have hext : w.Extends g w' := by
      have hgrows := (grows_answer_define g (limit' + 1)).2 a.key asked (w.loadAll g a.consulted)
      rw [hdefine] at hgrows
      exact (Walk.Extends.loadAll w _).trans hgrows
    have hkeys : Table.keys w'.graph = Table.keys w.graph ++ a.key :: new := by
      rw [hgraph, Table.keys_append, keys_map_entry]
    have hrest := hlater w' hext
    rw [hkeys] at hrest
    rw [hfollow]
    refine .cons (hrun.trans hdefine) hgraph (fun p => ?_) hrest
    rw [hmodules, Walk.mem_modules_loadAll, or_assoc]
    simp [Consulted]

/-- The levels that one node takes: a question in a style function, the name it asks for, an import,
the exports it can lead through, and the definition. -/
def Context.levels (c : Context) : Nat :=
  3 * exportDepth c.program + 4

/-- With enough levels for each node that is not in the graph, questions end as following their
answers does. -/
theorem simulates_follow (hc : c.Holds g) (hn : (scopes.map (·.callSite)).Nodup) {depth : Nat}
    {answers : List Answer} (hasked : List.Forall₂ (c.Answers g scopes) asked answers)
    (hkeys : ∀ a ∈ answers, a.key ∈ c.nodes scopes) (hw : w.Ready g)
    (hposed : ∀ q ∈ asked, q.Posed w)
    (hdepth : ((c.nodes scopes).toFinset \ (Table.keys w.graph).toFinset).card < depth)
    (hlimit : depth * c.levels ≤ limit) :
    Simulates c scopes w answers (follow c scopes depth answers (Table.keys w.graph))
      ((asked.mapM (answer g limit)).runFrom w) := by
  induction depth generalizing limit asked answers w with
  | zero => omega
  | succ depth ih =>
    have hroom : depth * c.levels + 1 + 3 * exportDepth c.program + 3 ≤ limit := by
      rw [Nat.succ_mul] at hlimit
      unfold Context.levels at hlimit ⊢
      omega
    induction hasked generalizing w with
    | nil =>
      have hgraph : w.graph = w.graph ++ ([] : List Key).map (c.entry scopes) := by simp
      exact .done (by simp) rfl hgraph (by simp [Consulted])
    | @cons q a qs rest ha hrest ihrest =>
      obtain ⟨hkey, hkeys⟩ := List.forall_mem_cons.mp hkeys
      obtain ⟨hq, hposed⟩ := List.forall_mem_cons.mp hposed
      have hsettles : Settles c g scopes (depth * c.levels + 1) w
          ((answer g limit q).runFrom w) a :=
        settles_of_answers hc hn ha hw hq hroom
      have hload : w.Extends g (w.loadAll g a.consulted) := .loadAll w _
      -- the other questions are asked in a state that goes on from this one
      have hlater : ∀ w', w.Extends g w' →
          Simulates c scopes w' rest (follow c scopes (depth + 1) rest (Table.keys w'.graph))
          ((qs.mapM (answer g limit)).runFrom w') := by
        intro w' hext
        refine ihrest hkeys (hw.extends hext) (fun q hq => (hposed q hq).extends hext) ?_
        refine (Finset.card_le_card (Finset.sdiff_subset_sdiff (Finset.Subset.refl _) ?_)).trans_lt
          hdepth
        intro j hj
        exact List.mem_toFinset.mpr (hext.mem_graph (List.mem_toFinset.mp hj))
      cases hsettles with
      | fault hf hrun =>
        rw [List.mapM_cons]
        exact .fault (follow_fault hf) (runFrom_bind_error hrun _)
      | root hf hk hrun => exact .of_seen hf (hw.roots _ hk) hrun (hlater _ hload)
      | @definition limit' asked' hf _ hlimit' hasked' hposed' hrun =>
        obtain ⟨limit', rfl⟩ : ∃ l, limit' = l + 1 := ⟨limit' - 1, by omega⟩
        by_cases hk : a.key ∈ Table.keys w.graph
        · rw [define_of_mem (by simpa using hk)] at hrun
          exact .of_seen hf hk hrun (hlater _ hload)
        have hregister : (w.loadAll g a.consulted).Extends g
            ((w.loadAll g a.consulted).register a.key) :=
          .register (by simpa using hk)
        have hposed' : ∀ q ∈ asked', q.Posed ((w.loadAll g a.consulted).register a.key) :=
          fun q hq => (hposed' q hq).extends hregister
        -- the node of this answer is one that was not in the graph
        have hless : ((c.nodes scopes).toFinset \
            (Table.keys ((w.loadAll g a.consulted).register a.key).graph).toFinset).card <
              depth := by
          have hlt :=
            Table.card_sdiff_append_lt (c.nodes scopes).toFinset (List.mem_toFinset.mpr hkey) hk
              (List.mem_singleton_self a.key)
          rw [keys_register_loadAll hk]
          omega
        have hinner := ih hasked' (fun b hb => Context.key_reads_mem hc hkey hb)
          (hw.extends (hload.trans hregister))
          hposed' hless (Nat.le_of_succ_le_succ hlimit')
        exact .of_new hf hk hrun hinner hlater

end Following

private theorem posed_calls (calls : List (Call Interpolation)) (w : Walk) :
    ∀ q ∈ calls.flatMap callQuestions, q.Posed w := by
  intro q hq
  obtain ⟨call, -, hq⟩ := List.mem_flatMap.mp hq
  obtain ⟨i, -, hq⟩ := List.mem_flatMap.mp hq
  unfold questionsOf at hq
  split_ifs at hq
  · cases hq
  · obtain ⟨r, -, rfl⟩ := List.mem_map.mp hq
    trivial

def Context.walkLimit (c : Context) (scopes : List StyleScope) : Nat :=
  keyCount c scopes * c.levels

/-- A walk ends as following the reads of all interpolations does. -/
theorem simulates_walk (hc : c.Holds g) {calls : List (Call Interpolation)}
    (hn : ((scopesOf calls).map (·.callSite)).Nodup) {limit : Nat}
    (hlimit : c.walkLimit (scopesOf calls) ≤ limit) :
    Simulates c (scopesOf calls) (.start g) (calls.flatMap (callReads c))
      (follow c (scopesOf calls) (keyCount c (scopesOf calls)) (calls.flatMap (callReads c))
        [.dynamic, .static])
      (walk g limit calls) := by
  have hcount :
      ((c.nodes (scopesOf calls)).toFinset \ (Table.keys (Walk.start g).graph).toFinset).card <
      keyCount c (scopesOf calls) :=
    ((Finset.card_le_card Finset.sdiff_subset).trans (List.toFinset_card_le _)).trans_lt
      (c.length_nodes_lt _)
  exact simulates_follow hc hn (answers_callReads c g calls) (fun a ha => key_callReads_mem hc ha)
    (Walk.ready_start hc.loaded.main.2) (posed_calls calls _) hcount hlimit

section Outcome

variable {calls : List (Call Interpolation)} {w : Walk} {new : List Key}

theorem followed_of_follow (hc : c.Holds g)
    (h : follow c (scopesOf calls) (keyCount c (scopesOf calls)) (calls.flatMap (callReads c))
      [.dynamic, .static] = .ok ([.dynamic, .static] ++ new)) :
    Followed c (scopesOf calls) (calls.flatMap (callReads c)) [.dynamic, .static] new := by
  obtain ⟨new', hok, hfollowed⟩ | ⟨f, herr, -⟩ := follow_calls hc calls
  · obtain rfl : new' = new := List.append_cancel_left (Except.ok.inj (hok.symm.trans h))
    exact hfollowed
  · rw [herr] at h
    cases h

private theorem graphOf_eq_map_entry :
    graphOf c calls = (found c calls).map (c.entry (scopesOf calls)) := by
  unfold graphOf found
  conv_lhs => rw [explore_eq_map]
  rw [List.map_map]
  rfl

/-- The graph is the one that classifying comes to. -/
theorem perm_graphOf (hc : c.Holds g)
    (h : Followed c (scopesOf calls) (calls.flatMap (callReads c)) [.dynamic, .static] new)
    (hgraph : w.graph = (Walk.start g).graph ++ new.map (c.entry (scopesOf calls))) :
    w.graph.Perm (graphOf c calls) := by
  have hstart : (Walk.start g).graph = [Key.dynamic, .static].map (c.entry (scopesOf calls)) := rfl
  rw [hgraph, hstart, ← List.map_append, graphOf_eq_map_entry]
  refine List.Perm.map _ ((List.perm_ext_iff_of_nodup h.nodup nodup_explore).mpr fun k => ?_)
  exact (mem_found_iff_followed hc h).symm

/-- The modules are those that classifying looks into. -/
theorem perm_modulesOf (hc : c.Holds g)
    (h : Followed c (scopesOf calls) (calls.flatMap (callReads c)) [.dynamic, .static] new)
    (hnodup : w.indexed.Nodup)
    (hindexed : ∀ p, p ∈ w.indexed ↔
      p ∈ Table.keys (Walk.start g).modules ∨
      Consulted c (scopesOf calls) (calls.flatMap (callReads c)) new p) :
    w.indexed.Perm ((modulesOf c calls).map (·.1)) := by
  have hmodules : (modulesOf c calls).map (·.1) =
      (c.path :: (allAnswers c calls).flatMap (·.consulted)).eraseDups := by
    simp [modulesOf, Function.comp_def]
  -- the roots read nothing, so what was looked into was looked into for new nodes
  have hfound : ∀ p, (∃ k ∈ found c calls, ∃ a ∈ c.reads (scopesOf calls) k, p ∈ a.consulted) ↔
      ∃ k ∈ new, ∃ a ∈ c.reads (scopesOf calls) k, p ∈ a.consulted := by
    intro p
    simp only [mem_found_iff_followed hc h, List.mem_append, or_and_right, exists_or]
    simp [Context.reads]
  have hanswers : ∀ p, (∃ a ∈ allAnswers c calls, p ∈ a.consulted) ↔
      Consulted c (scopesOf calls) (calls.flatMap (callReads c)) new p := by
    intro p
    rw [Consulted, ← hfound]
    constructor
    · rintro ⟨a, ha, hp⟩
      rcases mem_allAnswers.mp ha with ha | ⟨k, hk, ha⟩
      · exact .inl ⟨a, ha, hp⟩
      · exact .inr ⟨k, hk, a, ha, hp⟩
    · rintro (⟨a, ha, hp⟩ | ⟨k, hk, a, ha, hp⟩)
      · exact ⟨a, mem_allAnswers.mpr (.inl ha), hp⟩
      · exact ⟨a, mem_allAnswers.mpr (.inr ⟨k, hk, ha⟩), hp⟩
  rw [hmodules]
  refine (List.perm_ext_iff_of_nodup hnodup (Table.nodup_eraseDups _)).mpr fun p => ?_
  rw [hindexed, ← hanswers, List.mem_eraseDups, List.mem_cons, List.mem_flatMap, hc.path]
  simp [Walk.start, Table.keys]

end Outcome

/-- Whatever the limit, a walk indexes no module twice and computes the dependencies of no
definition twice: what it did is what its tables hold. With a limit that the files and the calls
set, it is never too deep, however imports, exports and definitions lead back to each other. It ends
as classifying does: with the same fault, or with the same graph and the same modules. -/
theorem walk_ends_as_classify (files : FileTree) (settings : Settings) (allows : List String → Bool)
    (path : Path) (root : Node) (calls : List (Call Interpolation))
    (hsites : (calls.map (·.callSite)).Nodup) :
    let g := Ground.ofTree files settings allows path root
    let c := Context.ofTree files settings allows path root
    (∀ limit, (walk g limit calls).2.indexed.Nodup ∧
        (walk g limit calls).2.indexed = Table.keys (walk g limit calls).2.modules ∧
        (walk g limit calls).2.computed.Nodup ∧
        [.dynamic, .static] ++ (walk g limit calls).2.computed =
          Table.keys (walk g limit calls).2.graph) ∧
      ∀ limit, c.walkLimit (scopesOf calls) ≤ limit →
        (walk g limit calls).1 ≠ .error .tooDeep ∧
        (∀ f, classify files settings allows path root calls = .error f →
          (walk g limit calls).1 = .error (.fault f)) ∧
        ∀ r, classify files settings allows path root calls = .ok r →
          (walk g limit calls).1 = .ok ((calls.flatMap (callReads c)).map (·.key)) ∧
          (walk g limit calls).2.graph.Perm r.graph ∧
          (walk g limit calls).2.indexed.Perm (r.modules.map (·.1)) := by
  intro g c
  have hc : c.Holds g := Context.holds_ofTree files settings allows path root
  have hn : ((scopesOf calls).map (·.callSite)).Nodup := by
    rw [scopesOf, List.map_map]
    exact hsites
  have honce : ∀ limit, (walk g limit calls).2.indexed.Nodup ∧
      (walk g limit calls).2.indexed = Table.keys (walk g limit calls).2.modules ∧
      (walk g limit calls).2.computed.Nodup ∧
      [.dynamic, .static] ++ (walk g limit calls).2.computed =
        Table.keys (walk g limit calls).2.graph := by
    intro limit
    obtain ⟨hindexed, hnodup⟩ := (extends_walk g limit calls).nodup_indexed
    obtain ⟨hgraph, hnodup'⟩ := (extends_walk g limit calls).nodup_computed
    rw [hgraph] at hnodup'
    exact ⟨hnodup, hindexed, hnodup'.of_append_right, hgraph.symm⟩
  refine ⟨honce, fun limit hlimit => ?_⟩
  rw [classify_eq_map_follow files settings allows path root calls rfl]
  cases simulates_walk hc hn hlimit with
  | @fault f w' hfollow hrun =>
    rw [hfollow, hrun]
    refine ⟨by simp, fun f' hf' => ?_, fun r hr => ?_⟩
    · rw [Except.error.inj hf']
    · cases hr
  | @done new w' hfollow hrun hgraph hmodules =>
    have hfollowed := followed_of_follow hc hfollow
    obtain ⟨hnodup, hindexed, -⟩ := honce limit
    rw [hrun] at hnodup hindexed
    rw [hfollow, hrun]
    refine ⟨by simp, fun f hf => ?_, fun r hr => ?_⟩
    · cases hf
    · obtain rfl := Except.ok.inj hr
      refine ⟨rfl, perm_graphOf hc hfollowed hgraph, perm_modulesOf hc hfollowed hnodup fun p => ?_⟩
      rw [hindexed]
      exact hmodules p

/-- Two modules that export all of each other, and whose definitions read each other. -/
def ringFiles : FileTree :=
  ⟨[(["b.js"], .file (encode "export*from'./c';import\x7bu\x7dfrom'./c';export let v=u")),
    (["c.js"], .file (encode "export*from'./b';import\x7bv\x7dfrom'./b';export let u=v"))], [], []⟩

/-- A style definition that reads a name that one of the modules above defines and a name that none
does. -/
def ringSource : String :=
  "import\x7bu,w\x7dfrom'./b';f((\x7bcss\x7d)=>(\x7br:css\x60$\x7bu\x7d$\x7bw\x7d\x60\x7d))"

def ringSettings : Settings :=
  { Settings.ofTheme "t" with factory := "f" }

def ringPath : Path :=
  ⟨true, ["a.js"]⟩

def ringRoot : Node :=
  parse .script ringSource.toList

def ringCalls : List (Call Interpolation) :=
  (scan ringSettings (encode ringSource) ringRoot "a.js").calls

theorem walk_ends_as_classify_ring :
    let g := Ground.ofTree ringFiles ringSettings (fun _ => true) ringPath ringRoot
    let c := Context.ofTree ringFiles ringSettings (fun _ => true) ringPath ringRoot
    let limit := c.walkLimit (scopesOf ringCalls)
    (ringCalls.map (·.callSite)).Nodup ∧
      (walk g limit ringCalls).1 = .ok [.global ringPath "u", .global ringPath "w"] ∧
      (walk g limit ringCalls).2.indexed.Perm [ringPath, ⟨true, ["b.js"]⟩, ⟨true, ["c.js"]⟩] ∧
      (walk g limit ringCalls).2.computed.Nodup := by
  have hrun : (ringCalls.map (·.callSite)).Nodup ∧
      (ringCalls.flatMap
        (callReads (.ofTree ringFiles ringSettings (fun _ => true) ringPath ringRoot))).map
          (·.key) =
        [.global ringPath "u", .global ringPath "w"] ∧
      (classify ringFiles ringSettings (fun _ => true) ringPath ringRoot ringCalls).toOption.map
        (·.modules.map (·.1)) = some [ringPath, ⟨true, ["b.js"]⟩, ⟨true, ["c.js"]⟩] := by
    decide +kernel
  revert hrun
  -- nothing else is to be computed
  generalize ringRoot = root
  generalize ringCalls = calls
  rintro ⟨hsites, hkeys, hmodules⟩ g c limit
  obtain ⟨honce, hends⟩ :=
    walk_ends_as_classify ringFiles ringSettings (fun _ => true) ringPath root calls hsites
  obtain ⟨-, -, hcomputed, -⟩ := honce limit
  obtain ⟨-, -, hok⟩ := hends limit le_rfl
  cases hr : classify ringFiles ringSettings (fun _ => true) ringPath root calls with
  | error f =>
    rw [hr] at hmodules
    cases hmodules
  | ok r =>
    rw [hr] at hmodules
    obtain ⟨hanswers, -, hindexed⟩ := hok r hr
    refine ⟨hsites, hanswers.trans (congrArg _ hkeys), ?_, hcomputed⟩
    rw [← Option.some.inj hmodules]
    exact hindexed

end ThemedCss.Dependency
