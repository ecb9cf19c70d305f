import ThemedCss.Proofs.Dependency.Rules

/-! Questions answered one inside the other, with the modules and nodes met on the way kept in a
state. -/
namespace ThemedCss.Dependency
open ThemedCss.Syntax ThemedCss.Scope ThemedCss.Style

structure Walk where
  modules : Table Path (Option Module)
  graph : Graph Key
  /-- Each indexing of a module, in order. -/
  indexed : List Path
  /-- Each time the dependencies of a definition were computed, in order. -/
  computed : List Key

inductive Halt where
  /-- More questions stand inside each other than the limit allows. -/
  | tooDeep
  | fault (fault : LinkFault)
deriving DecidableEq, Repr

abbrev Walking := ExceptT Halt (StateM Walk)

namespace Walking

variable {α β : Type}

def runFrom (x : Walking α) (w : Walk) : Except Halt α × Walk :=
  x.run w

theorem runFrom_get_bind (f : Walk → Walking α) (w : Walk) :
    (get >>= f : Walking α).runFrom w = (f w).runFrom w :=
  rfl

theorem runFrom_modify_bind (u : Walk → Walk) (f : PUnit → Walking α) (w : Walk) :
    (modify u >>= f : Walking α).runFrom w = (f ⟨⟩).runFrom (u w) :=
  rfl

theorem runFrom_bind_ok {x : Walking α} {a : α} {w w' : Walk} (h : x.runFrom w = (.ok a, w'))
    (f : α → Walking β) : (x >>= f).runFrom w = (f a).runFrom w' := by
  have hx : StateT.run (ExceptT.run x) w = (.ok a, w') := h
  change StateT.run (ExceptT.run (x >>= f)) w = _
  rw [ExceptT.run_bind, StateT.run_bind, hx]
  rfl

theorem runFrom_bind_error {x : Walking α} {e : Halt} {w w' : Walk}
    (h : x.runFrom w = (.error e, w')) (f : α → Walking β) :
    (x >>= f).runFrom w = (.error e, w') := by
  have hx : StateT.run (ExceptT.run x) w = (.error e, w') := h
  change StateT.run (ExceptT.run (x >>= f)) w = _
  rw [ExceptT.run_bind, StateT.run_bind, hx]
  rfl

end Walking

namespace Walk

/-- Only the module that is compiled is indexed, and only the roots are nodes. -/
def start (g : Ground) : Walk :=
  ⟨[(g.path, some g.main)], [(.dynamic, []), (.static, [])], [g.path], []⟩

/-- Index the module at a path, unless this was done. -/
def load (g : Ground) (p : Path) (w : Walk) : Walk :=
  if w.modules.has p then w
  else { w with modules := w.modules.insert p (g.module? p), indexed := w.indexed ++ [p] }

def module? (w : Walk) (p : Path) : Option Module :=
  (w.modules.get? p).join

/-- Enter a node whose dependencies are about to be computed. -/
def register (k : Key) (w : Walk) : Walk :=
  { w with graph := w.graph.insert k [], computed := w.computed ++ [k] }

def record (k : Key) (deps : List Key) (w : Walk) : Walk :=
  { w with graph := w.graph.insert k deps }

end Walk

/-- The first of several answers that is not dynamic. -/
def Walking.firstKnown (ask : String → Walking Key) : List String → Walking Key
  | [] => pure .dynamic
  | source :: rest => do
    let k ← ask source
    if k ≠ .dynamic then pure k else firstKnown ask rest

mutual

/-- The node a question leads to. At most `limit` questions and definitions stand inside each
other. -/
def answer (g : Ground) : Nat → Question → Walking Key
  | 0, _ => throw .tooDeep
  | _ + 1, .unknown => pure .dynamic
  | limit + 1, .exported seen p n => do
    modify (·.load g p)
    match (← get).module? p with
    | none => pure .dynamic
    | some m =>
      if (p, n) ∈ seen then pure .dynamic
      else
        match m.exports.get? n with
        | some (.own own) =>
          if own ∈ m.bindings.keys then define g limit (.global p own) (m.asked p own)
          else pure .dynamic
        | some (.reexported source name) =>
          answer g limit (.imported ((p, n) :: seen) p source name)
        | none => answer g limit (.starred ((p, n) :: seen) p n m.stars)
  | limit + 1, .starred seen p n sources =>
    Walking.firstKnown (fun source => answer g limit (.imported seen p source n)) sources
  | limit + 1, .imported seen p source n =>
    if Module.isRelative source then
      match g.link p source with
      | .missing => pure .dynamic
      | .faulty f => throw (.fault f)
      | .found target => answer g limit (.exported seen target n)
    else pure (if source ∈ g.pureModules then .static else .dynamic)
  | _ + 1, .atTop _ (.effect _) => pure .dynamic
  | limit + 1, .atTop p (.name n chain _) => do
    -- only definitions of a module ask this, so the module is indexed
    match (← get).module? p with
    | none => pure .dynamic
    | some m =>
      match m.bindings.get? n with
      | none => pure (if isPureGlobal n chain ∨ n = g.marker then .static else .dynamic)
      | some (.namespaceOf source) =>
        match chain with
        | [] => pure .dynamic
        | member :: _ =>
          if n ∈ m.reassigned then pure .dynamic else answer g limit (.imported [] p source member)
      | some _ => define g limit (.global p n) (m.asked p n)
  | _ + 1, .inStyle _ (.effect _) => pure .dynamic
  | limit + 1, .inStyle s (.name n chain pos) =>
    if n ∈ s.locals.keys then define g limit (.local g.path s.callSite n) (s.asked g.main n)
    else
      match s.parameters.theme.get? n with
      | some way =>
        pure (if n ∉ g.main.reassigned ∧ g.allows (way ++ chain) then .static else .dynamic)
      | none =>
        if n = s.parameters.tag then pure .static
        else if n ∈ s.parameters.others then pure .dynamic
        else answer g limit (.atTop g.path (.name n chain pos))

/-- Enter a node with what its definition asks for, unless it is in the graph. It is registered
first, so that a definition that comes back to it finds it there. -/
def define (g : Ground) : Nat → Key → List Question → Walking Key
  | 0, _, _ => throw .tooDeep
  | limit + 1, k, asked => do
    if (← get).graph.has k then pure k
    else
      modify (·.register k)
      let deps ← asked.mapM (answer g limit)
      modify (·.record k deps.eraseDups)
      pure k

end

def walk (g : Ground) (limit : Nat) (calls : List (Call Interpolation)) :
    Except Halt (List Key) × Walk :=
  Walking.runFrom ((calls.flatMap callQuestions).mapM (answer g limit)) (.start g)

variable {g : Ground}

namespace Walk

/-- A walk goes on from another: nothing is lost, and what is new was indexed or computed just then
and only then. -/
structure Extends (g : Ground) (w w' : Walk) : Prop where
  modules : ∃ new, w'.modules = w.modules ++ new.map (fun p => (p, g.module? p)) ∧
    w'.indexed = w.indexed ++ new
  graph : ∃ new, Table.keys w'.graph = Table.keys w.graph ++ new ∧ w'.computed = w.computed ++ new
  nodup_modules : (Table.keys w.modules).Nodup → (Table.keys w'.modules).Nodup
  nodup_graph : (Table.keys w.graph).Nodup → (Table.keys w'.graph).Nodup

namespace Extends

theorem refl (w : Walk) : Extends g w w :=
  ⟨⟨[], by simp⟩, ⟨[], by simp⟩, id, id⟩

theorem trans {w w' w'' : Walk} (h : Extends g w w') (h' : Extends g w' w'') : Extends g w w'' := by
  obtain ⟨ps, hps, hindexed⟩ := h.modules
  obtain ⟨ps', hps', hindexed'⟩ := h'.modules
  obtain ⟨ks, hks, hcomputed⟩ := h.graph
  obtain ⟨ks', hks', hcomputed'⟩ := h'.graph
  refine ⟨⟨ps ++ ps', ?_, ?_⟩, ⟨ks ++ ks', ?_, ?_⟩, h'.nodup_modules ∘ h.nodup_modules,
    h'.nodup_graph ∘ h.nodup_graph⟩
  · rw [hps', hps, List.map_append, List.append_assoc]
  · rw [hindexed', hindexed, List.append_assoc]
  · rw [hks', hks, List.append_assoc]
  · rw [hcomputed', hcomputed, List.append_assoc]

theorem load (w : Walk) (p : Path) : Extends g w (w.load g p) := by
  unfold Walk.load
  split_ifs with hp
  · exact .refl w
  · have hp : p ∉ Table.keys w.modules := mt Table.has_iff.mpr hp
    refine ⟨⟨[p], Table.insert_eq_append _ hp, rfl⟩, ⟨[], by simp⟩, fun hnodup => ?_, id⟩
    dsimp only
    rw [Table.insert_eq_append _ hp, Table.keys_append]
    simpa [Table.keys] using hnodup.concat hp

theorem register {w : Walk} {k : Key} (hk : k ∉ Table.keys w.graph) :
    Extends g w (w.register k) := by
  have hkeys : Table.keys (w.register k).graph = Table.keys w.graph ++ [k] := by
    rw [Walk.register, Table.insert_eq_append _ hk, Table.keys_append]
    rfl
  refine ⟨⟨[], by simp [Walk.register]⟩, ⟨[k], hkeys, rfl⟩, id, fun hnodup => ?_⟩
  rw [hkeys]
  simpa using hnodup.concat hk

theorem record {w : Walk} {k : Key} (hk : k ∈ Table.keys w.graph) (deps : List Key) :
    Extends g w (w.record k deps) := by
  have hkeys : Table.keys (w.record k deps).graph = Table.keys w.graph :=
    Table.keys_insert_of_mem deps hk
  exact ⟨⟨[], by simp [Walk.record]⟩, ⟨[], by simpa using hkeys, by simp [Walk.record]⟩, id,
    fun hnodup => hkeys ▸ hnodup⟩

theorem mem_graph {w w' : Walk} (h : Extends g w w') {k : Key} (hk : k ∈ Table.keys w.graph) :
    k ∈ Table.keys w'.graph := by
  obtain ⟨new, hkeys, -⟩ := h.graph
  exact hkeys ▸ List.mem_append_left _ hk

end Extends
end Walk

/-- From whatever state steps are run, what they leave goes on from it. -/
def Walking.Grows (g : Ground) {α : Type} (x : Walking α) : Prop :=
  ∀ w, Walk.Extends g w (x.runFrom w).2

namespace Walking.Grows

variable {α β : Type}

theorem pure (a : α) : Grows g (pure a : Walking α) :=
  fun w => .refl w

theorem throw (h : Halt) : Grows g (throw h : Walking α) :=
  fun w => .refl w

theorem bind {x : Walking α} {f : α → Walking β} (hx : Grows g x) (hf : ∀ a, Grows g (f a)) :
    Grows g (x >>= f) := by
  intro w
  have hw := hx w
  obtain ⟨r, w', hr⟩ : ∃ r w', x.runFrom w = (r, w') := ⟨_, _, rfl⟩
  rw [hr] at hw
  cases r with
  | ok a =>
    rw [runFrom_bind_ok hr]
    exact hw.trans (hf a w')
  | error e =>
    rw [runFrom_bind_error hr]
    exact hw

theorem get_bind {f : Walk → Walking α} (hf : ∀ w, Grows g (f w)) : Grows g (get >>= f) :=
  fun w => hf w w

theorem mapM {f : β → Walking α} {l : List β} (hf : ∀ b ∈ l, Grows g (f b)) :
    Grows g (l.mapM f) := by
  induction l with
  | nil => exact .pure _
  | cons b rest ih =>
    obtain ⟨hb, hrest⟩ := List.forall_mem_cons.mp hf
    rw [List.mapM_cons]
    exact hb.bind fun _ => (ih hrest).bind fun _ => .pure _

theorem firstKnown {ask : String → Walking Key} (hask : ∀ source, Grows g (ask source))
    (sources : List String) : Grows g (firstKnown ask sources) := by
  induction sources with
  | nil => exact .pure _
  | cons source rest ih =>
    refine (hask source).bind fun k => ?_
    split_ifs
    · exact .pure _
    · exact ih

end Walking.Grows

section Step

open Walking

variable {limit : Nat}

theorem define_of_mem {w : Walk} {k : Key} (hk : k ∈ Table.keys w.graph) (asked : List Question) :
    (define g (limit + 1) k asked).runFrom w = (.ok k, w) := by
  rw [define, runFrom_get_bind, if_pos (Table.has_iff.mpr hk)]
  rfl

theorem define_of_ok {w w' : Walk} {k : Key} {asked : List Question} {deps : List Key}
    (hk : k ∉ Table.keys w.graph)
    (h : (asked.mapM (answer g limit)).runFrom (w.register k) = (.ok deps, w')) :
    (define g (limit + 1) k asked).runFrom w = (.ok k, w'.record k deps.eraseDups) := by
  rw [define, runFrom_get_bind, if_neg (mt Table.has_iff.mp hk), runFrom_modify_bind,
    runFrom_bind_ok h]
  rfl

theorem define_of_error {w w' : Walk} {k : Key} {asked : List Question} {e : Halt}
    (hk : k ∉ Table.keys w.graph)
    (h : (asked.mapM (answer g limit)).runFrom (w.register k) = (.error e, w')) :
    (define g (limit + 1) k asked).runFrom w = (.error e, w') := by
  rw [define, runFrom_get_bind, if_neg (mt Table.has_iff.mp hk), runFrom_modify_bind,
    runFrom_bind_error h]

/-- A definition that comes to an end names its own node. -/
theorem define_eq_ok {w w' : Walk} {k j : Key} {asked : List Question}
    (h : (define g limit k asked).runFrom w = (.ok j, w')) : j = k := by
  cases limit with
  | zero =>
    rw [define] at h
    cases (Prod.mk.inj h).1
  | succ limit =>
    by_cases hk : k ∈ Table.keys w.graph
    · rw [define_of_mem hk] at h
      exact (Except.ok.inj (Prod.mk.inj h).1).symm
    obtain ⟨r, w₁, hr⟩ : ∃ r w₁, (asked.mapM (answer g limit)).runFrom (w.register k) = (r, w₁) :=
      ⟨_, _, rfl⟩
    cases r with
    | ok deps =>
      rw [define_of_ok hk hr] at h
      exact (Except.ok.inj (Prod.mk.inj h).1).symm
    | error e =>
      rw [define_of_error hk hr] at h
      cases (Prod.mk.inj h).1

theorem grows_define (hanswer : ∀ q, Grows g (answer g limit q)) (k : Key) (asked : List Question) :
    Grows g (define g (limit + 1) k asked) := by
  intro w
  by_cases hk : k ∈ Table.keys w.graph
  · rw [define_of_mem hk]
    exact .refl w
  have hasked := Grows.mapM (fun q (_ : q ∈ asked) => hanswer q) (w.register k)
  obtain ⟨r, w', hr⟩ : ∃ r w', (asked.mapM (answer g limit)).runFrom (w.register k) = (r, w') :=
    ⟨_, _, rfl⟩
  rw [hr] at hasked
  have hregister : w.Extends g (w.register k) := .register hk
  cases r with
  | ok deps =>
    have hstill : k ∈ Table.keys w'.graph := hasked.mem_graph (Table.mem_keys_insert.mpr (.inr rfl))
    rw [define_of_ok hk hr]
    exact (hregister.trans hasked).trans (.record hstill deps.eraseDups)
  | error e =>
    rw [define_of_error hk hr]
    exact hregister.trans hasked

theorem grows_answer (hanswer : ∀ q, Grows g (answer g limit q))
    (hdefine : ∀ k asked, Grows g (define g limit k asked)) (q : Question) :
    Grows g (answer g (limit + 1) q) := by
  cases q with
  | unknown =>
    rw [answer]
    exact .pure _
  | exported seen p n =>
    rw [answer]
    refine .bind (fun w => .load w p) fun _ => .get_bind fun w => ?_
    split
    · exact .pure _
    split_ifs
    · exact .pure _
    split
    · split_ifs
      · exact hdefine _ _
      · exact .pure _
    · exact hanswer _
    · exact hanswer _
  | starred seen p n sources =>
    rw [answer]
    exact .firstKnown (fun source => hanswer _) sources
  | imported seen p source n =>
    rw [answer]
    split_ifs
    · split
      · exact .pure _
      · exact .throw _
      · exact hanswer _
    · exact .pure _
    · exact .pure _
  | atTop p r =>
    cases r with
    | effect pos =>
      rw [answer]
      exact .pure _
    | name n chain pos =>
      rw [answer]
      refine .get_bind fun w => ?_
      split
      · exact .pure _
      split
      · exact .pure _
      · split
        · exact .pure _
        · split_ifs
          · exact .pure _
          · exact hanswer _
      · exact hdefine _ _
  | inStyle s r =>
    cases r with
    | effect pos =>
      rw [answer]
      exact .pure _
    | name n chain pos =>
      rw [answer]
      by_cases hl : n ∈ s.locals.keys
      · rw [if_pos hl]
        exact hdefine _ _
      rw [if_neg hl]
      split
      · exact .pure _
      · split_ifs
        · exact .pure _
        · exact .pure _
        · exact hanswer _

/-- No question and no definition loses anything or does anything twice, wherever it ends. -/
theorem grows_answer_define (g : Ground) (limit : Nat) :
    (∀ q, Grows g (answer g limit q)) ∧ ∀ k asked, Grows g (define g limit k asked) := by
  induction limit with
  | zero =>
    refine ⟨fun q => ?_, fun k asked => ?_⟩
    · rw [answer]
      exact .throw _
    · rw [define]
      exact .throw _
  | succ limit ih => exact ⟨grows_answer ih.1 ih.2, grows_define ih.1⟩

end Step

theorem extends_walk (g : Ground) (limit : Nat) (calls : List (Call Interpolation)) :
    Walk.Extends g (.start g) (walk g limit calls).2 :=
  Walking.Grows.mapM (fun q _ => (grows_answer_define g limit).1 q) (.start g)

/-- What was indexed is what is in the table, and it was indexed once. -/
theorem Walk.Extends.nodup_indexed {w : Walk} (h : Extends g (.start g) w) :
    w.indexed = Table.keys w.modules ∧ w.indexed.Nodup := by
  have heq : w.indexed = Table.keys w.modules := by
    obtain ⟨new, hmodules, hindexed⟩ := h.modules
    rw [hmodules, hindexed, Table.keys_append, Table.keys_map_pair]
    rfl
  exact ⟨heq, heq ▸ h.nodup_modules (by simp [start, Table.keys])⟩

/-- What was computed is what is in the graph beside the roots, and it was computed once. -/
theorem Walk.Extends.nodup_computed {w : Walk} (h : Extends g (.start g) w) :
    Table.keys w.graph = [.dynamic, .static] ++ w.computed ∧ (Table.keys w.graph).Nodup := by
  obtain ⟨new, hgraph, hcomputed⟩ := h.graph
  refine ⟨?_, h.nodup_graph (by simp [start, Table.keys])⟩
  rw [hgraph, hcomputed]
  rfl

end ThemedCss.Dependency
