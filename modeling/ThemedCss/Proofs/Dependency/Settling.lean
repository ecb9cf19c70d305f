import ThemedCss.Proofs.Dependency.Reads
import ThemedCss.Proofs.Dependency.Walk

/-! Each question comes to a fault, to a root or to a definition, after no more levels than there
are exports to ask for. -/
namespace ThemedCss.Dependency
open ThemedCss.Syntax ThemedCss.Scope ThemedCss.Style ThemedCss.Text

variable {c : Context} {g : Ground} {scopes : List StyleScope}

namespace Walk

variable {w w' : Walk}

theorem Extends.mem_modules (h : Extends g w w') {p : Path} (hp : p ∈ Table.keys w.modules) :
    p ∈ Table.keys w'.modules := by
  obtain ⟨new, hmodules, -⟩ := h.modules
  rw [hmodules, Table.keys_append]
  exact List.mem_append_left _ hp

/-- Questions can be asked: indexed modules are as they are in the files, the compiled one is
indexed, and the roots are nodes. -/
structure Ready (g : Ground) (w : Walk) : Prop where
  module : ∀ p ∈ Table.keys w.modules, w.module? p = g.module? p
  main : g.path ∈ Table.keys w.modules
  roots : ∀ k ∈ [Key.dynamic, .static], k ∈ Table.keys w.graph

theorem Ready.extends (hw : w.Ready g) (h : Extends g w w') : w'.Ready g := by
  refine ⟨fun p hp => ?_, h.mem_modules hw.main, fun k hk => h.mem_graph (hw.roots k hk)⟩
  obtain ⟨new, hmodules, -⟩ := h.modules
  rw [hmodules, Table.keys_append, Table.keys_map_pair] at hp
  rw [module?, hmodules, Table.get?_append]
  by_cases hold : p ∈ Table.keys w.modules
  · obtain ⟨m, hm⟩ :=
      Option.ne_none_iff_exists'.mp (mt Table.get?_eq_none_iff.mp (not_not.mpr hold))
    rw [← hw.module p hold, module?, hm]
    rfl
  · have hnew : p ∈ new := (List.mem_append.mp hp).resolve_left hold
    rw [Table.get?_eq_none_iff.mpr hold, Table.get?_map_pair, if_pos hnew]
    rfl

theorem ready_start (hmain : g.module? g.path = some g.main) : (start g).Ready g := by
  refine ⟨fun p hp => ?_, by simp [start, Table.keys], by simp [start, Table.keys]⟩
  obtain rfl : p = g.path := by simpa [start, Table.keys] using hp
  simp [module?, start, Table.get?, hmain]

def loadAll (g : Ground) (ps : List Path) (w : Walk) : Walk :=
  ps.foldl (fun w p => w.load g p) w

theorem loadAll_append (ps qs : List Path) (w : Walk) :
    w.loadAll g (ps ++ qs) = (w.loadAll g ps).loadAll g qs :=
  List.foldl_append

theorem Extends.loadAll (w : Walk) (ps : List Path) : Extends g w (w.loadAll g ps) := by
  induction ps generalizing w with
  | nil => exact .refl w
  | cons p rest ih => exact (Extends.load w p).trans (ih _)

@[simp] theorem graph_load (w : Walk) (p : Path) : (w.load g p).graph = w.graph := by
  unfold load
  split_ifs <;> rfl

@[simp] theorem graph_loadAll (w : Walk) (ps : List Path) : (w.loadAll g ps).graph = w.graph := by
  induction ps generalizing w with
  | nil => rfl
  | cons p rest ih => exact (ih _).trans (graph_load w p)

theorem mem_modules_load {p q : Path} :
    q ∈ Table.keys (w.load g p).modules ↔ q ∈ Table.keys w.modules ∨ q = p := by
  unfold load
  split_ifs with hp
  · have hp : p ∈ Table.keys w.modules := Table.has_iff.mp hp
    refine ⟨.inl, ?_⟩
    rintro (hq | rfl)
    · exact hq
    · exact hp
  · exact Table.mem_keys_insert

theorem mem_modules_loadAll {ps : List Path} {q : Path} :
    q ∈ Table.keys (w.loadAll g ps).modules ↔ q ∈ Table.keys w.modules ∨ q ∈ ps := by
  induction ps generalizing w with
  | nil => simp [loadAll]
  | cons p rest ih =>
    change q ∈ Table.keys ((w.load g p).loadAll g rest).modules ↔ _
    rw [ih, mem_modules_load, List.mem_cons, or_assoc]

theorem Ready.module?_load (hw : w.Ready g) (p : Path) : (w.load g p).module? p = g.module? p :=
  (hw.extends (.load w p)).module p (mem_modules_load.mpr (.inr rfl))

end Walk

def Question.Posed (w : Walk) : Question → Prop
  | .atTop p _ => p ∈ Table.keys w.modules
  | _ => True

/-- How a question that was asked in a state ends: with a fault, at a root, or with the definition
of another node, for which at least `room` levels are left. -/
inductive Settles (c : Context) (g : Ground) (scopes : List StyleScope) (room : Nat) (w : Walk)
    (run : Except Halt Key × Walk) (a : Answer) : Prop
  | fault {f w'} : a.fault = some f → run = (.error (.fault f), w') →
      Settles c g scopes room w run a
  | root : a.fault = none → a.key ∈ [Key.dynamic, .static] →
      run = (.ok a.key, w.loadAll g a.consulted) → Settles c g scopes room w run a
  | definition {limit asked} : a.fault = none → a.key ≠ .dynamic → room ≤ limit →
      List.Forall₂ (c.Answers g scopes) asked (c.reads scopes a.key) →
      (∀ q ∈ asked, q.Posed (w.loadAll g a.consulted)) →
      run = (define g limit a.key asked).runFrom (w.loadAll g a.consulted) →
      Settles c g scopes room w run a

theorem Question.Posed.extends {q : Question} {w w' : Walk} (h : q.Posed w)
    (hext : w.Extends g w') : q.Posed w' := by
  cases q with
  | atTop p r => exact hext.mem_modules h
  | unknown | exported | starred | imported | inStyle => trivial

theorem posed_asked {w : Walk} {p : Path} (hp : p ∈ Table.keys w.modules) (m : Module)
    (n : String) : ∀ q ∈ m.asked p n, q.Posed w := by
  have hunknown : ∀ q ∈ [Question.unknown], q.Posed w := by simp [Question.Posed]
  unfold Module.asked
  split_ifs
  · exact hunknown
  split
  · simp [Question.Posed]
  · intro q hq
    obtain ⟨r, -, rfl⟩ := List.mem_map.mp hq
    exact hp
  · exact hunknown

private theorem posed_asked_inStyle (w : Walk) (s : StyleScope) (m : Module) (n : String) :
    ∀ q ∈ s.asked m n, q.Posed w := by
  have hunknown : ∀ q ∈ [Question.unknown], q.Posed w := by simp [Question.Posed]
  unfold StyleScope.asked
  split
  · split_ifs
    · exact hunknown
    intro q hq
    obtain ⟨r, -, rfl⟩ := List.mem_map.mp hq
    trivial
  · exact hunknown

def Answer.via (p : Path) (a : Answer) : Answer :=
  { a with consulted := p :: a.consulted }

section Answering

open Walking

variable {room limit : Nat} {w : Walk}

/-- Some modules were indexed before. -/
theorem Settles.after {run : Except Halt Key × Walk} {ps : List Path} {b : Answer}
    (h : Settles c g scopes room (w.loadAll g ps) run b) :
    Settles c g scopes room w run ⟨b.key, ps ++ b.consulted, b.fault⟩ := by
  cases h with
  | fault hf hrun => exact .fault hf hrun
  | root hf hk hrun => exact .root hf hk (by rw [hrun, Walk.loadAll_append])
  | definition hf hk hroom hasked hposed hrun =>
    rw [← Walk.loadAll_append] at hposed hrun
    exact .definition hf hk hroom hasked hposed hrun

theorem Settles.via {run : Except Halt Key × Walk} {p : Path} {b : Answer}
    (h : Settles c g scopes room (w.load g p) run b) : Settles c g scopes room w run (b.via p) := by
  have h' : Settles c g scopes room (w.loadAll g [p]) run b := h
  exact h'.after

theorem settles_dynamic : Settles c g scopes room w (.ok .dynamic, w) .dynamic :=
  .root rfl (by simp [Answer.dynamic]) rfl

theorem settles_static : Settles c g scopes room w (.ok .static, w) ⟨.static, [], none⟩ :=
  .root rfl (by simp) rfl

/-- Of several questions, the first that is not dynamic counts. -/
theorem settles_firstKnown {ask : String → Walking Key} {tell : String → Answer}
    {sources : List String} (hw : w.Ready g)
    (h : ∀ source ∈ sources, ∀ w : Walk, w.Ready g →
      Settles c g scopes room w ((ask source).runFrom w) (tell source)) :
    Settles c g scopes room w ((Walking.firstKnown ask sources).runFrom w)
      (Answer.firstKnown tell sources) := by
  induction sources generalizing w with
  | nil => exact settles_dynamic
  | cons source rest ih =>
    obtain ⟨hsource, hrest⟩ := List.forall_mem_cons.mp h
    unfold Answer.firstKnown Walking.firstKnown
    cases hsource w hw with
    | @fault f w' hf hrun =>
      refine .fault (f := f) ?_ (runFrom_bind_error hrun _)
      dsimp only
      split_ifs
      · exact hf
      · rw [hf]
        rfl
    | root hf hk hrun =>
      rw [runFrom_bind_ok hrun]
      by_cases hd : (tell source).key = .dynamic
      · rw [if_neg (not_not.mpr hd), if_neg (not_not.mpr hd), hf]
        exact (ih (hw.extends (.loadAll w _)) hrest).after
      · rw [if_pos hd, if_pos hd]
        exact .root hf hk rfl
    | definition hf hk hroom hasked hposed hrun =>
      rw [if_pos hk]
      refine .definition hf hk hroom hasked hposed ?_
      rw [← hrun]
      obtain ⟨r, w', hr⟩ : ∃ r w', (ask source).runFrom w = (r, w') := ⟨_, _, rfl⟩
      rw [hr]
      cases r with
      | ok j =>
        obtain rfl := define_eq_ok (hrun.symm.trans hr)
        rw [runFrom_bind_ok hr, if_pos hk]
        rfl
      | error e => exact runFrom_bind_error hr _

theorem settles_imported (hc : c.Holds g) {seen : List (Path × String)} {p : Path} {m : Module}
    {source n : String} {ask : Path → String → Answer} (hp : p ∈ Table.keys c.program)
    (hm : g.module? p = some m) (hs : source ∈ m.sources)
    (hask : ∀ q ∈ Table.keys c.program,
      Settles c g scopes room w ((answer g limit (.exported seen q n)).runFrom w)
        ((ask q n).via q)) :
    Settles c g scopes room w ((answer g (limit + 1) (.imported seen p source n)).runFrom w)
      (importKey g.pureModules ask m source n) := by
  unfold importKey
  rw [answer]
  by_cases hrel : Module.isRelative source
  · rw [if_pos hrel, if_pos hrel, hc.loaded.link hp hm hs hrel]
    cases hlink : g.link p source with
    | missing => exact settles_dynamic
    | faulty f => exact .fault rfl rfl
    | found q => exact hask q (hc.loaded.target hp hm hs hrel hlink)
  · rw [if_neg hrel, if_neg hrel]
    by_cases hpure : source ∈ g.pureModules
    · rw [if_pos hpure, if_pos (by simpa using hpure)]
      exact settles_static
    · rw [if_neg hpure, if_neg (by simpa using hpure)]
      exact settles_dynamic

/-- With a level for each export that can still come up, the answer to a question for an export is
come to. An export takes up to three levels: itself, the star exports, and the import that leads
on. -/
theorem settles_exported (hc : c.Holds g) (n₀ : String) {depth : Nat} {seen : List (Path × String)}
    {p : Path} {n : String} (hw : w.Ready g) (hp : p ∈ Table.keys c.program)
    (hn : n ∈ n₀ :: c.program.reexportedNames)
    (hd : (c.program.askable n₀ \ seen.toFinset).card < depth) (hlimit : room + 3 * depth ≤ limit) :
    Settles c g scopes room w ((answer g limit (.exported seen p n)).runFrom w)
      ((exportKey c.program g.pureModules depth seen p n).via p) := by
  induction depth generalizing limit seen p n w with
  | zero => omega
  | succ depth ih =>
    obtain ⟨limit, rfl⟩ : ∃ l, limit = l + 3 := ⟨limit - 3, by omega⟩
    have hw' : (w.load g p).Ready g := hw.extends (.load w p)
    refine Settles.via ?_
    unfold exportKey
    rw [answer, runFrom_modify_bind, runFrom_get_bind, hw.module?_load p, hc.loaded.module p hp]
    cases hm : g.module? p with
    | none =>
      rw [ite_self]
      exact settles_dynamic
    | some m =>
      by_cases hseen : (p, n) ∈ seen
      · rw [if_pos (by simpa using hseen)]
        dsimp only
        rw [if_pos hseen]
        exact settles_dynamic
      rw [if_neg (by simpa using hseen)]
      dsimp only
      rw [if_neg hseen]
      -- asking on from here, one export fewer can come up
      have hnext : (c.program.askable n₀ \ ((p, n) :: seen).toFinset).card < depth := by
        have hin : (p, n) ∈ c.program.askable n₀ \ seen.toFinset := by
          simpa [Program.askable, hseen, hp] using hn
        have hlt := Finset.card_erase_lt_of_mem hin
        rw [List.toFinset_cons, Finset.sdiff_insert]
        omega
      cases he : m.exports.get? n with
      | none =>
        dsimp only
        rw [answer]
        refine settles_firstKnown hw' fun source hs w hw => ?_
        refine settles_imported hc hp hm (Module.mem_sources_of_mem_stars hs) fun q hq => ?_
        exact ih hw hq hn hnext (by omega)
      | some origin =>
        cases origin with
        | own own =>
          dsimp only
          by_cases hb : own ∈ m.bindings.keys
          · rw [if_pos hb, if_pos (Table.has_iff.mpr hb)]
            have hindexed : p ∈ Table.keys (w.load g p).modules :=
              Walk.mem_modules_load.mpr (.inr rfl)
            exact .definition rfl (by simp) (by omega) (Context.answers_globalReads hc hp hm own)
              (posed_asked hindexed m own) rfl
          · rw [if_neg hb, if_neg (mt Table.has_iff.mp hb)]
            exact settles_dynamic
        | reexported source name =>
          have hn' := List.mem_cons_of_mem n₀
            (Program.mem_reexportedNames ((hc.loaded.module p hp).trans hm) he)
          exact settles_imported hc hp hm (Module.mem_sources_of_reexported he) fun q hq =>
            ih hw' hq hn' hnext (by omega)

/-- An import is followed to its end. -/
theorem settles_importKey (hc : c.Holds g) (hw : w.Ready g) {p : Path} {m : Module}
    {source n : String} (hp : p ∈ Table.keys c.program) (hm : g.module? p = some m)
    (hs : source ∈ m.sources) (hlimit : room + 3 * exportDepth c.program + 1 ≤ limit) :
    Settles c g scopes room w ((answer g limit (.imported [] p source n)).runFrom w)
      (c.importKey m source n) := by
  obtain ⟨limit, rfl⟩ : ∃ l, limit = l + 1 := ⟨limit - 1, by omega⟩
  unfold Context.importKey
  rw [hc.pureModules]
  refine settles_imported hc hp hm hs fun q hq => ?_
  unfold Context.exportKey
  rw [hc.pureModules]
  refine settles_exported hc n hw hq List.mem_cons_self ?_ (by omega)
  simpa using c.program.card_askable_lt n

theorem settles_globalKey (hc : c.Holds g) (hw : w.Ready g) {p : Path} {m : Module}
    (hp : p ∈ Table.keys c.program) (hm : g.module? p = some m)
    (hindexed : p ∈ Table.keys w.modules) (r : Read)
    (hlimit : room + 3 * exportDepth c.program + 2 ≤ limit) :
    Settles c g scopes room w ((answer g limit (.atTop p r)).runFrom w) (c.globalKey p m r) := by
  obtain ⟨limit, rfl⟩ : ∃ l, limit = l + 1 := ⟨limit - 1, by omega⟩
  cases r with
  | effect pos =>
    rw [answer]
    exact settles_dynamic
  | name n chain pos =>
    rw [answer, runFrom_get_bind, hw.module p hindexed, hm, Context.globalKey, hc.marker]
    dsimp only
    have hbound : Settles c g scopes room w ((define g limit (.global p n) (m.asked p n)).runFrom w)
        ⟨.global p n, [], none⟩ :=
      .definition rfl (by simp) (by omega) (Context.answers_globalReads hc hp hm n)
        (posed_asked hindexed m n) rfl
    cases hb : m.bindings.get? n with
    | none =>
      dsimp only
      by_cases ht : isPureGlobal n chain ∨ n = g.marker
      · rw [if_pos ht, if_pos (by simpa using ht)]
        exact settles_static
      · rw [if_neg ht, if_neg (by simpa using ht)]
        exact settles_dynamic
    | some d =>
      cases d with
      | namespaceOf source =>
        cases chain with
        | nil => exact settles_dynamic
        | cons member rest =>
          dsimp only
          by_cases hr : n ∈ m.reassigned
          · rw [if_pos hr, if_pos (by simpa using hr)]
            exact settles_dynamic
          · rw [if_neg hr, if_neg (by simpa using hr)]
            exact settles_importKey hc hw hp hm (Module.mem_sources_of_namespaceOf hb) (by omega)
      | imported | node | unknown => exact hbound

private theorem settles_localKey (hc : c.Holds g) (hn : (scopes.map (·.callSite)).Nodup)
    (hw : w.Ready g) {s : StyleScope} (hs : s ∈ scopes) (r : Read)
    (hlimit : room + 3 * exportDepth c.program + 3 ≤ limit) :
    Settles c g scopes room w ((answer g limit (.inStyle s r)).runFrom w) (c.localKey s r) := by
  obtain ⟨limit, rfl⟩ : ∃ l, limit = l + 1 := ⟨limit - 1, by omega⟩
  obtain ⟨hp, hm⟩ := hc.loaded.main
  cases r with
  | effect pos =>
    rw [answer]
    exact settles_dynamic
  | name n chain pos =>
    rw [answer, Context.localKey, hc.path, hc.main, hc.allows]
    by_cases hl : n ∈ s.locals.keys
    · rw [if_pos hl, if_pos (Table.has_iff.mpr hl)]
      have hasked : List.Forall₂ (c.Answers g scopes) (s.asked g.main n)
          (c.reads scopes (.local g.path s.callSite n)) := by
        simp only [Context.reads, find?_callSite hn hs]
        exact Context.answers_localReads hc hs n
      exact .definition rfl (by simp) (by omega) hasked (posed_asked_inStyle _ s g.main n) rfl
    rw [if_neg hl, if_neg (mt Table.has_iff.mp hl)]
    cases ht : s.parameters.theme.get? n with
    | some way =>
      dsimp only
      by_cases hr : n ∈ g.main.reassigned
      · rw [if_neg (by simp [hr]), if_pos (by simpa using hr)]
        exact settles_dynamic
      by_cases ha : g.allows (way ++ chain)
      · rw [if_pos ⟨hr, ha⟩, if_neg (by simpa using hr), if_pos ha]
        exact settles_static
      · rw [if_neg fun h => ha h.2, if_neg (by simpa using hr), if_neg ha]
        exact settles_dynamic
    | none =>
      dsimp only
      by_cases htag : n = s.parameters.tag
      · rw [if_pos htag, if_pos htag]
        exact settles_static
      rw [if_neg htag, if_neg htag]
      by_cases ho : n ∈ s.parameters.others
      · rw [if_pos ho, if_pos (by simpa using ho)]
        exact settles_dynamic
      rw [if_neg ho, if_neg (by simpa using ho)]
      exact settles_globalKey hc hw hp hm hw.main _ (by omega)

/-- With enough levels, every question of a definition or an interpolation is settled. -/
theorem settles_of_answers (hc : c.Holds g) (hn : (scopes.map (·.callSite)).Nodup) {q : Question}
    {a : Answer} (h : c.Answers g scopes q a) (hw : w.Ready g) (hq : q.Posed w)
    (hlimit : room + 3 * exportDepth c.program + 3 ≤ limit) :
    Settles c g scopes room w ((answer g limit q).runFrom w) a := by
  cases h with
  | unknown =>
    obtain ⟨limit, rfl⟩ : ∃ l, limit = l + 1 := ⟨limit - 1, by omega⟩
    rw [answer]
    exact settles_dynamic
  | imported hp hm hs => exact settles_importKey hc hw hp hm hs (by omega)
  | atTop hp hm => exact settles_globalKey hc hw hp hm hq _ (by omega)
  | inStyle hs => exact settles_localKey hc hn hw hs _ hlimit

end Answering

end ThemedCss.Dependency
