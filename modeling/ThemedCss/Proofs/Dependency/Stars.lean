import ThemedCss.Proofs.Dependency.Written

/-! What modules export through each other, and which of several star exports is taken. -/
namespace ThemedCss.Dependency
open ThemedCss.Syntax ThemedCss.Scope ThemedCss.Style ThemedCss.Text

/-- An export that its own module settles: a binding, or something of a trusted package. -/
inductive Gives (g : Ground) : Path × String → Key → Prop
  | own {p n m own} : g.module? p = some m → m.exports.get? n = some (.own own) →
      own ∈ m.bindings.keys → Gives g (p, n) (.global p own)
  | reexported {p n m source name} :
      g.module? p = some m → m.exports.get? n = some (.reexported source name) →
      ¬Module.isRelative source → source ∈ g.pureModules → Gives g (p, n) .static
  | starred {p n m source} : g.module? p = some m → m.exports.get? n = none → source ∈ m.stars →
      ¬Module.isRelative source → source ∈ g.pureModules → Gives g (p, n) .static

/-- An export that may be an export of another module. -/
inductive Leads (g : Ground) : Path × String → Path × String → Prop
  | reexported {p n m source name q} :
      g.module? p = some m → m.exports.get? n = some (.reexported source name) →
      Module.isRelative source → g.link p source = .found q → Leads g (p, n) (q, name)
  | starred {p n m source q} : g.module? p = some m → m.exports.get? n = none → source ∈ m.stars →
      Module.isRelative source → g.link p source = .found q → Leads g (p, n) (q, n)

/-- An export stands for a node, directly or through other exports but none of `avoid`. -/
inductive Offers (g : Ground) (avoid : List (Path × String)) : Path × String → Key → Prop
  | here {e k} : e ∉ avoid → Gives g e k → Offers g avoid e k
  | further {e f k} : e ∉ avoid → Leads g e f → Offers g avoid f k → Offers g avoid e k

/-- The name `n` of a specifier stands for a node. -/
def Brings (g : Ground) (avoid : List (Path × String)) (p : Path) (source n : String) (k : Key) :
    Prop :=
  if Module.isRelative source then ∃ q, g.link p source = .found q ∧ Offers g avoid (q, n) k
  else source ∈ g.pureModules ∧ k = .static

section Offers

variable {g : Ground} {avoid : List (Path × String)} {e f : Path × String} {k : Key}

theorem Offers.mono (h : Offers g (f :: avoid) e k) : Offers g avoid e k := by
  induction h with
  | here he hk => exact .here (fun h => he (List.mem_cons_of_mem _ h)) hk
  | further he hf _ ih => exact .further (fun h => he (List.mem_cons_of_mem _ h)) hf ih

/-- A way that comes past an export can start at its last visit there. -/
theorem Offers.last_visit (f : Path × String) (h : Offers g avoid e k) :
    Offers g (f :: avoid) e k ∨
      f ∉ avoid ∧ (Gives g f k ∨ ∃ f', Leads g f f' ∧ Offers g (f :: avoid) f' k) := by
  induction h with
  | @here e k he hk =>
    by_cases hef : e = f
    · exact .inr (hef ▸ ⟨he, .inl hk⟩)
    · exact .inl (.here (by simp [hef, he]) hk)
  | @further e e' k he hlead _ ih =>
    rcases ih with hnext | hvisit
    · by_cases hef : e = f
      · subst hef
        exact .inr ⟨he, .inr ⟨e', hlead, hnext⟩⟩
      · exact .inl (.further (by simp [hef, he]) hlead hnext)
    · exact .inr hvisit

/-- Ways that never come back to where they started are enough. -/
theorem offers_iff :
    Offers g avoid e k ↔ e ∉ avoid ∧
      (Gives g e k ∨ ∃ f, Leads g e f ∧ Offers g (e :: avoid) f k) := by
  constructor
  · intro h
    rcases h.last_visit e with hback | hvisit
    · cases hback with
      | here he | further he => exact absurd List.mem_cons_self he
    · exact hvisit
  · rintro ⟨he, hk | ⟨f, hlead, hf⟩⟩
    · exact .here he hk
    · exact .further he hlead hf.mono

private theorem offers_of_mem (h : e ∈ avoid) : ¬Offers g avoid e k :=
  fun hk => (offers_iff.mp hk).1 h

private theorem offers_of_none {p : Path} {n : String} (hm : g.module? p = none) :
    ¬Offers g avoid (p, n) k := by
  intro hk
  obtain ⟨-, hk | ⟨f, hlead, -⟩⟩ := offers_iff.mp hk
  · cases hk with
    | own h | reexported h | starred h => simp [hm] at h
  · cases hlead with
    | reexported h | starred h => simp [hm] at h

/-- A module offers what its table of exports says or, for names that are not in it, what its star
exports bring. -/
theorem offers_exported {p : Path} {n : String} {m : Module} (hs : (p, n) ∉ avoid)
    (hm : g.module? p = some m) :
    Offers g avoid (p, n) k ↔
      match m.exports.get? n with
      | some (.own own) => own ∈ m.bindings.keys ∧ k = .global p own
      | some (.reexported source name) => Brings g ((p, n) :: avoid) p source name k
      | none => ∃ source ∈ m.stars, Brings g ((p, n) :: avoid) p source n k := by
  rw [offers_iff]
  constructor
  · rintro ⟨-, hk | ⟨f, hlead, hf⟩⟩
    · cases hk with
      | own h he hb =>
        obtain rfl := Option.some.inj (hm.symm.trans h)
        simpa [he] using hb
      | reexported h he hr hp =>
        obtain rfl := Option.some.inj (hm.symm.trans h)
        simp [he, Brings, hr, hp]
      | starred h he hsource hr hp =>
        obtain rfl := Option.some.inj (hm.symm.trans h)
        rw [he]
        exact ⟨_, hsource, by simp [Brings, hr, hp]⟩
    · cases hlead with
      | reexported h he hr hl =>
        obtain rfl := Option.some.inj (hm.symm.trans h)
        rw [he]
        exact (if_pos hr).mpr ⟨_, hl, hf⟩
      | starred h he hsource hr hl =>
        obtain rfl := Option.some.inj (hm.symm.trans h)
        rw [he]
        exact ⟨_, hsource, (if_pos hr).mpr ⟨_, hl, hf⟩⟩
  · intro hk
    refine ⟨hs, ?_⟩
    split at hk
    next own he =>
      obtain ⟨hb, rfl⟩ := hk
      exact .inl (.own hm he hb)
    next source name he =>
      unfold Brings at hk
      split_ifs at hk with hr
      · obtain ⟨q, hl, hq⟩ := hk
        exact .inr ⟨_, .reexported hm he hr hl, hq⟩
      · obtain ⟨hp, rfl⟩ := hk
        exact .inl (.reexported hm he hr hp)
    next he =>
      obtain ⟨source, hsource, hk⟩ := hk
      unfold Brings at hk
      split_ifs at hk with hr
      · obtain ⟨q, hl, hq⟩ := hk
        exact .inr ⟨_, .starred hm he hsource hr hl, hq⟩
      · obtain ⟨hp, rfl⟩ := hk
        exact .inl (.starred hm he hsource hr hp)

end Offers

/-- One of the offered nodes, or the dynamic root if there is none. -/
def Picks (offered : Key → Prop) (k : Key) : Prop :=
  if k = .dynamic then ∀ j, ¬offered j else offered k

theorem picks_dynamic {offered : Key → Prop} : Picks offered .dynamic ↔ ∀ j, ¬offered j := by
  simp [Picks]

theorem Picks.of_offered {offered : Key → Prop} {k : Key} (hk : k ≠ .dynamic) (h : offered k) :
    Picks offered k := by
  rwa [Picks, if_neg hk]

/-- The nodes that a question about exports may lead to. -/
def Question.offered (g : Ground) : Question → Key → Prop
  | .exported seen p n => Offers g seen (p, n)
  | .starred seen p n sources => fun k => ∃ source ∈ sources, Brings g seen p source n k
  | .imported seen p source n => Brings g seen p source n
  | _ => fun _ => False

def Question.aboutExports : Question → Prop
  | .exported .. | .starred .. | .imported .. => True
  | _ => False

/-- A question about exports leads to an offered node, and to the dynamic root only if nothing is
offered. -/
theorem picks_of_means {g : Ground} {q : Question} {k : Key} (h : Means g q k)
    (hq : q.aboutExports) : Picks (q.offered g) k := by
  induction h with
  | circular hs => exact picks_dynamic.mpr fun j => offers_of_mem hs
  | unreadable _ hm => exact picks_dynamic.mpr fun j => offers_of_none hm
  | own hs hm he hb =>
    refine .of_offered (by simp) ?_
    rw [Question.offered, offers_exported hs hm, he]
    exact ⟨hb, rfl⟩
  | unbound hs hm he hb =>
    refine picks_dynamic.mpr fun j => ?_
    rw [Question.offered, offers_exported hs hm, he]
    exact fun h => hb h.1
  | reexported hs hm he _ ih | unlisted hs hm he _ ih =>
    have hnext := ih trivial
    unfold Picks at hnext ⊢
    simpa only [Question.offered, offers_exported hs hm, he] using hnext
  | noStar => exact picks_dynamic.mpr fun j => by simp [Question.offered]
  | @thisStar seen p n source rest k _ hk ih =>
    have hbrings := ih trivial
    rw [Picks, if_neg hk] at hbrings
    exact .of_offered hk ⟨source, List.mem_cons_self, hbrings⟩
  | @laterStar seen p n source rest k _ _ ih ihrest =>
    have hnone := picks_dynamic.mp (ih trivial)
    have hrest := ihrest trivial
    unfold Picks at hrest ⊢
    simp only [Question.offered, List.exists_mem_cons_iff] at hnone hrest ⊢
    simpa only [hnone, false_or] using hrest
  | purePackage hr hp => exact .of_offered (by simp) ((if_neg hr).mpr ⟨hp, rfl⟩)
  | package hr hp =>
    refine picks_dynamic.mpr fun j => ?_
    rw [Question.offered, Brings, if_neg hr]
    exact fun h => hp h.1
  | missing hr hl =>
    refine picks_dynamic.mpr fun j => ?_
    rw [Question.offered, Brings, if_pos hr, hl]
    simp
  | found hr hl _ ih =>
    have hnext := ih trivial
    unfold Picks at hnext ⊢
    simpa [Question.offered, Brings, hr, hl] using hnext
  | _ => exact hq.elim

section Stars

variable {g : Ground} {seen : List (Path × String)} {p : Path} {n : String} {k : Key}

/-- Of several star exports, the first that brings the name is taken. -/
theorem exists_first_of_starred {sources : List String} (h : Means g (.starred seen p n sources) k)
    (hk : k ≠ .dynamic) :
    ∃ before star after, sources = before ++ star :: after ∧ Brings g seen p star n k ∧
      ∀ s ∈ before, ∀ j, ¬Brings g seen p s n j := by
  induction sources with
  | nil => exact absurd (means_starred_nil.mp h) hk
  | cons source rest ih =>
    rcases means_starred_cons.mp h with ⟨hsource, -⟩ | ⟨hnone, hrest⟩
    · have hbrings := picks_of_means hsource trivial
      rw [Picks, if_neg hk] at hbrings
      exact ⟨[], source, rest, rfl, hbrings, by simp⟩
    · obtain ⟨before, star, after, rfl, hbrings, hbefore⟩ := ih hrest
      have hsource := picks_dynamic.mp (picks_of_means hnone trivial)
      exact ⟨source :: before, star, after, rfl, hbrings,
        List.forall_mem_cons.mpr ⟨hsource, hbefore⟩⟩

variable {m : Module} {scopes : List StyleScope} (hm : g.module? p = some m)
  (hn : m.exports.get? n = none)
include hm hn

theorem means_starred_of_exported (h : Means g (.exported [] p n) k) :
    Means g (.starred [(p, n)] p n m.stars) k := by
  rw [means_exported List.not_mem_nil hm, hn] at h
  exact h

/-- If the star exports that stand in front bring dynamic nodes only, those behind count for
nothing. -/
theorem dynamic_of_front {front back : List String} (hstars : m.stars = front ++ back)
    (hdynamic : ∀ star ∈ front, ∀ j, Brings g [(p, n)] p star n j → Dynamic g scopes j)
    (hsome : back = [] ∨ ∃ star ∈ front, ∃ j, Brings g [(p, n)] p star n j)
    (h : Means g (.exported [] p n) k) : Dynamic g scopes k := by
  by_cases hk : k = .dynamic
  · exact hk ▸ .root
  obtain ⟨before, star, after, hsplit, hbrings, hbefore⟩ :=
    exists_first_of_starred (means_starred_of_exported hm hn h) hk
  have hfront : star ∈ front := by
    rw [hsplit] at hstars
    rcases hsome with rfl | ⟨first, hfirst, j, hj⟩
    · rw [List.append_nil] at hstars
      exact hstars ▸ by simp
    · have hnot : first ∉ before := fun hmem => hbefore first hmem j hj
      obtain ⟨rest, rfl, hrest⟩ | ⟨rest, rfl, -⟩ := List.append_eq_append_iff.mp hstars
      · cases rest with
        | nil => exact absurd (by simpa using hfirst) hnot
        | cons s rest =>
          obtain ⟨rfl, -⟩ := List.cons.inj hrest
          simp
      · exact absurd (List.mem_append_left _ hfirst) hnot
  exact hdynamic star hfront k hbrings

end Stars

/-- Questions for the name `x` of the module at `q`: an import of the name, or a member of all that
the module exports. -/
inductive Imports (g : Ground) (q : Path) (x : String) : Question → Prop
  | name {p source} : Module.isRelative source → g.link p source = .found q →
      Imports g q x (.imported [] p source x)
  | member {p m n source chain pos} :
      g.module? p = some m → m.bindings.get? n = some (.namespaceOf source) →
      Module.isRelative source → g.link p source = .found q →
      Imports g q x (.atTop p (.name n (x :: chain) pos))
  | inStyle {s n chain pos} :
      n ∉ s.locals.keys → s.parameters.theme.get? n = none → n ≠ s.parameters.tag →
      n ∉ s.parameters.others → Imports g q x (.atTop g.path (.name n chain pos)) →
      Imports g q x (.inStyle s (.name n chain pos))

/-- An import leads where the export leads; a member of a changed name is dynamic. -/
theorem Imports.means {g : Ground} {q : Path} {x : String} {asked : Question}
    (h : Imports g q x asked) {k : Key} (hk : Means g asked k) :
    k = .dynamic ∨ Means g (.exported [] q x) k := by
  induction h with
  | name hr hl =>
    rw [means_imported, if_pos hr, hl] at hk
    exact .inr hk
  | member hm hb hr hl =>
    rw [means_atTop_name hm, hb] at hk
    dsimp only at hk
    split_ifs at hk with hc
    · exact .inl hk
    · rw [means_imported, if_pos hr, hl] at hk
      exact .inr hk
  | inStyle hlocal htheme htag hothers _ ih =>
    rw [means_inStyle_name, if_neg hlocal, htheme] at hk
    dsimp only at hk
    rw [if_neg htag, if_neg hothers] at hk
    exact ih hk

/-- A name that a module does not export by itself is looked for in its star exports one after the
other, and the first that brings it is taken. So an import of the name is dynamic, as is all that
depends on it, if the star exports up to one that brings it bring dynamic nodes only, whatever
stands behind that one. -/
theorem first_star_export_decides (files : FileTree) (settings : Settings)
    (allows : List String → Bool) (path : Path) (root : Node) (source : Bytes) (filename : String) :
    let g := Ground.ofTree files settings allows path root
    let calls := (scan settings source root filename).calls
    ∀ q m x, g.module? q = some m → m.exports.get? x = none →
      (∀ k, Means g (.exported [] q x) k →
        Picks (Offers g [] (q, x)) k ∧
        (k ≠ .dynamic → ∃ before star after, m.stars = before ++ star :: after ∧
          Brings g [(q, x)] q star x k ∧ ∀ s ∈ before, ∀ j, ¬Brings g [(q, x)] q s x j)) ∧
      ∀ front back, m.stars = front ++ back →
        (∀ star ∈ front, ∀ j, Brings g [(q, x)] q star x j → Dynamic g (scopesOf calls) j) →
        (back = [] ∨ ∃ star ∈ front, ∃ j, Brings g [(q, x)] q star x j) →
        ∀ r, classify files settings allows path root calls = .ok r → ∀ asked, Imports g q x asked →
          (∀ k ∈ Table.keys r.graph, Asks g (scopesOf calls) k asked → k ∈ r.dynamic) ∧
          ∀ call ∈ r.calls, ∀ b ∈ call.blocks, ∀ i ∈ b.interpolations, i.wrapped = false →
            ∀ read ∈ i.node.reads [],
              (.inStyle (.ofCall call) read = asked ∨
                ∃ k d, Means g (.inStyle (.ofCall call) read) k ∧
                Relation.ReflTransGen (Reads g (scopesOf calls)) k d ∧
                Asks g (scopesOf calls) d asked) →
              i.label = .dynamic := by
  intro g calls q m x hm hx
  refine ⟨fun k hk => ⟨picks_of_means hk trivial, ?_⟩, ?_⟩
  · exact exists_first_of_starred (means_starred_of_exported hm hx hk)
  intro front back hstars hdynamic hsome r hr asked hasked
  have hsites : (calls.map (·.callSite)).Nodup :=
    (readSites_callSite settings source filename _ 0 0 _).1
  have hmeans : ∀ k, Means g asked k → Dynamic g (scopesOf calls) k := by
    intro k hk
    rcases hasked.means hk with rfl | hk
    · exact .root
    · exact dynamic_of_front hm hx hstars hdynamic hsome hk
  have hnode : ∀ k ∈ Table.keys r.graph, Asks g (scopesOf calls) k asked →
      Dynamic g (scopesOf calls) k := by
    intro k hk hasks
    obtain ⟨d, hd⟩ := exists_means_of_asks hsites hr hk hasks
    exact .reads ⟨asked, hasks, hd⟩ (hmeans d hd)
  refine ⟨fun k hk hasks => (mem_dynamic_iff hsites hr hk).mpr (hnode k hk hasks), ?_⟩
  intro call hcall b hb i hi hwrapped read hread hleads
  obtain hlabel | hcomes := label_eq_dynamic_or_asked hsites hr hcall hb hi hwrapped
  · exact hlabel
  rcases hleads with rfl | ⟨k, d, hk, hpath, hasks⟩
  · obtain ⟨k, hk⟩ := (answerable_of_classify hsites hr).1 _ (hcomes read hread)
    exact label_eq_dynamic hsites hr hcall hb hi hwrapped hread hk (hmeans k hk)
  · have hgraph : d ∈ Table.keys r.graph :=
      mem_graph_of_reachable hsites hr ⟨_, k, hcomes read hread, hk, hpath⟩
    have hd : Dynamic g (scopesOf calls) k := by
      rw [dynamic_iff_reaches]
      exact hpath.trans (dynamic_iff_reaches.mp (hnode d hgraph hasks))
    exact label_eq_dynamic hsites hr hcall hb hi hwrapped hread hk hd

def Definition.imported? : Definition → Option (String × String)
  | .imported source name => some (source, name)
  | _ => none

theorem Definition.imported?_eq_some {d : Definition} {source name : String}
    (h : d.imported? = some (source, name)) : d = .imported source name := by
  cases d with
  | imported source' name' => simpa [imported?] using h
  | namespaceOf _ | node _ | unknown => simp [imported?] at h

/-- A module with star exports, one whose `x` is known only when it runs, and one whose `x` is known
at build time. -/
def starFiles (stars : String) : FileTree :=
  ⟨[(["b.js"], .file (encode stars)), (["c.js"], .file (encode "export let x=w")),
    (["d.js"], .file (encode "export let x=1"))], [], []⟩

def starSource : String :=
  "import\x7bx\x7dfrom'./b';f((\x7bcss\x7d)=>(\x7br:css\x60$\x7bx\x7d\x60\x7d))"

def starSettings : Settings :=
  { Settings.ofTheme "t" with factory := "f", pureModules := ["p"] }

def starRoot : Node :=
  parse .script starSource.toList

def starCalls : List (Call Interpolation) :=
  (scan starSettings (encode starSource) starRoot "a.js").calls

def topPath (name : String) : Path :=
  ⟨true, [name]⟩

def starGround (stars : String) : Ground :=
  .ofTree (starFiles stars) starSettings (fun _ => true) (topPath "a.js") starRoot

def starContext (stars : String) : Context :=
  .ofTree (starFiles stars) starSettings (fun _ => true) (topPath "a.js") starRoot

/-- For an exported binding, a module offers nothing but the binding. -/
theorem offers_own {g : Ground} {p : Path} {n : String} {avoid : List (Path × String)} {k : Key}
    (hrun : (g.module? p).any fun m => m.exports.get? n = some (.own n) ∧ n ∈ m.bindings.keys)
    (havoid : (p, n) ∉ avoid) : Offers g avoid (p, n) k ↔ k = .global p n := by
  obtain ⟨m, hm, hexport⟩ := (Option.any_eq_true _ _).mp hrun
  obtain ⟨hown, hbound⟩ := of_decide_eq_true hexport
  rw [offers_exported havoid hm, hown]
  simp [hbound]

theorem dynamic_of_globalReads {stars : String} {p : Path} {n : String}
    (hrun : p ∈ Table.keys (starContext stars).program ∧ ((starGround stars).module? p).isSome ∧
      ∃ a ∈ (starContext stars).globalReads p n, a.fault = none ∧ a.key = .dynamic) :
    Dynamic (starGround stars) (scopesOf starCalls) (.global p n) := by
  obtain ⟨hp, hsome, hreads⟩ := hrun
  obtain ⟨m, hm⟩ := Option.isSome_iff_exists.mp hsome
  have hc : (starContext stars).Holds (starGround stars) := Context.holds_ofTree _ _ _ _ _
  obtain ⟨q, hq, hk⟩ := (Context.tellAll_globalReads hc hp hm n).exists_means_iff.mpr hreads
  exact .reads ⟨q, .atTop hm hq, hk⟩ .root

/-- A dynamic name stays dynamic with a trusted package behind it. -/
theorem first_star_export_decides_late_package :
    let stars := "export*from'./c';export*from'p'"
    let g := starGround stars
    (∃ m, g.module? (topPath "b.js") = some m ∧ m.exports.get? "x" = none ∧
      m.stars = ["./c"] ++ ["p"]) ∧
      (∃ j, Brings g [(topPath "b.js", "x")] (topPath "b.js") "./c" "x" j) ∧
      (∀ j, Brings g [(topPath "b.js", "x")] (topPath "b.js") "./c" "x" j →
        Dynamic g (scopesOf starCalls) j) ∧
      ∃ r, classify (starFiles stars) starSettings (fun _ => true) (topPath "a.js") starRoot
        starCalls = .ok r ∧
        ∃ call ∈ r.calls, ∃ b ∈ call.blocks, ∃ i ∈ b.interpolations, i.wrapped = false ∧
        .name "x" [] 40 ∈ i.node.reads [] ∧ i.label = .dynamic := by
  intro stars g
  have hrun :
      ((g.module? (topPath "b.js")).any fun m => m.exports.get? "x" = none ∧
        m.stars = ["./c"] ++ ["p"]) ∧
      g.link (topPath "b.js") "./c" = .found (topPath "c.js") ∧
      ((g.module? (topPath "c.js")).any fun m => m.exports.get? "x" = some (.own "x") ∧
        "x" ∈ m.bindings.keys) ∧
      (topPath "c.js" ∈ Table.keys (starContext stars).program ∧
        (g.module? (topPath "c.js")).isSome ∧
        ∃ a ∈ (starContext stars).globalReads (topPath "c.js") "x", a.fault = none ∧
        a.key = .dynamic) ∧
      (g.main.bindings.get? "x").bind Definition.imported? = some ("./b", "x") ∧
      "x" ∉ g.main.reassigned ∧ g.link (topPath "a.js") "./b" = .found (topPath "b.js") ∧
      (classify (starFiles stars) starSettings (fun _ => true) (topPath "a.js") starRoot
        starCalls).toOption.any fun r =>
        decide (∃ call ∈ r.calls, ∃ b ∈ call.blocks, ∃ i ∈ b.interpolations, i.wrapped = false ∧
          .name "x" [] 40 ∈ i.node.reads [] ∧ "x" ∉ (StyleScope.ofCall call).locals.keys ∧
          (StyleScope.ofCall call).parameters.theme.get? "x" = none ∧
          "x" ≠ (StyleScope.ofCall call).parameters.tag ∧
          "x" ∉ (StyleScope.ofCall call).parameters.others) := by
    decide +kernel
  obtain ⟨hstars, hlink, hown, hreads, himport, hfixed, hfile, hclassify⟩ := hrun
  obtain ⟨m, hm, hstars⟩ := (Option.any_eq_true _ _).mp hstars
  obtain ⟨hx, hstars⟩ := of_decide_eq_true hstars
  obtain ⟨r, hr, hcall⟩ := (Option.any_eq_true _ _).mp hclassify
  obtain ⟨call, hcall, b, hb, i, hi, hwrapped, hread, hlocal, htheme, htag, hothers⟩ :=
    of_decide_eq_true hcall
  obtain ⟨d, hd, himport⟩ := Option.bind_eq_some_iff.mp himport
  obtain rfl := Definition.imported?_eq_some himport
  have hbrings : ∀ j, Brings g [(topPath "b.js", "x")] (topPath "b.js") "./c" "x" j ↔
      j = .global (topPath "c.js") "x" := by
    intro j
    rw [Brings, if_pos (by decide), hlink]
    simpa using offers_own hown (by decide)
  have hdynamic := dynamic_of_globalReads hreads
  have hmain : g.module? (topPath "a.js") = some g.main :=
    (Program.loaded_ofTree (starFiles stars) starSettings (fun _ => true) (topPath "a.js")
      starRoot).main.2
  have hbound : Means g (.inStyle (.ofCall call) (.name "x" [] 40))
      (.global (topPath "a.js") "x") :=
    .outer hlocal htheme htag hothers (.bound hmain hd (by simp))
  have hasks : Asks g (scopesOf starCalls) (.global (topPath "a.js") "x")
      (.imported [] (topPath "a.js") "./b" "x") := by
    refine .atTop hmain ?_
    rw [Module.asked, if_neg hfixed, hd]
    exact List.mem_cons_self
  have hfront : ∀ star ∈ ["./c"], ∀ j,
      Brings g [(topPath "b.js", "x")] (topPath "b.js") star "x" j →
      Dynamic g (scopesOf starCalls) j := by
    intro star hstar j hj
    obtain rfl := List.mem_singleton.mp hstar
    exact (hbrings j).mp hj ▸ hdynamic
  have hok := eq_ok_of_toOption hr
  have hdecides := (first_star_export_decides (starFiles stars) starSettings (fun _ => true)
    (topPath "a.js") starRoot (encode starSource) "a.js" (topPath "b.js") m "x" hm hx).2
    ["./c"] ["p"] hstars hfront (.inr ⟨"./c", List.mem_cons_self, _, (hbrings _).mpr rfl⟩)
  have hlabel := (hdecides r hok _ (.name (by decide) hfile)).2 call hcall b hb i hi hwrapped _
    hread (.inr ⟨_, _, hbound, .refl, hasks⟩)
  exact ⟨⟨m, hm, hx, hstars⟩, ⟨_, (hbrings _).mpr rfl⟩, fun j hj => (hbrings j).mp hj ▸ hdynamic, r,
    hok, call, hcall, b, hb, i, hi, hwrapped, hread, hlabel⟩

/-- A star export in front that brings a name known at build time hides a dynamic one. -/
theorem dynamic_star_export_hidden :
    ["export*from'p';export*from'./c'", "export*from'./d';export*from'./c'"].Forall fun stars =>
      let g := starGround stars
      (∃ m, g.module? (topPath "b.js") = some m ∧ m.exports.get? "x" = none ∧ "./c" ∈ m.stars) ∧
        Module.isRelative "./c" ∧ g.link (topPath "b.js") "./c" = .found (topPath "c.js") ∧
        Offers g [] (topPath "c.js", "x") (.global (topPath "c.js") "x") ∧
        Dynamic g (scopesOf starCalls) (.global (topPath "c.js") "x") ∧
        (classify (starFiles stars) starSettings (fun _ => true) (topPath "a.js") starRoot
          starCalls).toOption.map
          (·.calls.map (·.blocks.map (·.interpolations.map (·.label)))) = some [[[.static]]] := by
  rw [List.forall_iff_forall_mem]
  intro stars hstars
  have hrun :
      (((starGround stars).module? (topPath "b.js")).any fun m => m.exports.get? "x" = none ∧
        "./c" ∈ m.stars) ∧
      (starGround stars).link (topPath "b.js") "./c" = .found (topPath "c.js") ∧
      (((starGround stars).module? (topPath "c.js")).any fun m =>
        m.exports.get? "x" = some (.own "x") ∧ "x" ∈ m.bindings.keys) ∧
      (topPath "c.js" ∈ Table.keys (starContext stars).program ∧
        ((starGround stars).module? (topPath "c.js")).isSome ∧
        ∃ a ∈ (starContext stars).globalReads (topPath "c.js") "x", a.fault = none ∧
        a.key = .dynamic) ∧
      (classify (starFiles stars) starSettings (fun _ => true) (topPath "a.js") starRoot
        starCalls).toOption.map
        (·.calls.map (·.blocks.map (·.interpolations.map (·.label)))) = some [[[.static]]] := by
    revert stars
    decide +kernel
  obtain ⟨hstars, hlink, hown, hreads, hlabel⟩ := hrun
  obtain ⟨m, hm, hx⟩ := (Option.any_eq_true _ _).mp hstars
  have hoffers : Offers (starGround stars) [] (topPath "c.js", "x")
      (.global (topPath "c.js") "x") :=
    (offers_own hown List.not_mem_nil).mpr rfl
  exact ⟨⟨m, hm, of_decide_eq_true hx⟩, by
    decide, hlink, hoffers, dynamic_of_globalReads hreads, hlabel⟩

end ThemedCss.Dependency
