import ThemedCss.Proofs.Dependency.Written

/-! What the names of a declarator depend on. -/
namespace ThemedCss.Syntax.Node
open ThemedCss.Scope

def valueReads (d : Node) : List Read :=
  (d.child? .value).toList.flatMap (reads [])

def patternReads (d : Node) : List Read :=
  defaultsAt [] .name d.children

private theorem reads_declarator {d : Node} (hd : d.kind = .declarator) :
    d.reads [] = d.patternReads ++ d.valueReads := by
  rw [valueReads, ← readsAt_eq]
  obtain ⟨kind, role, start, stop, text, children⟩ := d
  obtain rfl : kind = .declarator := hd
  simp [reads, patternReads, Kind.isEffect]

end ThemedCss.Syntax.Node

namespace ThemedCss.Dependency
open ThemedCss.Syntax ThemedCss.Scope ThemedCss.Style ThemedCss.Text

/-- Something at the top level of a module or of a function body that defines names. -/
inductive Definer (α : Type) where
  /-- A declarator gives its value to the names of its pattern. -/
  | declarator (d : Node)
  | other (entries : List (String × α))

namespace Definer

variable {α : Type}

/-- The names, each with what defines it. `define` tells what a value, or none, makes of a name. -/
def entries (define : Option Node → α) : Definer α → List (String × α)
  | declarator d => (Node.patternNamesAt .name d.children).map (·, define (d.child? .value))
  | other entries => entries

def ofDeclaration (define : Option Node → α) (statement : Node) : List (Definer α) :=
  match statement.kind with
  | .lexicalDeclaration | .variableDeclaration => statement.declarators.map .declarator
  | .functionDeclaration | .generatorDeclaration =>
    [.other (statement.declaredNames.map (·, define (some statement)))]
  | .classDeclaration => [.other (statement.declaredNames.map (·, define none))]
  | _ => []

def ofImport (statement : Node) : List (Definer Definition) :=
  (statement.child? .source).toList.flatMap fun source =>
    ((statement.named.filter (·.kind == .importClause)).flatMap (·.named)).map fun part =>
      .other (Module.importedNames source.plainText part)

/-- The parts of a default export. What has no name is known under a name of its own. -/
def ofDefault (statement : Node) : List (Definer Definition) :=
  match statement.child? .declaration, statement.child? .value with
  | some declaration, _ =>
    ofDeclaration Module.ofValue declaration ++
      if declaration.declaredNames.isEmpty then
        [.other [(defaultName, Module.ofUnnamed declaration)]]
      else []
  | none, some value =>
    if value.kind = .identifier then [] else [.other [(defaultName, .node value)]]
  | none, none => []

def ofStatement (statement : Node) : List (Definer Definition) :=
  match statement.kind with
  | .importStatement => ofImport statement
  | .exportStatement =>
    if statement.hasChild .defaultKeyword then ofDefault statement
    else (statement.child? .declaration).toList.flatMap (ofDeclaration Module.ofValue)
  | _ => ofDeclaration Module.ofValue statement

theorem kind_of_mem_ofDeclaration {define : Option Node → α} {statement d : Node}
    (h : .declarator d ∈ ofDeclaration define statement) : d.kind = .declarator := by
  unfold ofDeclaration at h
  split at h
  · obtain ⟨e, he, heq⟩ := List.mem_map.mp h
    obtain rfl := Definer.declarator.inj heq
    exact beq_iff_eq.mp (List.mem_filter.mp he).2
  · obtain ⟨e, he, heq⟩ := List.mem_map.mp h
    obtain rfl := Definer.declarator.inj heq
    exact beq_iff_eq.mp (List.mem_filter.mp he).2
  all_goals simp at h

private theorem kind_of_mem_ofStatement {statement d : Node}
    (h : .declarator d ∈ ofStatement statement) : d.kind = .declarator := by
  unfold ofStatement at h
  split at h
  · simp [ofImport] at h
  · split_ifs at h
    · unfold ofDefault at h
      split at h
      · rcases List.mem_append.mp h with h | h
        · exact kind_of_mem_ofDeclaration h
        · split_ifs at h <;> simp at h
      · split_ifs at h <;> simp at h
      · simp at h
    · obtain ⟨declaration, -, h⟩ := List.mem_flatMap.mp h
      exact kind_of_mem_ofDeclaration h
  · exact kind_of_mem_ofDeclaration h

end Definer

namespace Module

theorem bindings_bindAll (names : List String) (d : Definition) (m : Module) :
    (m.bindAll names d).bindings = Table.insertAll (names.map (·, d)) m.bindings := by
  unfold bindAll
  induction names generalizing m with
  | nil => rfl
  | cons name rest ih => exact ih (m.bind name d)

theorem bindings_addDeclaration (m : Module) (statement : Node) :
    (m.addDeclaration statement).bindings =
      Table.insertAll ((Definer.ofDeclaration ofValue statement).flatMap (·.entries ofValue))
        m.bindings := by
  have hdeclarators : ∀ (ds : List Node) (m : Module), (ds.foldl (fun m d =>
      m.bindAll (Node.patternNamesAt .name d.children) (ofValue (d.child? .value))) m).bindings =
        Table.insertAll ((ds.map Definer.declarator).flatMap (·.entries ofValue)) m.bindings := by
    intro ds
    induction ds with
    | nil => exact fun m => rfl
    | cons d rest ih =>
      intro m
      rw [List.foldl_cons, ih, bindings_bindAll, List.map_cons, List.flatMap_cons,
        Table.insertAll_append]
      rfl
  unfold addDeclaration Definer.ofDeclaration
  cases statement.kind with
  | lexicalDeclaration | variableDeclaration => exact hdeclarators _ m
  | functionDeclaration | generatorDeclaration | classDeclaration =>
    dsimp only
    rw [bindings_bindAll, List.flatMap_singleton]
    rfl
  | _ => rfl

@[simp] theorem bindings_exportAs (m : Module) (name : String) (e : Export) :
    (m.exportAs name e).bindings = m.bindings :=
  rfl

/-- What leaves the bindings of a module as they are can be done any number of times. -/
theorem bindings_foldl {β : Type} {f : Module → β → Module}
    (hf : ∀ m b, (f m b).bindings = m.bindings) (l : List β) (m : Module) :
    (l.foldl f m).bindings = m.bindings := by
  induction l generalizing m with
  | nil => rfl
  | cons b rest ih => rw [List.foldl_cons, ih, hf]

private theorem bindings_addImport (m : Module) (statement : Node) :
    (m.addImport statement).bindings =
      Table.insertAll ((Definer.ofImport statement).flatMap (·.entries ofValue)) m.bindings := by
  have hnames : ∀ (es : List (String × Definition)) (m : Module),
      (es.foldl (fun m e => m.bind e.1 e.2) m).bindings = Table.insertAll es m.bindings := by
    intro es
    induction es with
    | nil => exact fun m => rfl
    | cons e rest ih => exact fun m => ih (m.bind e.1 e.2)
  have hparts : ∀ (source : String) (parts : List Node) (m : Module), (parts.foldl (fun m part =>
      (importedNames source part).foldl (fun m e => m.bind e.1 e.2) m) m).bindings = Table.insertAll
        ((parts.map fun part => Definer.other (importedNames source part)).flatMap
          (·.entries ofValue)) m.bindings := by
    intro source parts
    induction parts with
    | nil => exact fun m => rfl
    | cons part rest ih =>
      intro m
      rw [List.foldl_cons, ih, hnames, List.map_cons, List.flatMap_cons, Table.insertAll_append]
      rfl
  unfold addImport Definer.ofImport
  cases statement.child? .source with
  | none => rfl
  | some source =>
    dsimp only [Option.toList]
    rw [List.flatMap_singleton]
    exact hparts _ _ m

private theorem bindings_addDefault (m : Module) (statement : Node) :
    (m.addDefault statement).bindings =
      Table.insertAll ((Definer.ofDefault statement).flatMap (·.entries ofValue)) m.bindings := by
  unfold addDefault Definer.ofDefault
  cases statement.child? .declaration with
  | some declaration =>
    dsimp only
    cases declaration.declaredNames with
    | nil =>
      rw [List.isEmpty_nil, if_pos rfl, List.flatMap_append, Table.insertAll_append,
        ← bindings_addDeclaration]
      rfl
    | cons name rest =>
      rw [List.isEmpty_cons, if_neg Bool.false_ne_true, List.append_nil]
      exact bindings_addDeclaration m declaration
  | none =>
    cases statement.child? .value with
    | none => rfl
    | some value =>
      dsimp only
      split_ifs <;> rfl

private theorem bindings_addExport (m : Module) (statement : Node)
    (hdefault : statement.hasChild .defaultKeyword = false) :
    (m.addExport statement).bindings = Table.insertAll
      (((statement.child? .declaration).toList.flatMap (Definer.ofDeclaration ofValue)).flatMap
        (·.entries ofValue))
      m.bindings := by
  unfold addExport
  rw [hdefault, if_neg Bool.false_ne_true]
  cases statement.child? .declaration with
  | some declaration =>
    dsimp only [Option.toList]
    refine (bindings_foldl (fun m name => bindings_exportAs m name (.own name)) _ _).trans ?_
    rw [bindings_addDeclaration, List.flatMap_singleton]
  | none =>
    dsimp only [Option.toList]
    cases statement.named.find? (·.kind == .exportClause) with
    | some clause =>
      refine bindings_foldl (fun m s => ?_) _ m
      unfold addSpecifier
      cases s.child? .name with
      | none => rfl
      | some name => cases statement.child? .source <;> rfl
    | none =>
      cases statement.child? .source with
      | none => rfl
      | some source =>
        dsimp only
        split_ifs <;> rfl

private theorem bindings_addStatement (m : Module) (statement : Node) :
    (m.addStatement statement).bindings =
      Table.insertAll ((Definer.ofStatement statement).flatMap (·.entries ofValue)) m.bindings := by
  unfold addStatement Definer.ofStatement
  cases statement.kind with
  | importStatement => exact bindings_addImport m statement
  | exportStatement =>
    dsimp only
    cases hdefault : statement.hasChild .defaultKeyword with
    | true =>
      rw [addExport, hdefault, if_pos rfl, if_pos rfl]
      exact bindings_addDefault m statement
    | false =>
      rw [if_neg Bool.false_ne_true]
      exact bindings_addExport m statement hdefault
  | _ => exact bindings_addDeclaration m statement

/-- The bindings of a module come from its statements in order; a later definition of a name
replaces an earlier one. -/
theorem bindings_ofTree (files : FileTree) (path : Path) (root : Node) :
    (ofTree files path root).bindings =
      Table.insertAll ((root.named.flatMap Definer.ofStatement).flatMap (·.entries ofValue))
        [] := by
  have hall : ∀ (statements : List Node) (m : Module), (statements.foldl addStatement m).bindings =
      Table.insertAll ((statements.flatMap Definer.ofStatement).flatMap (·.entries ofValue))
        m.bindings := by
    intro statements
    induction statements with
    | nil => exact fun m => rfl
    | cons statement rest ih =>
      intro m
      rw [List.foldl_cons, ih, bindings_addStatement, List.flatMap_cons, List.flatMap_append,
        Table.insertAll_append]
  exact hall root.named empty

end Module

/-- A declarator binds a name that nothing behind it defines again. -/
def Definer.Last {α : Type} (define : Option Node → α) (definers : List (Definer α)) (d : Node)
    (x : String) : Prop :=
  ∃ before after, definers = before ++ .declarator d :: after ∧
    x ∈ Node.patternNamesAt .name d.children ∧ ∀ e ∈ after, x ∉ Table.keys (e.entries define)

/-- The last definition counts. -/
theorem Definer.Last.get? {α : Type} {define : Option Node → α} {definers : List (Definer α)}
    {d : Node} {x : String} (h : Last define definers d x) :
    (Table.insertAll (definers.flatMap (·.entries define)) []).get? x =
      some (define (d.child? .value)) := by
  obtain ⟨before, after, rfl, hx, hafter⟩ := h
  have hlater : x ∉ Table.keys (after.flatMap (·.entries define)) := by
    intro hmem
    obtain ⟨a, ha⟩ := Table.mem_keys.mp hmem
    obtain ⟨e, he, ha⟩ := List.mem_flatMap.mp ha
    exact hafter e he (Table.mem_keys.mpr ⟨a, ha⟩)
  rw [List.flatMap_append, List.flatMap_cons, Table.insertAll_append, Table.insertAll_append,
    Table.get?_insertAll_of_not_mem hlater]
  exact Table.get?_insertAll_map _ _ hx

namespace StyleScope

private theorem declared_eq (statement : Node) :
    declared statement = (Definer.ofDeclaration id statement).flatMap (·.entries id) := by
  unfold declared Definer.ofDeclaration
  cases statement.kind with
  | lexicalDeclaration | variableDeclaration =>
    dsimp only
    rw [List.flatMap_map]
    rfl
  | functionDeclaration | generatorDeclaration | classDeclaration =>
    dsimp only
    rw [List.flatMap_singleton]
    rfl
  | _ => rfl

/-- Names that are only declared further inside do not replace those of the body's own
statements. -/
theorem get?_localsOf {body : Node} (hbody : body.kind = .block) {x : String} {v : Option Node}
    (h : (Table.insertAll ((body.named.flatMap (Definer.ofDeclaration id)).flatMap (·.entries id))
      []).get? x = some v) :
    (localsOf body).get? x = some v := by
  have hinner : ∀ (names : List String) (t : Table String (Option Node)), t.get? x = some v →
      (names.foldl (fun t name => if t.has name then t else t.insert name none) t).get? x =
        some v := by
    intro names
    induction names with
    | nil => exact fun t ht => ht
    | cons name rest ih =>
      intro t ht
      rw [List.foldl_cons]
      refine ih _ ?_
      split_ifs with hhas
      · exact ht
      · have hne : name ≠ x := by
          rintro rfl
          simp [Table.has, ht] at hhas
        rw [Table.get?_insert, if_neg hne, ht]
  have hown : body.named.flatMap declared =
      (body.named.flatMap (Definer.ofDeclaration id)).flatMap (·.entries id) := by
    rw [List.flatMap_assoc]
    exact List.flatMap_congr fun statement _ => declared_eq statement
  unfold localsOf
  rw [if_pos hbody, hown]
  exact hinner _ _ h

end StyleScope

/-- The declarator `d` is the last to define the name `x` in a module or in the body of a style
function. The name's node, the questions that reads in that place ask, and the names that are
written there. -/
inductive Declares (files : FileTree) (g : Ground) (calls : List (Call Interpolation)) (d : Node)
    (x : String) : Key → (Read → Question) → List String → Prop
  | atTop {p tree} : g.module? p = some (.ofTree files p tree) →
      Definer.Last Module.ofValue (tree.named.flatMap Definer.ofStatement) d x →
      Declares files g calls d x (.global p x) (.atTop p) (Module.ofTree files p tree).reassigned
  | inStyle {call body} : call ∈ calls → call.function.child? .body = some body →
      body.kind = .block → Definer.Last id (body.named.flatMap (Definer.ofDeclaration id)) d x →
      Declares files g calls d x (.local g.path call.callSite x) (.inStyle (.ofCall call))
        g.main.reassigned

section Declares

variable {files : FileTree} {g : Ground} {calls : List (Call Interpolation)} {d : Node}
  {x : String} {key : Key}
  {ask : Read → Question} {written : List String} (h : Declares files g calls d x key ask written)
include h

theorem Declares.kind : d.kind = .declarator := by
  cases h with
  | atTop _ hlast =>
    obtain ⟨before, after, hdefiners, -⟩ := hlast
    obtain ⟨statement, -, hd⟩ :=
      List.mem_flatMap.mp (hdefiners ▸ List.mem_append_right before List.mem_cons_self)
    exact Definer.kind_of_mem_ofStatement hd
  | inStyle _ _ _ hlast =>
    obtain ⟨before, after, hdefiners, -⟩ := hlast
    obtain ⟨statement, -, hd⟩ :=
      List.mem_flatMap.mp (hdefiners ▸ List.mem_append_right before List.mem_cons_self)
    exact Definer.kind_of_mem_ofDeclaration hd

variable (hsites : (calls.map (·.callSite)).Nodup)
include hsites

/-- The node of a name asks what the value of its last declarator asks, unless the name is written
or has no value. -/
theorem Declares.asks_iff (q : Question) :
    Asks g (scopesOf calls) key q ↔
      if x ∈ written ∨ d.child? .value = none then q = .unknown else q ∈ d.valueReads.map ask := by
  cases h with
  | @atTop p tree hm hlast =>
    have hget : (Module.ofTree files p tree).bindings.get? x =
        some (Module.ofValue (d.child? .value)) := by
      rw [Module.bindings_ofTree]
      exact hlast.get?
    have hasks : Asks g (scopesOf calls) (.global p x) q ↔
        q ∈ (Module.ofTree files p tree).asked p x := by
      refine ⟨fun hq => ?_, .atTop hm⟩
      cases hq with
      | atTop hm' hq => exact Option.some.inj (hm'.symm.trans hm) ▸ hq
    rw [hasks, Module.asked, hget, Node.valueReads]
    by_cases hx : x ∈ (Module.ofTree files p tree).reassigned
    · simp [hx]
    · cases hv : d.child? .value with
      | none => simp [Module.ofValue]
      | some v => simp [hx, Module.ofValue]
  | @inStyle call body hcall hbody hblock hlast =>
    have hget : (StyleScope.ofCall call).locals.get? x = some (d.child? .value) := by
      rw [StyleScope.ofCall, hbody]
      exact StyleScope.get?_localsOf hblock hlast.get?
    have hasks : Asks g (scopesOf calls) (.local g.path call.callSite x) q ↔
        q ∈ (StyleScope.ofCall call).asked g.main x := by
      refine ⟨fun hq => ?_, Asks.inStyle (List.mem_map.mpr ⟨call, hcall, rfl⟩)⟩
      generalize hkey : Key.local g.path call.callSite x = k at hq
      cases hq with
      | atTop => cases hkey
      | @inStyle s n _ hs hq =>
        obtain ⟨other, hother, rfl⟩ := List.mem_map.mp hs
        obtain ⟨-, hsite, rfl⟩ := Key.local.inj hkey
        obtain rfl : call = other := List.inj_on_of_nodup_map hsites hcall hother hsite
        exact hq
    rw [hasks, StyleScope.asked, hget, Node.valueReads]
    cases hv : d.child? .value with
    | none => simp
    | some v =>
      by_cases hx : x ∈ g.main.reassigned
      · simp [hx]
      · simp [hx]

/-- The node of a name reads what the value of its last declarator reads. -/
theorem Declares.reads_iff (k : Key) :
    Reads g (scopesOf calls) key k ↔
      if x ∈ written ∨ d.child? .value = none then k = .dynamic
      else ∃ read ∈ d.valueReads, Means g (ask read) k := by
  simp only [Reads, h.asks_iff hsites]
  split_ifs with hlost
  · simp
  · simp only [List.mem_map, exists_exists_and_eq_and]

/-- The node of a name is dynamic if nothing is known of its value, or the value reads something
dynamic. -/
theorem Declares.dynamic_of (hread : x ∈ written ∨ d.child? .value = none ∨
      ∃ read ∈ d.valueReads, ∃ k, Means g (ask read) k ∧ Dynamic g (scopesOf calls) k) :
    Dynamic g (scopesOf calls) key := by
  by_cases hlost : x ∈ written ∨ d.child? .value = none
  · exact .reads ((h.reads_iff hsites _).mpr (by rw [if_pos hlost])) .root
  · obtain ⟨read, hmem, k, hk, hdynamic⟩ := (or_assoc.mpr hread).resolve_left hlost
    exact .reads ((h.reads_iff hsites k).mpr (by rw [if_neg hlost]; exact ⟨read, hmem, hk⟩))
      hdynamic

end Declares

/-- A name depends on what the value of its last declarator reads, or on nothing known if it has no
value or is written somewhere. What the default values of the pattern read is reported for the
declarator and does not count. If a read that counts leads to a dynamic node, the name is dynamic,
and so is every interpolation that was not marked before and depends on it. -/
theorem declarator_value_dependencies (files : FileTree) (settings : Settings)
    (allows : List String → Bool) (path : Path) (root : Node) (source : Bytes) (filename : String) :
    let g := Ground.ofTree files settings allows path root
    let calls := (scan settings source root filename).calls
    ∀ d x key ask written, Declares files g calls d x key ask written →
      d.reads [] = d.patternReads ++ d.valueReads ∧
      ∀ r, classify files settings allows path root calls = .ok r →
        (∀ deps, (key, deps) ∈ r.graph → ∀ k, k ∈ deps ↔
          if x ∈ written ∨ d.child? .value = none then k = .dynamic
          else ∃ read ∈ d.valueReads, Means g (ask read) k) ∧
        ((x ∈ written ∨ d.child? .value = none ∨
            ∃ read ∈ d.valueReads, ∃ k, Means g (ask read) k ∧ Dynamic g (scopesOf calls) k) →
          (key ∈ Table.keys r.graph → key ∈ r.dynamic) ∧
          ∀ call ∈ r.calls, ∀ b ∈ call.blocks, ∀ i ∈ b.interpolations, i.wrapped = false →
            ∀ read ∈ i.node.reads [], ∀ k, Means g (.inStyle (.ofCall call) read) k →
              Relation.ReflTransGen (Reads g (scopesOf calls)) k key → i.label = .dynamic) := by
  intro g calls d x key ask written h
  have hsites : (calls.map (·.callSite)).Nodup :=
    (readSites_callSite settings source filename _ 0 0 _).1
  refine ⟨Node.reads_declarator h.kind, fun r hr => ⟨?_, fun hread => ⟨?_, ?_⟩⟩⟩
  · intro deps hdeps k
    obtain ⟨hf, hgraph, -⟩ := faultless_of_classify hr rfl
    rw [hgraph] at hdeps
    rw [mem_deps_iff (Context.holds_ofTree files settings allows path root)
      (nodup_scopesOf hsites) hf hdeps]
    exact h.reads_iff hsites k
  · exact fun hkey => (mem_dynamic_iff hsites hr hkey).mpr (h.dynamic_of hsites hread)
  · intro call hcall b hb i hi hwrapped read hmem k hk hpath
    have hd : Dynamic g (scopesOf calls) k := by
      rw [dynamic_iff_reaches]
      exact hpath.trans (dynamic_iff_reaches.mp (h.dynamic_of hsites hread))
    exact label_eq_dynamic hsites hr hcall hb hi hwrapped hmem hk hd

/-- The last definer of a name, if it is a declarator, is the last to bind it. -/
theorem Definer.last_of_find? {α : Type} {define : Option Node → α} {definers : List (Definer α)}
    {d : Node} {x : String}
    (h : definers.reverse.find? (fun e => x ∈ Table.keys (e.entries define)) =
      some (.declarator d)) :
    Last define definers d x := by
  obtain ⟨hx, after, before, hsplit, hafter⟩ := List.find?_eq_some_iff_append.mp h
  refine ⟨before.reverse, after.reverse, ?_, ?_, ?_⟩
  · have hreverse := congrArg List.reverse hsplit
    simpa using hreverse
  · have hmem := of_decide_eq_true hx
    simpa [entries, Table.keys, Function.comp_def] using hmem
  · intro e he
    simpa using hafter e (List.mem_reverse.mp he)

/-- A declarator at the top level of a module or of the body of a style function, and the questions
that its reads ask. -/
inductive TopDeclarator (files : FileTree) (g : Ground) (calls : List (Call Interpolation))
    (d : Node) : (Read → Question) → Prop
  | atTop {p tree} : g.module? p = some (.ofTree files p tree) →
      .declarator d ∈ tree.named.flatMap Definer.ofStatement →
      TopDeclarator files g calls d (.atTop p)
  | inStyle {call body} : call ∈ calls → call.function.child? .body = some body →
      body.kind = .block → .declarator d ∈ body.named.flatMap (Definer.ofDeclaration id) →
      TopDeclarator files g calls d (.inStyle (.ofCall call))

def Definer.declarator? {α : Type} : Definer α → Option Node
  | declarator d => some d
  | other _ => none

theorem Definer.declarator?_eq_some {α : Type} {e : Definer α} {d : Node}
    (h : e.declarator? = some d) : e = .declarator d := by
  cases e with
  | declarator d' => rw [Option.some.inj h]
  | other _ => cases h

theorem Definer.declarator_mem {α : Type} {definers : List (Definer α)} {d : Node}
    (h : d ∈ definers.filterMap Definer.declarator?) : .declarator d ∈ definers := by
  obtain ⟨e, he, hd⟩ := List.mem_filterMap.mp h
  exact Definer.declarator?_eq_some hd ▸ he

/-- A style definition that reads `a`, with a statement in front of it and one in its function. -/
def withStatements (outer inner : String) : String :=
  outer ++ "f((\x7bcss\x7d)=>\x7b" ++ inner ++ "return\x7br:css\x60$\x7ba\x7d\x60\x7d\x7d)"

def declaredSettings : Settings :=
  { Settings.ofTheme "t" with factory := "f" }

def declaredRoot (outer inner : String) : Node :=
  parse .script (withStatements outer inner).toList

def declaredCalls (outer inner : String) : List (Call Interpolation) :=
  (scan declaredSettings (encode (withStatements outer inner)) (declaredRoot outer inner)
    "a.js").calls

theorem declaredCalls_eq (outer inner : String) : declaredCalls outer inner =
    (scan declaredSettings (encode (withStatements outer inner)) (declaredRoot outer inner)
      "a.js").calls :=
  rfl

def declaredGround (outer inner : String) : Ground :=
  .ofTree .empty declaredSettings (fun _ => true) ⟨true, ["a.js"]⟩ (declaredRoot outer inner)

theorem declaredGround_main (outer inner : String) :
    (declaredGround outer inner).module? ⟨true, ["a.js"]⟩ =
      some (.ofTree .empty ⟨true, ["a.js"]⟩ (declaredRoot outer inner)) :=
  (Program.loaded_ofTree .empty declaredSettings (fun _ => true) ⟨true, ["a.js"]⟩
    (declaredRoot outer inner)).main.2

/-- A name that nothing defines is dynamic. -/
theorem means_strange {outer inner n : String}
    (h : n ∉ (declaredGround outer inner).main.bindings.keys)
    (hstrange : ¬(isPureGlobal n [] ∨ n = "staticVar")) (pos : Nat) :
    Means (declaredGround outer inner) (.atTop ⟨true, ["a.js"]⟩ (.name n [] pos)) .dynamic :=
  .strange (declaredGround_main outer inner) (Table.get?_eq_none_iff.mpr h) hstrange

/-- A name deep in a pattern depends on the value. -/
theorem declarator_value_dependencies_nested :
    let outer := "let\x7bp:[a=1]\x7d=w;"
    let g := declaredGround outer ""
    let calls := declaredCalls outer ""
    ∃ d written, Declares .empty g calls d "a" (.global ⟨true, ["a.js"]⟩ "a")
      (.atTop ⟨true, ["a.js"]⟩) written ∧
      (∃ read ∈ d.valueReads, ∃ k, Means g (.atTop ⟨true, ["a.js"]⟩ read) k ∧
        Dynamic g (scopesOf calls) k) ∧
      ∃ r, classify .empty declaredSettings (fun _ => true) ⟨true, ["a.js"]⟩ (declaredRoot outer "")
        calls = .ok r ∧
        ∃ call ∈ r.calls, ∃ b ∈ call.blocks, ∃ i ∈ b.interpolations, i.wrapped = false ∧
          .name "a" [] 42 ∈ Node.reads [] i.node ∧ i.label = .dynamic := by
  intro outer g calls
  have hrun : ((((declaredRoot outer "").named.flatMap Definer.ofStatement).reverse.find? fun e =>
        "a" ∈ Table.keys (e.entries Module.ofValue)).bind Definer.declarator?).any
        (fun d => .name "w" [] 13 ∈ d.valueReads) ∧ "w" ∉ g.main.bindings.keys ∧
      (classify .empty declaredSettings (fun _ => true) ⟨true, ["a.js"]⟩ (declaredRoot outer "")
        calls).toOption.any fun r =>
        decide (∃ call ∈ r.calls, ∃ b ∈ call.blocks, ∃ i ∈ b.interpolations, i.wrapped = false ∧
          .name "a" [] 42 ∈ i.node.reads [] ∧ "a" ∉ (StyleScope.ofCall call).locals.keys ∧
          (StyleScope.ofCall call).parameters.theme.get? "a" = none ∧
          "a" ≠ (StyleScope.ofCall call).parameters.tag ∧
          "a" ∉ (StyleScope.ofCall call).parameters.others) := by
    decide +kernel
  obtain ⟨hdefiner, hw, hclassify⟩ := hrun
  obtain ⟨d, hd, hvalue⟩ := (Option.any_eq_true _ _).mp hdefiner
  obtain ⟨e, he, hd⟩ := Option.bind_eq_some_iff.mp hd
  obtain rfl := Definer.declarator?_eq_some hd
  obtain ⟨r, hr, hcall⟩ := (Option.any_eq_true _ _).mp hclassify
  obtain ⟨call, hcall, b, hb, i, hi, hwrapped, hread, hlocal, htheme, htag, hothers⟩ :=
    of_decide_eq_true hcall
  have hlast := Definer.last_of_find? he
  have hdeclares : Declares .empty g calls d "a" (.global ⟨true, ["a.js"]⟩ "a")
      (.atTop ⟨true, ["a.js"]⟩) _ :=
    .atTop (declaredGround_main outer "") hlast
  have hdynamic : ∃ read ∈ d.valueReads, ∃ k, Means g (.atTop ⟨true, ["a.js"]⟩ read) k ∧
      Dynamic g (scopesOf calls) k :=
    ⟨_, of_decide_eq_true hvalue, _, means_strange hw (by decide) 13, .root⟩
  have hget : (Module.ofTree .empty ⟨true, ["a.js"]⟩ (declaredRoot outer "")).bindings.get? "a" =
      some (Module.ofValue (d.child? .value)) := by
    rw [Module.bindings_ofTree]
    exact hlast.get?
  have hbound : Means g (.inStyle (.ofCall call) (.name "a" [] 42))
      (.global ⟨true, ["a.js"]⟩ "a") := by
    refine .outer hlocal htheme htag hothers
      (.bound (declaredGround_main outer "") hget fun source => ?_)
    cases d.child? .value <;> simp [Module.ofValue]
  have hok := eq_ok_of_toOption hr
  refine ⟨d, _, hdeclares, hdynamic, r, hok, call, hcall, b, hb, i, hi, hwrapped, hread, ?_⟩
  have hall :=
    declarator_value_dependencies .empty declaredSettings (fun _ => true) ⟨true, ["a.js"]⟩
      (declaredRoot outer "") (encode (withStatements outer "")) "a.js"
  -- by this equation, so that nothing has to be run again
  rw [← declaredCalls_eq] at hall
  obtain ⟨-, houtcome⟩ := hall d "a" _ _ _ hdeclares
  obtain ⟨-, hlabels⟩ := (houtcome r hok).2 (.inr (.inr hdynamic))
  exact hlabels call hcall b hb i hi hwrapped _ hread _ hbound .refl

/-- Declarators that read `w` and bind `a`, with the byte where `w` stands: in a default value at
the top level, in one in a style function, and in the value of a name that is declared again. -/
def lossyDeclarators : List (String × String × Nat) :=
  [("let\x7bp:[a=w]\x7d=1;", "", 9), ("", "let\x7ba=w\x7d=1;", 18), ("var a=w;var a=1;", "", 6)]

/-- What default values read is lost, as is what a declarator reads whose name is declared again: an
interpolation that reads the name counts as known at build time. -/
theorem declarator_reads_lost :
    lossyDeclarators.Forall fun w =>
      let g := declaredGround w.1 w.2.1
      let calls := declaredCalls w.1 w.2.1
      (∃ d ask, TopDeclarator .empty g calls d ask ∧ "a" ∈ Node.patternNamesAt .name d.children ∧
          ∃ read ∈ d.reads [], Means g (ask read) .dynamic) ∧
        (classify .empty declaredSettings (fun _ => true) ⟨true, ["a.js"]⟩ (declaredRoot w.1 w.2.1)
          calls).toOption.map
          (·.calls.map (·.blocks.map (·.interpolations.map (·.label)))) = some [[[.static]]] := by
  rw [List.forall_iff_forall_mem]
  intro w hw
  have hrun :
      ((∃ d ∈ ((declaredRoot w.1 w.2.1).named.flatMap Definer.ofStatement).filterMap
        Definer.declarator?,
          "a" ∈ Node.patternNamesAt .name d.children ∧ .name "w" [] w.2.2 ∈ d.reads []) ∨
        ∃ call ∈ declaredCalls w.1 w.2.1, ∃ body ∈ (call.function.child? .body).toList,
        body.kind = .block ∧
          "w" ∉ (StyleScope.ofCall call).locals.keys ∧
          (StyleScope.ofCall call).parameters.theme.get? "w" = none ∧
          "w" ≠ (StyleScope.ofCall call).parameters.tag ∧
          "w" ∉ (StyleScope.ofCall call).parameters.others ∧
          ∃ d ∈ (body.named.flatMap (Definer.ofDeclaration id)).filterMap Definer.declarator?,
            "a" ∈ Node.patternNamesAt .name d.children ∧ .name "w" [] w.2.2 ∈ d.reads []) ∧
      "w" ∉ (declaredGround w.1 w.2.1).main.bindings.keys ∧
      (classify .empty declaredSettings (fun _ => true) ⟨true, ["a.js"]⟩ (declaredRoot w.1 w.2.1)
        (declaredCalls w.1 w.2.1)).toOption.map
          (·.calls.map (·.blocks.map (·.interpolations.map (·.label)))) = some [[[.static]]] := by
    revert w
    decide +kernel
  obtain ⟨hplace, hw, hlabel⟩ := hrun
  refine ⟨?_, hlabel⟩
  have hstrange := means_strange hw (by decide) w.2.2
  rcases hplace with ⟨d, hd, hx, hread⟩ |
    ⟨call, hcall, body, hbody, hblock, hlocal, htheme, htag, hothers, d, hd, hx, hread⟩
  · exact ⟨d, _, .atTop (declaredGround_main _ _) (Definer.declarator_mem hd), hx, _,
      hread, hstrange⟩
  · exact ⟨d, _, .inStyle hcall (Option.mem_toList.mp hbody) hblock (Definer.declarator_mem hd),
      hx, _, hread, .outer hlocal htheme htag hothers hstrange⟩

end ThemedCss.Dependency
