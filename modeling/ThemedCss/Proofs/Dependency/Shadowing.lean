import ThemedCss.Proofs.Dependency.Declared

/-! Names that a style function declares hide those of the module and of its parameters. -/
namespace ThemedCss.Scope
open ThemedCss.Syntax ThemedCss.Syntax.Node

/-- A statement declares a name: a variable in a pattern of it, or a function or class after whose
name it is called. -/
inductive Introduces (statement : Node) : String → Prop
  | declarator {d p : Node} {hops : List Hop} {x : String} :
      statement.kind.isDeclaration → d ∈ statement.declarators →
      d.child? .name = some p → Rooted p hops x → (∀ h ∈ hops, h = .part) → Introduces statement x
  | definition {n : Node} :
      statement.kind = .functionDeclaration ∨ statement.kind = .generatorDeclaration ∨
      statement.kind = .classDeclaration → statement.child? .name = some n →
      Introduces statement n.text

theorem mem_patternNamesAt_iff {n : Node} {role : Role} {x : String} :
    x ∈ patternNamesAt role n.children ↔
      ∃ p, n.child? role = some p ∧ ∃ hops, Rooted p hops x ∧ ∀ h ∈ hops, h = .part := by
  rw [patternNamesAt_eq, List.mem_flatMap]
  simp only [Option.mem_toList, mem_patternNames_iff]

theorem mem_declaredNames_iff {statement : Node} {x : String} :
    x ∈ statement.declaredNames ↔ Introduces statement x := by
  unfold declaredNames
  cases hk : statement.kind with
  | lexicalDeclaration | variableDeclaration =>
    constructor
    · intro hx
      obtain ⟨d, hd, hx⟩ := List.mem_flatMap.mp hx
      obtain ⟨p, hp, hops, hrooted, hall⟩ := mem_patternNamesAt_iff.mp hx
      exact .declarator (by rw [hk]; rfl) hd hp hrooted hall
    · rintro (⟨-, hd, hp, hrooted, hall⟩ | ⟨hdefinition, -⟩)
      · exact List.mem_flatMap.mpr ⟨_, hd, mem_patternNamesAt_iff.mpr ⟨_, hp, _, hrooted, hall⟩⟩
      · simp [hk] at hdefinition
  | functionDeclaration | generatorDeclaration | classDeclaration =>
    constructor
    · intro hx
      obtain ⟨n, hn, rfl⟩ := Option.map_eq_some_iff.mp (Option.mem_toList.mp hx)
      exact .definition (by simp [hk]) hn
    · rintro (⟨hvariable, -⟩ | ⟨-, hn⟩)
      · simp [hk, Kind.isDeclaration] at hvariable
      · simp [hn]
  | _ =>
    refine iff_of_false List.not_mem_nil ?_
    rintro (⟨hvariable, -⟩ | ⟨hdefinition, -⟩)
    · simp [hk, Kind.isDeclaration] at hvariable
    · simp [hk] at hdefinition

inductive BindingForm where
  /-- By a `const`, `let`, `var`, `function` or `class` statement of the body itself. -/
  | statement
  /-- By a `var` statement further inside. -/
  | hoisted
  /-- By a `var` in the head of a loop over the keys or elements of something. -/
  | loopHead
  /-- By a class statement with `abstract` in front. -/
  | abstractClass
deriving DecidableEq, Repr

/-- The part of a function body that belongs to the function, without the functions in it. -/
def Belongs : Node → Node → Prop :=
  Relation.ReflTransGen fun n c => c ∈ n.children ∧ ¬c.kind.isFunction

/-- The names of a function body, as the language has them. -/
inductive BodyBinds (body : Node) : BindingForm → String → Prop
  | statement {n : Node} {x : String} :
      n ∈ body.named → Introduces n x → BodyBinds body .statement x
  | hoisted {n : Node} {x : String} :
      Belongs body n → n.kind = .variableDeclaration → Introduces n x → BodyBinds body .hoisted x
  | loopHead {n keyword p : Node} {hops : List Hop} {x : String} :
      Belongs body n → n.kind = .forInStatement →
      n.child? .binding = some keyword → keyword.text = "var" → n.child? .left = some p →
      Rooted p hops x → (∀ h ∈ hops, h = .part) → BodyBinds body .loopHead x
  | abstractClass {n name : Node} :
      n ∈ body.named → n.kind = .abstractClassDeclaration → n.child? .name = some name →
      BodyBinds body .abstractClass name.text

private theorem contains_of_belongs {body n : Node} (h : Belongs body n) : body.Contains n := by
  induction h with
  | refl => exact .refl
  | tail _ hc ih => exact ih.tail hc.1

mutual
/-- What counts as hoisted is declared by a `var` statement that belongs to the node. -/
theorem exists_of_mem_hoistedNames {x : String} : ∀ {n : Node}, x ∈ n.hoistedNames →
    ¬n.kind.isFunction ∧ ∃ m, Belongs n m ∧ m.kind = .variableDeclaration ∧ Introduces m x
  | ⟨kind, role, start, stop, text, children⟩, h => by
    rw [hoistedNames] at h
    split_ifs at h with hfunction hkind
    · simp at h
    · refine ⟨hfunction, ?_⟩
      rcases List.mem_append.mp h with h | h
      · exact ⟨_, .refl, hkind, mem_declaredNames_iff.mp h⟩
      · obtain ⟨c, hc, hcf, m, hm, hintro⟩ := exists_of_mem_hoistedNamesAll h
        exact ⟨m, .head ⟨hc, hcf⟩ hm, hintro⟩
    · refine ⟨hfunction, ?_⟩
      obtain ⟨c, hc, hcf, m, hm, hintro⟩ := exists_of_mem_hoistedNamesAll h
      exact ⟨m, .head ⟨hc, hcf⟩ hm, hintro⟩

theorem exists_of_mem_hoistedNamesAll {x : String} : ∀ {ns : List Node}, x ∈ hoistedNamesAll ns →
    ∃ c ∈ ns, ¬c.kind.isFunction ∧ ∃ m, Belongs c m ∧ m.kind = .variableDeclaration ∧ Introduces m x
  | [], h => by simp [hoistedNamesAll] at h
  | n :: ns, h => by
    rw [hoistedNamesAll, List.mem_append] at h
    rcases h with h | h
    · exact ⟨n, List.mem_cons_self, exists_of_mem_hoistedNames h⟩
    · obtain ⟨c, hc, hintro⟩ := exists_of_mem_hoistedNamesAll h
      exact ⟨c, List.mem_cons_of_mem _ hc, hintro⟩
end

private theorem bodyBinds_of_mem_hoistedNames {body : Node} {x : String}
    (h : x ∈ body.hoistedNames) : BodyBinds body .hoisted x := by
  obtain ⟨-, n, hn, hk, hintro⟩ := exists_of_mem_hoistedNames h
  exact .hoisted hn hk hintro

end ThemedCss.Scope

namespace ThemedCss.Dependency
open ThemedCss.Syntax ThemedCss.Scope ThemedCss.Style ThemedCss.Text

namespace StyleScope

private theorem keys_declared (statement : Node) :
    Table.keys (declared statement) = statement.declaredNames := by
  unfold declared Node.declaredNames
  cases statement.kind with
  | lexicalDeclaration | variableDeclaration =>
    simp [Table.keys, List.map_flatMap, Function.comp_def]
  | functionDeclaration | generatorDeclaration | classDeclaration =>
    simp [Table.keys, Function.comp_def]
  | _ => rfl

theorem mem_keys_insertAll {entries t : Table String (Option Node)} {x : String} :
    x ∈ (Table.insertAll entries t).keys ↔ x ∈ t.keys ∨ x ∈ entries.keys := by
  unfold Table.insertAll
  induction entries generalizing t with
  | nil => simp [Table.keys]
  | cons e rest ih =>
    rw [List.foldl_cons, ih, Table.mem_keys_insert]
    simp only [Table.keys, List.map_cons, List.mem_cons]
    rw [or_assoc]

/-- Names that are new get no value, and known ones keep theirs. -/
theorem get?_foldl_insert (names : List String) (t : Table String (Option Node)) (x : String) :
    (names.foldl (fun t name => if t.has name then t else t.insert name none) t).get? x =
      (t.get? x).or (if x ∈ names then some none else none) := by
  induction names generalizing t with
  | nil => simp
  | cons name rest ih =>
    rw [List.foldl_cons, ih]
    by_cases hx : x = name
    · subst hx
      cases hget : t.get? x with
      | none => simp [Table.has, hget, Table.get?_insert]
      | some v => simp [Table.has, hget]
    · have hsame : (if t.has name then t else t.insert name none).get? x = t.get? x := by
        split_ifs
        · rfl
        · rw [Table.get?_insert, if_neg (Ne.symm hx)]
      rw [hsame]
      simp [hx]

variable {body : Node} {x : String}

theorem mem_keys_own :
    x ∈ (Table.insertAll (body.named.flatMap declared) []).keys ↔
      ∃ n ∈ body.named, Introduces n x := by
  rw [mem_keys_insertAll]
  simp only [Table.keys, List.map_nil, List.not_mem_nil, false_or, List.map_flatMap,
    List.mem_flatMap]
  simp only [← mem_declaredNames_iff, ← keys_declared, Table.keys]

theorem mem_inner_iff :
    (x ∈ body.preorder.flatMap fun n => if n.kind = .variableDeclaration then
      n.declaredNames else []) ↔
      ∃ n, body.Contains n ∧ n.kind = .variableDeclaration ∧ Introduces n x := by
  simp only [List.mem_flatMap, Node.mem_preorder, ← mem_declaredNames_iff]
  refine exists_congr fun n => and_congr_right fun _ => ?_
  split_ifs with hk <;> simp [hk]

/-- The names of a body are those of its own statements and of each `var` statement in it. -/
theorem mem_keys_localsOf (hblock : body.kind = .block) :
    x ∈ (localsOf body).keys ↔ (∃ n ∈ body.named, Introduces n x) ∨
      ∃ n, body.Contains n ∧ n.kind = .variableDeclaration ∧ Introduces n x := by
  rw [← mem_keys_own, ← mem_inner_iff, ← Table.has_iff, ← Table.has_iff, localsOf, if_pos hblock,
    Table.has, Table.has, get?_foldl_insert]
  cases Table.get? (Table.insertAll (body.named.flatMap declared) []) x with
  | none =>
    split_ifs with hx
    · simp [hx]
    · simp [hx]
  | some v => simp

theorem mem_keys_localsOf_of_binds (hblock : body.kind = .block)
    (h : BodyBinds body .statement x ∨ BodyBinds body .hoisted x) : x ∈ (localsOf body).keys := by
  rw [mem_keys_localsOf hblock]
  rcases h with h | h
  · cases h with
    | statement hn hintro => exact .inl ⟨_, hn, hintro⟩
  · cases h with
    | hoisted hn hk hintro => exact .inr ⟨_, contains_of_belongs hn, hk, hintro⟩

theorem locals_ofCall {ι : Type} {call : Call ι} (hbody : call.function.child? .body = some body) :
    (ofCall call).locals = localsOf body := by
  show ((call.function.child? .body).map localsOf).getD [] = _
  rw [hbody]
  rfl

/-- Nothing is known of a name that no statement of the body itself declares. -/
theorem get?_localsOf_of_inner (hblock : body.kind = .block)
    (hown : ∀ n ∈ body.named, ¬Introduces n x) (hx : x ∈ (localsOf body).keys) :
    (localsOf body).get? x = some none := by
  have hinner :=
    ((mem_keys_localsOf hblock).mp hx).resolve_left fun ⟨n, hn, hintro⟩ => hown n hn hintro
  have hnone : Table.get? (Table.insertAll (body.named.flatMap declared) []) x = none := by
    rw [Table.get?_eq_none_iff, mem_keys_own]
    rintro ⟨n, hn, hintro⟩
    exact hown n hn hintro
  rw [localsOf, if_pos hblock, get?_foldl_insert, hnone, if_pos (mem_inner_iff.mpr hinner),
    Option.none_or]

end StyleScope

/-- A name without a value is dynamic. -/
theorem dynamic_of_no_value {g : Ground} {scopes : List StyleScope} {s : StyleScope} {x : String}
    (hs : s ∈ scopes) (hx : s.locals.get? x = some none) :
    Dynamic g scopes (.local g.path s.callSite x) := by
  have hasked : .unknown ∈ s.asked g.main x := by
    rw [StyleScope.asked, hx]
    exact List.mem_cons_self
  exact .reads ⟨.unknown, .inStyle hs hasked, .unknown⟩ .root

section Lookup

variable {c : Context} {s : StyleScope} {x : String}

private theorem localKey_of_mem (hx : x ∈ s.locals.keys) (chain : List String) (pos : Nat) :
    c.localKey s (.name x chain pos) = ⟨.local c.path s.callSite x, [], none⟩ := by
  rw [Context.localKey, if_pos (Table.has_iff.mpr hx)]

private theorem localKey_of_not_mem (hx : x ∉ s.locals.keys) (chain : List String) (pos : Nat) :
    c.localKey s (.name x chain pos) = c.localKey { s with locals := [] } (.name x chain pos) := by
  have hhas : ¬s.locals.has x := fun h => hx (Table.has_iff.mp h)
  rw [Context.localKey, if_neg hhas]
  rfl

end Lookup

/-- The names that a style function declares are those of the statements of its body and of each
`var` statement in it. A read of such a name leads to the function's own definition of it, whatever
the module, its imports and the theme have under that name, and every other name is looked up as if
the function declared nothing. An interpolation that reads a name which only a `var` further inside
declares is dynamic unless it was marked before. -/
theorem style_names_shadow (files : FileTree) (settings : Settings) (allows : List String → Bool)
    (path : Path) (root : Node) (source : Bytes) (filename : String) :
    let c := Context.ofTree files settings allows path root
    let calls := (scan settings source root filename).calls
    (∀ call ∈ calls, ∀ body, call.function.child? .body = some body → body.kind = .block →
      let s := StyleScope.ofCall call
      (∀ x, BodyBinds body .statement x ∨ BodyBinds body .hoisted x → x ∈ s.locals.keys) ∧
      (∀ x, x ∈ s.locals.keys ↔ (∃ n ∈ body.named, Introduces n x) ∨
        ∃ n, body.Contains n ∧ n.kind = .variableDeclaration ∧ Introduces n x) ∧
      ∀ x chain pos, c.localKey s (.name x chain pos) =
        if x ∈ s.locals.keys then ⟨.local path call.callSite x, [], none⟩
        else c.localKey { s with locals := [] } (.name x chain pos)) ∧
    ∀ r, classify files settings allows path root calls = .ok r →
      ∀ call ∈ r.calls, ∀ body, call.function.child? .body = some body → body.kind = .block →
        ∀ b ∈ call.blocks, ∀ i ∈ b.interpolations, i.wrapped = false →
          ∀ x chain pos, .name x chain pos ∈ i.node.reads [] → BodyBinds body .hoisted x →
          ¬BodyBinds body .statement x → i.label = .dynamic := by
  intro c calls
  constructor
  · intro call _ body hbody hblock s
    have hlocals : s.locals = StyleScope.localsOf body := StyleScope.locals_ofCall hbody
    refine ⟨fun x hx => ?_, fun x => ?_, fun x chain pos => ?_⟩
    · rw [hlocals]
      exact StyleScope.mem_keys_localsOf_of_binds hblock hx
    · rw [hlocals]
      exact StyleScope.mem_keys_localsOf hblock
    · split_ifs with hx
      · exact localKey_of_mem hx chain pos
      · exact localKey_of_not_mem hx chain pos
  · intro r hr call hcall body hbody hblock b hb i hi hwrapped x chain pos hread hinner hown
    have hsites : (calls.map (·.callSite)).Nodup :=
      (readSites_callSite settings source filename _ 0 0 _).1
    have hscope : StyleScope.ofCall call ∈ scopesOf calls := by
      obtain ⟨c, hmem, rfl⟩ := exists_call_of_classify hsites hr hcall
      exact List.mem_map.mpr ⟨c, hmem, rfl⟩
    have hlocals := StyleScope.locals_ofCall hbody
    have hx := StyleScope.mem_keys_localsOf_of_binds hblock (.inr hinner)
    have hvalue : (StyleScope.ofCall call).locals.get? x = some none := by
      rw [hlocals]
      exact StyleScope.get?_localsOf_of_inner hblock
        (fun n hn hintro => hown (.statement hn hintro)) hx
    refine label_eq_dynamic hsites hr hcall hb hi hwrapped hread (.ownLocal ?_)
      (dynamic_of_no_value hscope hvalue)
    rw [hlocals]
    exact hx

/-- A `var` in a block inside the function hides a constant of the module. -/
theorem style_names_shadow_nested :
    let outer := "let a=1;"
    let inner := "\x7bvar a=2\x7d"
    ∃ r, classify .empty declaredSettings (fun _ => true) ⟨true, ["a.js"]⟩
      (declaredRoot outer inner)
        (declaredCalls outer inner) = .ok r ∧
      ∃ call ∈ r.calls, ∃ body, call.function.child? .body = some body ∧ body.kind = .block ∧
        BodyBinds body .hoisted "a" ∧ ¬BodyBinds body .statement "a" ∧
        ∃ b ∈ call.blocks, ∃ i ∈ b.interpolations, i.wrapped = false ∧
        Read.name "a" [] 44 ∈ i.node.reads [] ∧ i.label = .dynamic := by
  intro outer inner
  have hrun :
      (classify .empty declaredSettings (fun _ => true) ⟨true, ["a.js"]⟩ (declaredRoot outer inner)
      (declaredCalls outer inner)).toOption.any fun r => decide (∃ call ∈ r.calls,
        ∃ body ∈ (call.function.child? .body).toList, body.kind = .block ∧ "a" ∈ body.hoistedNames ∧
          (∀ n ∈ body.named, "a" ∉ n.declaredNames) ∧
          ∃ b ∈ call.blocks, ∃ i ∈ b.interpolations, i.wrapped = false ∧
          Read.name "a" [] 44 ∈ i.node.reads []) := by
    decide +kernel
  obtain ⟨r, hr, hcall⟩ := (Option.any_eq_true _ _).mp hrun
  obtain ⟨call, hcall, body, hbody, hblock, hx, hown, b, hb, i, hi, hwrapped, hread⟩ :=
    of_decide_eq_true hcall
  have hok := eq_ok_of_toOption hr
  have hinner := bodyBinds_of_mem_hoistedNames hx
  have hnot : ¬BodyBinds body .statement "a" := by
    intro h
    cases h with
    | statement hn hintro => exact hown _ hn (mem_declaredNames_iff.mpr hintro)
  obtain ⟨-, hlabels⟩ := style_names_shadow .empty declaredSettings (fun _ => true) ⟨true, ["a.js"]⟩
    (declaredRoot outer inner) (encode (withStatements outer inner)) "a.js"
  rw [← declaredCalls_eq] at hlabels
  have hlabel := hlabels r hok call hcall body (Option.mem_toList.mp hbody) hblock b hb i hi
    hwrapped "a" [] 44 hread
    hinner hnot
  exact ⟨r, hok, call, hcall, body, Option.mem_toList.mp hbody, hblock, hinner, hnot, b, hb, i, hi,
    hwrapped, hread, hlabel⟩

/-- The two forms that are not looked at. Loops are searched for in the body itself and in its
blocks. -/
def bindsUnseen (body : Node) (x : String) : BindingForm → Bool
  | .loopHead => (body :: body.children).any fun c => c.kind == .block && c.children.any fun n =>
      n.kind == .forInStatement && (n.child? .binding).any (·.text == "var") &&
        (Node.patternNamesAt .left n.children).contains x
  | .abstractClass =>
    body.named.any fun n => n.kind == .abstractClassDeclaration &&
      (n.child? .name).any (·.text == x)
  | _ => false

private theorem bodyBinds_of_bindsUnseen {body : Node} {x : String} {form : BindingForm}
    (h : bindsUnseen body x form) : BodyBinds body form x := by
  cases form with
  | statement | hoisted => cases h
  | loopHead =>
    simp only [bindsUnseen, List.any_eq_true, Bool.and_eq_true, beq_iff_eq, Option.any_eq_true,
      List.contains_iff_mem] at h
    obtain ⟨c, hc, hck, n, hn, ⟨hk, keyword, hkeyword, htext⟩, hx⟩ := h
    have hin : Belongs body c := by
      rcases List.mem_cons.mp hc with rfl | hc
      · exact .refl
      · exact .tail .refl ⟨hc, by simp [hck, Kind.isFunction]⟩
    obtain ⟨p, hp, hops, hrooted, hall⟩ := mem_patternNamesAt_iff.mp hx
    exact .loopHead (hin.tail ⟨hn, by simp [hk, Kind.isFunction]⟩) hk hkeyword htext hp hrooted hall
  | abstractClass =>
    simp only [bindsUnseen, List.any_eq_true, Bool.and_eq_true, beq_iff_eq, Option.any_eq_true] at h
    obtain ⟨n, hn, hk, name, hname, rfl⟩ := h
    exact .abstractClass hn hk hname

/-- Statements that bind `a` in the function around them and are not looked at. -/
def lossyBindings : List (Dialect × BindingForm × String) :=
  [(.script, .loopHead, "for(var a of[2]);"), (.script, .loopHead, "\x7bfor(var[a]in c);\x7d"),
    (.typedScript, .abstractClass, "abstract class a\x7b\x7d")]

/-- A `var` in the head of a loop over keys or elements does not hide a name of the module, nor does
an abstract class: a read leads to the module's constant, and the interpolation counts as known at
build time. -/
theorem shadowing_name_lost :
    let path : Path := ⟨true, ["a.js"]⟩
    lossyBindings.Forall fun w =>
      let source := withStatements "let a=1;" w.2.2
      let root := parse w.1 source.toList
      let calls := (scan declaredSettings (encode source) root "a.js").calls
      let c := Context.ofTree .empty declaredSettings (fun _ => true) path root
      (∃ call ∈ calls, ∃ body, call.function.child? .body = some body ∧ body.kind = .block ∧
        BodyBinds body w.2.1 "a" ∧ "a" ∉ (StyleScope.ofCall call).locals.keys ∧
        (c.localKey (.ofCall call) (.name "a" [] 0)).key = .global path "a") ∧
      (classify .empty declaredSettings (fun _ => true) path root calls).toOption.map
        (·.calls.map (·.blocks.map (·.interpolations.map (·.label)))) = some [[[.static]]] := by
  intro path
  rw [List.forall_iff_forall_mem]
  intro w hw
  have hrun : (∃ call ∈ (scan declaredSettings (encode (withStatements "let a=1;" w.2.2))
        (parse w.1 (withStatements "let a=1;" w.2.2).toList) "a.js").calls,
      ∃ body ∈ (call.function.child? .body).toList, body.kind = .block ∧
      bindsUnseen body "a" w.2.1 ∧ "a" ∉ (StyleScope.ofCall call).locals.keys ∧
        ((Context.ofTree .empty declaredSettings (fun _ => true) path
          (parse w.1 (withStatements "let a=1;" w.2.2).toList)).localKey (.ofCall call)
            (.name "a" [] 0)).key = .global path "a") ∧
      (classify .empty declaredSettings (fun _ => true) path
        (parse w.1 (withStatements "let a=1;" w.2.2).toList)
        (scan declaredSettings (encode (withStatements "let a=1;" w.2.2))
          (parse w.1 (withStatements "let a=1;" w.2.2).toList) "a.js").calls).toOption.map
            (·.calls.map (·.blocks.map (·.interpolations.map (·.label)))) = some [[[.static]]] := by
    revert w
    decide +kernel
  obtain ⟨⟨call, hcall, body, hbody, hblock, hform, hlost, hkey⟩, hlabel⟩ := hrun
  exact ⟨⟨call, hcall, body, Option.mem_toList.mp hbody, hblock, bodyBinds_of_bindsUnseen hform,
    hlost, hkey⟩, hlabel⟩

end ThemedCss.Dependency
