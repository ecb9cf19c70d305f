import ThemedCss.Output.Prologue
import ThemedCss.Proofs.Dependency.Shadowing
import ThemedCss.Syntax.Parser

/-! The names that code may not be added under are those that the dependency analysis knows. -/
namespace ThemedCss.Syntax.Node

/-- What an import statement imports: a default, a whole module or a list of names. -/
def importParts (statement : Node) : List Node :=
  (statement.named.filter (·.kind == .importClause)).flatMap (·.named)

/-- An item in a list of imported names. What is imported under a name written as a string gets
another one. -/
def isImportItem (n : Node) : Bool :=
  n.kind == .importSpecifier && (n.child? .name).any fun name => name.kind != .string ||
    (n.child? .newName).isSome

/-- What a grammar promises of the imports of a module: what is imported comes from somewhere, and
lists of names hold nothing else. -/
structure ImportsWritten (root : Node) : Prop where
  source : ∀ s ∈ root.named, s.kind = .importStatement → s.importParts ≠ [] →
    (s.child? .source).isSome
  items : ∀ s ∈ root.named, s.kind = .importStatement →
    ∀ part ∈ s.importParts, part.kind = .namedImports → ∀ item ∈ part.named, item.isImportItem

instance (root : Node) : Decidable (ImportsWritten root) :=
  decidable_of_iff
    ((∀ s ∈ root.named, s.kind = .importStatement → s.importParts ≠ [] →
      (s.child? .source).isSome) ∧
      ∀ s ∈ root.named, s.kind = .importStatement →
      ∀ part ∈ s.importParts, part.kind = .namedImports → ∀ item ∈ part.named, item.isImportItem)
    ⟨fun ⟨h₁, h₂⟩ => ⟨h₁, h₂⟩, fun ⟨h₁, h₂⟩ => ⟨h₁, h₂⟩⟩

def isName (n : Node) : Bool :=
  n.kind == .identifier || n.kind == .shorthandPattern || n.role == .name || n.role == .newName

end ThemedCss.Syntax.Node

namespace ThemedCss.Output
open ThemedCss.Syntax ThemedCss.Scope ThemedCss.Dependency

/-- What a grammar promises of names: none is spelled like the one that stands for an unnamed
default export, and a whole module is imported under a name. -/
structure NamesWritten (root : Node) : Prop where
  spelled : ∀ n ∈ root.preorder, n.isName → n.text ≠ defaultName
  whole : ∀ n ∈ root.preorder, n.kind = .namespaceImport → ∀ c ∈ n.named, c.isName

instance (root : Node) : Decidable (NamesWritten root) :=
  decidable_of_iff
    ((∀ n ∈ root.preorder, n.isName → n.text ≠ defaultName) ∧
      ∀ n ∈ root.preorder, n.kind = .namespaceImport → ∀ c ∈ n.named, c.isName)
    ⟨fun ⟨h₁, h₂⟩ => ⟨h₁, h₂⟩, fun ⟨h₁, h₂⟩ => ⟨h₁, h₂⟩⟩

/-- The names that a statement defines for the dependency analysis. -/
def definedNames (statement : Node) : List String :=
  Table.keys ((Definer.ofStatement statement).flatMap (·.entries Module.ofValue))

variable {statement part root : Node} {name : String}

theorem mem_bindings_iff (files : FileTree) (path : Path) (root : Node) (name : String) :
    name ∈ (Module.ofTree files path root).bindings.keys ↔
      ∃ s ∈ root.named, name ∈ definedNames s := by
  rw [Module.bindings_ofTree, Table.mem_keys_insertAll, List.flatMap_assoc, Table.keys_flatMap,
    List.mem_flatMap]
  simp [definedNames, Table.keys]

theorem keys_ofDeclaration (statement : Node) :
    Table.keys ((Definer.ofDeclaration Module.ofValue statement).flatMap
      (·.entries Module.ofValue)) = statement.declaredNames := by
  have hpair : ∀ (names : List String) (d : Definition), Table.keys (names.map (·, d)) = names :=
    fun names d => Table.keys_map_pair (fun _ => d) names
  unfold Definer.ofDeclaration Node.declaredNames
  cases statement.kind with
  | lexicalDeclaration | variableDeclaration =>
    dsimp only
    rw [List.flatMap_map, Table.keys_flatMap]
    exact List.flatMap_congr fun d _ => hpair _ _
  | functionDeclaration | generatorDeclaration | classDeclaration =>
    dsimp only
    rw [List.flatMap_singleton]
    exact hpair _ _
  | _ => rfl

/-- An item of a list of imports is known under its new name, or under the one it has. -/
theorem exists_of_isImportItem {item : Node} (h : item.isImportItem) :
    item.kind = .importSpecifier ∧ ∃ name, item.child? .name = some name ∧
      ((item.child? .newName).map (·.text)).getD name.plainText =
        ((item.child? .newName).getD name).text := by
  simp only [Node.isImportItem, Bool.and_eq_true, beq_iff_eq, Option.any_eq_true, Bool.or_eq_true,
    bne_iff_ne] at h
  obtain ⟨hkind, name, hname, hplain⟩ := h
  refine ⟨hkind, name, hname, ?_⟩
  cases hnew : item.child? .newName with
  | some new => rfl
  | none =>
    have hstring : name.kind ≠ .string := by simpa [hnew] using hplain
    show name.plainText = name.text
    rw [Node.plainText, if_neg hstring]

private theorem keys_importedNames (source : String)
    (h : part.kind = .namedImports → ∀ item ∈ part.named, item.isImportItem) :
    Table.keys (Module.importedNames source part) = importedLocals part := by
  unfold Module.importedNames importedLocals
  cases hk : part.kind with
  | namespaceImport => exact List.map_map
  | namedImports =>
    dsimp only [Table.keys]
    rw [List.map_filterMap]
    refine List.filterMap_congr fun item hitem => ?_
    obtain ⟨hkind, name, hname, htext⟩ := exists_of_isImportItem (h hk item hitem)
    rw [hkind, hname]
    dsimp only [Option.map_some]
    rw [htext]
    cases item.child? .newName <;> rfl
  | _ => rfl

/-- An import defines for the one side what it declares for the other. -/
theorem definedNames_import (hkind : statement.kind = .importStatement)
    (hsource : statement.importParts ≠ [] → (statement.child? .source).isSome)
    (hitems : ∀ part ∈ statement.importParts, part.kind = .namedImports →
      ∀ item ∈ part.named, item.isImportItem) :
    definedNames statement = topLevelNamesOf statement := by
  have hparts : topLevelNamesOf statement = statement.importParts.flatMap importedLocals := by
    rw [topLevelNamesOf, hkind, Node.importParts, List.flatMap_assoc]
  rw [hparts, definedNames, Definer.ofStatement, hkind]
  dsimp only [Definer.ofImport]
  rw [← Node.importParts]
  cases hs : statement.child? .source with
  | none =>
    have hnone : statement.importParts = [] := by
      by_contra hne
      simpa [hs] using hsource hne
    rw [hnone]
    rfl
  | some source =>
    rw [Option.toList, List.flatMap_singleton, List.flatMap_map, Table.keys_flatMap]
    exact List.flatMap_congr fun part hpart => keys_importedNames _ (hitems part hpart)

/-- An export may define a name that no code can use, and else defines what it declares. -/
theorem mem_definedNames_export (hkind : statement.kind = .exportStatement)
    (hname : name ≠ defaultName) :
    name ∈ definedNames statement ↔ name ∈ topLevelNamesOf statement := by
  have hdeclares : topLevelNamesOf statement =
      (statement.child? .declaration).toList.flatMap Node.declaredNames := by
    rw [topLevelNamesOf, hkind]
    cases statement.child? .declaration with
    | some declaration => simp
    | none => simp [Node.declaredNames, hkind]
  rw [hdeclares, definedNames, Definer.ofStatement, hkind]
  dsimp only
  cases statement.hasChild .defaultKeyword with
  | false =>
    rw [if_neg Bool.false_ne_true, List.flatMap_assoc, Table.keys_flatMap]
    simp only [keys_ofDeclaration]
  | true =>
    rw [if_pos rfl, Definer.ofDefault]
    cases statement.child? .declaration with
    | some declaration =>
      dsimp only
      rw [List.flatMap_append, Table.keys_append, keys_ofDeclaration]
      by_cases hempty : declaration.declaredNames.isEmpty
        <;> simp [hempty, Definer.entries, Table.keys, hname]
    | none =>
      cases statement.child? .value with
      | none => rfl
      | some value =>
        by_cases hvalue : value.kind = .identifier
          <;> simp [hvalue, Definer.entries, Table.keys, hname]

theorem mem_definedNames_iff (h : root.ImportsWritten) (hs : statement ∈ root.named)
    (hname : name ≠ defaultName) :
    name ∈ definedNames statement ↔ name ∈ topLevelNamesOf statement := by
  by_cases himport : statement.kind = .importStatement
  · rw [definedNames_import himport (h.source statement hs himport) (h.items statement hs himport)]
  by_cases hexport : statement.kind = .exportStatement
  · exact mem_definedNames_export hexport hname
  · have hother : definedNames statement = statement.declaredNames := by
      unfold definedNames Definer.ofStatement
      split
      · contradiction
      · contradiction
      · exact keys_ofDeclaration statement
    have hsame : topLevelNamesOf statement = statement.declaredNames := by
      unfold topLevelNamesOf
      split
      · contradiction
      · contradiction
      · rfl
    rw [hother, hsame]

/-- What a pattern binds is the text of a name in it. -/
theorem exists_name_of_rooted {n : Node} {hops : List Hop} (h : Rooted n hops name) :
    ∃ m, n.Contains m ∧ m.isName ∧ m.text = name := by
  induction h with
  | @name n hk =>
    refine ⟨n, .refl, ?_, rfl⟩
    rcases hk with hk | hk <;> simp [Node.isName, hk]
  | hop hhop _ ih =>
    obtain ⟨m, hm, hname, htext⟩ := ih
    exact ⟨m, .head (mem_children_of_mem_hops hhop) hm, hname, htext⟩

theorem isName_of_child? {n m : Node} {role : Role} (hrole : role = .name ∨ role = .newName)
    (h : n.child? role = some m) : m.isName := by
  have hm : m.role = role := by simpa using List.find?_some h
  rcases hrole with rfl | rfl <;> simp [Node.isName, hm]

theorem exists_name_of_mem_declaredNames (h : name ∈ statement.declaredNames) :
    ∃ m, statement.Contains m ∧ m.isName ∧ m.text = name := by
  cases mem_declaredNames_iff.mp h with
  | @declarator d p hops x hkind hd hp hrooted _ =>
    obtain ⟨m, hm, hname, htext⟩ := exists_name_of_rooted hrooted
    have hin : statement.Contains p := .head (List.mem_of_mem_filter hd) (Node.contains_child? hp)
    exact ⟨m, hin.trans hm, hname, htext⟩
  | definition _ hn => exact ⟨_, Node.contains_child? hn, isName_of_child? (.inl rfl) hn, rfl⟩

private theorem exists_name_of_mem_importedLocals
    (hwhole : part.kind = .namespaceImport → ∀ c ∈ part.named, c.isName)
    (h : name ∈ importedLocals part) : ∃ m, part.Contains m ∧ m.isName ∧ m.text = name := by
  unfold importedLocals at h
  cases hk : part.kind with
  | identifier =>
    rw [hk] at h
    obtain rfl := List.mem_singleton.mp h
    exact ⟨part, .refl, by simp [Node.isName, hk], rfl⟩
  | namespaceImport =>
    rw [hk] at h
    obtain ⟨c, hc, rfl⟩ := List.mem_map.mp h
    exact ⟨c, Node.contains_named hc, hwhole hk c hc, rfl⟩
  | namedImports =>
    rw [hk] at h
    obtain ⟨item, hitem, htext⟩ := List.mem_filterMap.mp h
    obtain ⟨m, hm, rfl⟩ := Option.map_eq_some_iff.mp htext
    rcases Option.or_eq_some_iff.mp hm with hm | ⟨-, hm⟩
    · exact ⟨m, .head (Node.named_mem hitem) (Node.contains_child? hm),
        isName_of_child? (.inr rfl) hm, rfl⟩
    · exact ⟨m, .head (Node.named_mem hitem) (Node.contains_child? hm),
        isName_of_child? (.inl rfl) hm, rfl⟩
  | _ =>
    rw [hk] at h
    cases h

private theorem exists_name_of_mem_topLevelNames (h : NamesWritten root)
    (hname : name ∈ topLevelNames root) : ∃ m ∈ root.preorder, m.isName ∧ m.text = name := by
  obtain ⟨s, hs, hname⟩ := List.mem_flatMap.mp hname
  have hin := Node.contains_named hs
  suffices hbelow : ∃ m, s.Contains m ∧ m.isName ∧ m.text = name by
    obtain ⟨m, hm, hisName, htext⟩ := hbelow
    exact ⟨m, Node.mem_preorder.mpr (hin.trans hm), hisName, htext⟩
  unfold topLevelNamesOf at hname
  split at hname
  · obtain ⟨c, hc, hname⟩ := List.mem_flatMap.mp hname
    obtain ⟨part, hpart, hname⟩ := List.mem_flatMap.mp hname
    have hbelow : s.Contains part :=
      .head (Node.named_mem (List.mem_of_mem_filter hc)) (Node.contains_named hpart)
    obtain ⟨m, hm, hisName, htext⟩ := exists_name_of_mem_importedLocals
      (h.whole part (Node.mem_preorder.mpr (hin.trans hbelow))) hname
    exact ⟨m, hbelow.trans hm, hisName, htext⟩
  · cases hd : s.child? .declaration with
    | none =>
      rw [hd] at hname
      exact exists_name_of_mem_declaredNames hname
    | some declaration =>
      rw [hd] at hname
      obtain ⟨m, hm, hisName, htext⟩ := exists_name_of_mem_declaredNames hname
      exact ⟨m, (Node.contains_child? hd).trans hm, hisName, htext⟩
  · exact exists_name_of_mem_declaredNames hname

/-- The names that a module declares, as they are collected to see what code it lacks, are those
that the dependency analysis binds. It has one more for an unnamed default export, and no code can
use that one. -/
theorem top_level_names_agree (files : FileTree) (path : Path) (root : Node)
    (himports : root.ImportsWritten) :
    (∀ name, name ≠ defaultName →
      (name ∈ topLevelNames root ↔ name ∈ (Module.ofTree files path root).bindings.keys)) ∧
      (NamesWritten root →
        ∀ name, name ∈ topLevelNames root ↔
        name ∈ (Module.ofTree files path root).bindings.keys ∧ name ≠ defaultName) := by
  have hothers : ∀ name, name ≠ defaultName →
      (name ∈ topLevelNames root ↔ name ∈ (Module.ofTree files path root).bindings.keys) := by
    intro name hname
    rw [mem_bindings_iff, topLevelNames, List.mem_flatMap]
    exact exists_congr fun s => and_congr_right fun hs =>
      (mem_definedNames_iff himports hs hname).symm
  refine ⟨hothers, ?_⟩
  intro hnames name
  by_cases hname : name = defaultName
  · subst hname
    refine iff_of_false (fun hmem => ?_) (fun h => h.2 rfl)
    obtain ⟨m, hm, hisName, htext⟩ := exists_name_of_mem_topLevelNames hnames hmem
    exact hnames.spelled m hm hisName htext
  · rw [hothers name hname, and_iff_left hname]

/-- A default, a name that gets another one, a pattern that is exported, and a default export
without a name. -/
theorem top_level_names_agree_default :
    let root :=
      parse .script "import a,\x7bb as c\x7dfrom'm';export let[d]=a;export default 1".toList
    let m := Module.ofTree .empty ⟨true, ["a.js"]⟩ root
    root.ImportsWritten ∧ NamesWritten root ∧ ∀ name, name ∈ ["a", "c", "d"] ↔
      name ∈ m.bindings.keys ∧ name ≠ defaultName := by
  intro root m
  have htree : root.ImportsWritten ∧ NamesWritten root ∧ topLevelNames root = ["a", "c", "d"] := by
    decide +kernel
  obtain ⟨himports, hnames, htop⟩ := htree
  have hagree := (top_level_names_agree .empty ⟨true, ["a.js"]⟩ root himports).2 hnames
  rw [htop] at hagree
  exact ⟨himports, hnames, hagree⟩

end ThemedCss.Output
