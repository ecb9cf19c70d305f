import ThemedCss.Dependency.Classify
import ThemedCss.Proofs.Style.Alike
import ThemedCss.Proofs.Table

/-! Trees that differ in holes declare, import and export the same names, with definitions that are
alike. -/
namespace ThemedCss.Dependency
open ThemedCss.Syntax ThemedCss.Style

variable {δ : Difference} {n n' : Node}

inductive Definition.Related (R : Node → Node → Prop) : Definition → Definition → Prop
  | imported (source name : String) : Related R (.imported source name) (.imported source name)
  | namespaceOf (source : String) : Related R (.namespaceOf source) (.namespaceOf source)
  | node {n m : Node} : R n m → Related R (.node n) (.node m)
  | unknown : Related R .unknown .unknown

/-- Modules with the same names; what changes in them and where their specifiers lead is left
open. -/
structure Module.Related (R : Node → Node → Prop) (m m' : Module) : Prop where
  bindings : Table.Related (Definition.Related R) m.bindings m'.bindings
  exports : m'.exports = m.exports
  stars : m'.stars = m.stars

namespace Module

variable {m m' : Module}

namespace Related

variable {R : Node → Node → Prop} (h : m.Related R m')
include h

theorem bind (name : String) {d d' : Definition} (hd : d.Related R d') :
    (m.bind name d).Related R (m'.bind name d') :=
  ⟨h.bindings.insert name hd, h.exports, h.stars⟩

theorem bindAll (names : List String) {d d' : Definition} (hd : d.Related R d') :
    (m.bindAll names d).Related R (m'.bindAll names d') := by
  unfold Module.bindAll
  induction names generalizing m m' with
  | nil => exact h
  | cons name names ih => exact ih (h.bind name hd)

theorem exportAs (name : String) (e : Export) :
    (m.exportAs name e).Related R (m'.exportAs name e) := by
  refine ⟨h.bindings, ?_, h.stars⟩
  show m'.exports.insert name e = m.exports.insert name e
  rw [h.exports]

private theorem exportOwn (names : List String) :
    (names.foldl (fun m name => m.exportAs name (.own name)) m).Related R
    (names.foldl (fun m name => m.exportAs name (.own name)) m') := by
  induction names generalizing m m' with
  | nil => exact h
  | cons name names ih => exact ih (h.exportAs name (.own name))

end Related

private theorem ofValue_alike {value value' : Option Node}
    (h : Option.Rel (Node.Alike δ) value value') :
    (ofValue value).Related (Node.Alike δ) (ofValue value') := by
  cases h with
  | none => exact .unknown
  | some h => exact .node h

private theorem ofUnnamed_alike (h : n.Alike δ n') :
    (ofUnnamed n).Related (Node.Alike δ) (ofUnnamed n') := by
  unfold ofUnnamed
  rw [h.kind]
  cases n.kind with
  | classDeclaration | abstractClassDeclaration => exact .unknown
  | _ => exact .node h

private theorem importedNames_alike (hδ : δ.Fair) (source : String) (h : n.Alike δ n') :
    Table.Related (Definition.Related (Node.Alike δ)) (importedNames source n)
      (importedNames source n') := by
  unfold importedNames
  rw [h.kind, h.text]
  cases hk : n.kind with
  | identifier => exact .cons ⟨rfl, .imported source "default"⟩ .nil
  | namespaceImport =>
    exact List.rel_map (fun c d hcd => ⟨hcd.text, .namespaceOf source⟩) (h.named (by simp [hk]))
  | namedImports =>
    refine List.rel_filterMap (fun c d hcd => ?_) (h.named (by simp [hk]))
    dsimp only
    rw [hcd.kind, text_child?_alike hδ hcd (by decide)]
    cases c.kind with
    | importSpecifier =>
      rcases hcd.child?_of_fair hδ (by decide : Role.name ≠ .plain) with ⟨hx, hy⟩ |
        ⟨x, y, hx, hy, hxy⟩
      · rw [hx, hy]
        exact .none
      · rw [hx, hy]
        dsimp only
        rw [hxy.plainText]
        exact .some ⟨rfl, .imported source x.plainText⟩
    | _ => exact .none
  | _ => exact .nil

variable (hδ : δ.Fair) (hm : m.Related (Node.Alike δ) m')
include hδ hm

theorem addDeclaration_alike (h : n.Alike δ n') :
    (m.addDeclaration n).Related (Node.Alike δ) (m'.addDeclaration n') := by
  have hnames := declaredNames_alike hδ h
  unfold addDeclaration
  rw [h.kind, hnames]
  cases hk : n.kind with
  | lexicalDeclaration | variableDeclaration =>
    refine List.rel_foldl (P := Module.Related (Node.Alike δ)) (fun m m' hm c d hcd => ?_) hm
      (declarators_alike h (by simp [hk]))
    have hne : c.kind ≠ .substitution := by simp [hcd.2]
    rw [patternNamesAt_children_alike hδ hcd.1 (by decide)]
    exact hm.bindAll _ (ofValue_alike (hcd.1.rel_child? hne .value))
  | functionDeclaration | generatorDeclaration => exact hm.bindAll _ (.node h)
  | classDeclaration => exact hm.bindAll _ .unknown
  | _ => exact hm

private theorem addImport_alike (h : n.Alike δ n') (hk : n.kind ≠ .substitution) :
    (m.addImport n).Related (Node.Alike δ) (m'.addImport n') := by
  unfold addImport
  rcases h.child? hk .source with ⟨hs, hs'⟩ | ⟨s, s', hs, hs', hss⟩
  · rw [hs, hs']
    exact hm
  · rw [hs, hs']
    dsimp only
    have hclauses : List.Forall₂ (fun c d => c.Alike δ d ∧ c.kind = .importClause)
        (n.named.filter (·.kind == .importClause)) (n'.named.filter (·.kind == .importClause)) := by
      refine Node.forall₂_imp_mem (List.rel_filter (fun _ _ hcd => by simp [hcd.kind]) (h.named hk))
        fun c hc d _ hcd => ⟨hcd, ?_⟩
      simpa using (List.mem_filter.mp hc).2
    have hparts : List.Forall₂ (Node.Alike δ)
        ((n.named.filter (·.kind == .importClause)).flatMap (·.named))
        ((n'.named.filter (·.kind == .importClause)).flatMap (·.named)) :=
      List.rel_flatMap hclauses fun c d hcd => hcd.1.named (by simp [hcd.2])
    refine List.rel_foldl (P := Module.Related (Node.Alike δ)) (fun m m' hm c d hcd => ?_) hm hparts
    rw [hss.plainText]
    refine List.rel_foldl (P := Module.Related (Node.Alike δ)) (fun m m' hm e f hef => ?_) hm
      (importedNames_alike hδ _ hcd)
    rw [hef.1]
    exact hm.bind e.1 hef.2

private theorem addDefault_alike (h : n.Alike δ n') (hk : n.kind ≠ .substitution) :
    (m.addDefault n).Related (Node.Alike δ) (m'.addDefault n') := by
  unfold addDefault
  rcases h.child? hk .declaration with ⟨hd, hd'⟩ | ⟨d, d', hd, hd', hdd⟩
  · rcases h.child? hk .value with ⟨hv, hv'⟩ | ⟨v, v', hv, hv', hvv⟩
    · rw [hd, hd', hv, hv']
      exact hm
    · rw [hd, hd', hv, hv']
      dsimp only
      rw [hvv.kind, hvv.text]
      split_ifs
      · exact hm.exportAs _ _
      · exact (hm.bind _ (.node hvv)).exportAs _ _
  · have hdeclared := addDeclaration_alike hδ hm hdd
    rw [hd, hd']
    dsimp only
    rw [declaredNames_alike hδ hdd]
    cases d.declaredNames with
    | nil => exact (hdeclared.bind _ (ofUnnamed_alike hdd)).exportAs _ _
    | cons name _ => exact hdeclared.exportAs _ _

private theorem addSpecifier_alike {source source' : Option Node}
    (hsource : Option.Rel (Node.Alike δ) source source') (h : n.Alike δ n') :
    (addSpecifier source m n).Related (Node.Alike δ) (addSpecifier source' m' n') := by
  unfold addSpecifier
  rcases h.child?_of_fair hδ (by decide : Role.name ≠ .plain) with ⟨hx, hy⟩ | ⟨x, y, hx, hy, hxy⟩
  · rw [hx, hy]
    exact hm
  · have hnew : ((n'.child? .newName).getD y).text = ((n.child? .newName).getD x).text := by
      rcases h.child?_of_fair hδ (by decide : Role.newName ≠ .plain) with ⟨hc, hd⟩ |
        ⟨c, d, hc, hd, hcd⟩
      · rw [hc, hd]
        exact hxy.text
      · rw [hc, hd]
        exact hcd.text
    rw [hx, hy]
    dsimp only
    rw [hnew, hxy.text]
    cases hsource with
    | none => exact hm.exportAs _ _
    | some hss =>
      dsimp only
      rw [hss.plainText]
      exact hm.exportAs _ _

private theorem addExport_alike (h : n.Alike δ n') (hk : n.kind ≠ .substitution) :
    (m.addExport n).Related (Node.Alike δ) (m'.addExport n') := by
  have hsource := h.rel_child? hk .source
  have hclause : Option.Rel (Node.Alike δ) (n.named.find? (·.kind == .exportClause))
      (n'.named.find? (·.kind == .exportClause)) :=
    Node.forall₂_find? (h.named hk) fun _ _ hcd => by rw [hcd.kind]
  unfold addExport
  rw [h.hasChild hk, h.hasChild hk]
  by_cases hdefault : n.hasChild .defaultKeyword
  · rw [if_pos hdefault, if_pos hdefault]
    exact addDefault_alike hδ hm h hk
  rw [if_neg hdefault, if_neg hdefault]
  dsimp only
  rcases h.child? hk .declaration with ⟨hd, hd'⟩ | ⟨d, d', hd, hd', hdd⟩
  · rw [hd, hd']
    rcases Node.rel_cases hclause with ⟨hc, hc'⟩ | ⟨c, c', hc, hc', hcc⟩
    · rw [hc, hc']
      rcases Node.rel_cases hsource with ⟨hs, hs'⟩ | ⟨s, s', hs, hs', hss⟩
      · rw [hs, hs']
        exact hm
      · rw [hs, hs']
        dsimp only
        split_ifs
        · exact hm
        · refine ⟨hm.bindings, hm.exports, ?_⟩
          show m'.stars ++ [s'.plainText] = m.stars ++ [s.plainText]
          rw [hm.stars, hss.plainText]
    · have hlisted : c.kind = .exportClause := by simpa using List.find?_some hc
      rw [hc, hc']
      refine List.rel_foldl (P := Module.Related (Node.Alike δ)) (fun m m' hm e f hef => ?_) hm
        (hcc.named (by simp [hlisted]))
      exact addSpecifier_alike hδ hm hsource hef
  · rw [hd, hd']
    dsimp only
    rw [declaredNames_alike hδ hdd]
    exact (addDeclaration_alike hδ hm hdd).exportOwn _

private theorem addStatement_alike (h : n.Alike δ n') :
    (m.addStatement n).Related (Node.Alike δ) (m'.addStatement n') := by
  unfold addStatement
  rw [h.kind]
  cases hk : n.kind with
  | importStatement => exact addImport_alike hδ hm h (by simp [hk])
  | exportStatement => exact addExport_alike hδ hm h (by simp [hk])
  | _ => exact addDeclaration_alike hδ hm h

omit hm in
/-- The modules of alike trees are alike. -/
theorem ofTree_alike (files : FileTree) (path : Path) {root root' : Node}
    (h : List.Forall₂ (Node.Alike δ) root.children root'.children) :
    (ofTree files path root).Related (Node.Alike δ) (ofTree files path root') := by
  have hempty : Module.empty.Related (Node.Alike δ) Module.empty := ⟨.nil, rfl, rfl⟩
  have htop : (root.named.foldl addStatement empty).Related (Node.Alike δ)
      (root'.named.foldl addStatement empty) := by
    refine List.rel_foldl (P := Module.Related (Node.Alike δ)) (fun m m' hm c d hcd => ?_) hempty
      (Node.Alike.named_of_children h)
    exact addStatement_alike hδ hm hcd
  exact ⟨htop.bindings, htop.exports, htop.stars⟩

end Module

structure StyleScope.Related (R : Node → Node → Prop) (s s' : StyleScope) : Prop where
  callSite : s'.callSite = s.callSite
  parameters : s'.parameters = s.parameters
  locals : Table.Related (Option.Rel R) s.locals s'.locals

namespace StyleScope

def varNames (n : Node) : List String :=
  n.preorder.flatMap fun c => if c.kind = .variableDeclaration then c.declaredNames else []

private theorem declared_alike (hδ : δ.Fair) (h : n.Alike δ n') :
    Table.Related (Option.Rel (Node.Alike δ)) (declared n) (declared n') := by
  have heach : ∀ (names : List String) {value value' : Option Node},
      Option.Rel (Node.Alike δ) value value' →
      Table.Related (Option.Rel (Node.Alike δ)) (names.map (·, value)) (names.map (·, value')) := by
    intro names value value' hvalue
    rw [Table.Related, List.forall₂_map_left_iff, List.forall₂_map_right_iff, List.forall₂_same]
    exact fun _ _ => ⟨rfl, hvalue⟩
  have hnames := declaredNames_alike hδ h
  unfold declared
  rw [h.kind, hnames]
  cases hk : n.kind with
  | lexicalDeclaration | variableDeclaration =>
    refine List.rel_flatMap (declarators_alike h (by simp [hk])) fun c d hcd => ?_
    have hne : c.kind ≠ .substitution := by simp [hcd.2]
    rw [patternNamesAt_children_alike hδ hcd.1 (by decide)]
    exact heach _ (hcd.1.rel_child? hne .value)
  | functionDeclaration | generatorDeclaration => exact heach _ (.some h)
  | classDeclaration => exact heach _ .none
  | _ => exact .nil

private theorem localsOf_alike (hδ : δ.Fair) (h : n.Alike δ n') (hvar : varNames n' = varNames n) :
    Table.Related (Option.Rel (Node.Alike δ)) (localsOf n) (localsOf n') := by
  unfold localsOf
  rw [h.kind]
  split_ifs with hk
  · have hown : Table.Related (Option.Rel (Node.Alike δ))
        (Table.insertAll (n.named.flatMap declared) [])
        (Table.insertAll (n'.named.flatMap declared) []) :=
      Table.Related.insertAll (List.rel_flatMap (h.named (by simp [hk])) fun c d hcd =>
        declared_alike hδ hcd) .nil
    dsimp only
    rw [← varNames, ← varNames, hvar]
    clear hvar
    generalize Table.insertAll (n.named.flatMap declared) [] = t at hown ⊢
    generalize Table.insertAll (n'.named.flatMap declared) [] = u at hown ⊢
    induction varNames n generalizing t u with
    | nil => exact hown
    | cons name names ih =>
      refine ih _ _ ?_
      have hhas : u.has name = t.has name := by
        rw [Bool.eq_iff_iff, Table.has_iff, Table.has_iff, hown.keys]
      dsimp only
      rw [hhas]
      split_ifs
      · exact hown
      · exact hown.insert name .none
  · exact .nil

/-- The scopes of alike calls are alike if their functions have the same `var` statements. -/
theorem ofCall_alike (hδ : δ.Fair) {call call' : Call Interpolation} (h : call.Alike δ call')
    (hvar : ∀ n m : Node, n.Alike δ m → varNames m = varNames n) :
    (ofCall call).Related (Node.Alike δ) (ofCall call') where
  callSite := h.callSite
  parameters := h.parameters
  locals := by
    unfold ofCall
    rcases h.function.child?_of_fair hδ (by decide : Role.body ≠ .plain) with ⟨hb, hb'⟩ |
      ⟨b, b', hb, hb', hbb⟩
    · rw [hb, hb']
      exact .nil
    · rw [hb, hb']
      exact localsOf_alike hδ hbb (hvar b b' hbb)

end StyleScope

end ThemedCss.Dependency
