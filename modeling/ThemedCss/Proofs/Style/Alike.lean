import ThemedCss.Proofs.Style.Scan
import ThemedCss.Proofs.Syntax.Alike

/-! Trees that differ in holes have the same style definitions, at the places where they were
moved. -/
namespace ThemedCss.Style
open ThemedCss.Syntax ThemedCss.Text

/-- Both succeed with related results, or both fail. -/
inductive Both {ε α β : Type} (R : α → β → Prop) : Except ε α → Except ε β → Prop
  | ok {a : α} {b : β} (h : R a b) : Both R (.ok a) (.ok b)
  | error (e f : ε) : Both R (.error e) (.error f)

theorem Both.bind {ε α β γ κ : Type} {R : α → β → Prop} {S : γ → κ → Prop} {x : Except ε α}
    {y : Except ε β} {f : α → Except ε γ} {g : β → Except ε κ} (h : Both R x y)
    (hfg : ∀ a b, R a b → Both S (f a) (g b)) : Both S (x >>= f) (y >>= g) := by
  cases h with
  | ok hab => exact hfg _ _ hab
  | error e f => exact .error e f

theorem Both.cases {ε α β : Type} {R : α → β → Prop} {x : Except ε α} {y : Except ε β}
    (h : Both R x y) :
    (∃ e f, x = .error e ∧ y = .error f) ∨ ∃ a b, x = .ok a ∧ y = .ok b ∧ R a b := by
  cases h with
  | ok hab => exact .inr ⟨_, _, rfl, rfl, hab⟩
  | error e f => exact .inl ⟨e, f, rfl, rfl⟩

def Span.move (f : Nat → Nat) (s : Span) : Span :=
  ⟨f s.start, f s.stop⟩

theorem Span.ofNode_alike {δ : Difference} {n m : Node} (h : n.Alike δ m) :
    ofNode m = (ofNode n).move δ.move := by
  simp [ofNode, move, h.start, h.stop]

/-- Interpolations at the same place. Those of free holes have nothing else in common. -/
structure Interpolation.Alike (δ : Difference) (i j : Interpolation) : Prop where
  index : j.index = i.index
  span : j.span = i.span.move δ.move
  holes : ∃ n m : Node, n.Alike δ m ∧ n.kind = .substitution ∧ n.named = [i.node] ∧
    m.named = [j.node]
  marker : ∃ marker, i.wrapped = isWrapped marker i.node ∧ j.wrapped = isWrapped marker j.node
  same : (∃ n m, Span.ofNode n = i.span ∧ δ.free n m = true) ∨
    j.expr = i.expr.move δ.move ∧ j.wrapped = i.wrapped ∧ j.placeholder = i.placeholder ∧
    j.node.kind = i.node.kind

structure Block.Alike (δ : Difference) (b c : Block Interpolation) : Prop where
  name : c.name = b.name
  template : c.template = b.template.move δ.move
  interpolations : List.Forall₂ (Interpolation.Alike δ) b.interpolations c.interpolations

structure Call.Alike (δ : Difference) (a b : Call Interpolation) : Prop where
  callSite : b.callSite = a.callSite
  sequence : b.sequence = a.sequence
  hook : b.hook = a.hook
  exported : b.exported = a.exported
  callee : b.callee = a.callee.move δ.move
  span : b.span = a.span.move δ.move
  parameters : b.parameters = a.parameters
  function : a.function.Alike δ b.function
  blocks : List.Forall₂ (Block.Alike δ) a.blocks b.blocks

section Blocks
variable {δ : Difference} {source source' : Bytes} {marker tag name : String} {n m : Node}

private theorem isWrapped_alike (h : n.Alike δ m) : isWrapped marker m = isWrapped marker n := by
  unfold isWrapped
  rw [h.kind]
  by_cases hk : n.kind = .call
  · have hne : n.kind ≠ .substitution := by simp [hk]
    rcases h.child? hne .callee with ⟨hc, hc'⟩ | ⟨c, c', hc, hc', hcc⟩
    · simp only [hc, hc']
    · rcases h.child? hne .arguments with ⟨ha, ha'⟩ | ⟨a, a', ha, ha', haa⟩
      · simp only [hc, hc', ha, ha']
      · simp only [hc, hc', ha, ha', hcc.kind, hcc.text, haa.kind]
        by_cases hka : a.kind = .arguments
        · rw [(haa.named (by simp [hka])).length_eq]
        · rw [beq_false_of_ne hka, Bool.and_false, Bool.false_and, Bool.false_and]
  · rw [beq_false_of_ne hk, Bool.false_and, Bool.false_and]

private theorem interpolationOf_alike {index : Nat} {hole hole' : Node} (hhole : hole.Alike δ hole')
    (hk : hole.kind = .substitution) (hn : hole.named = [n]) (hm : hole'.named = [m])
    (h : n.Alike δ m) :
    (interpolationOf source marker index hole n).Alike δ
      (interpolationOf source' marker index hole' m) where
  index := rfl
  span := Span.ofNode_alike hhole
  holes := ⟨hole, hole', hhole, hk, hn, hm⟩
  marker := ⟨marker, rfl, rfl⟩
  same := by
    refine .inr ⟨Span.ofNode_alike h, isWrapped_alike h, ?_, h.kind⟩
    simp [interpolationOf, h.kind, h.text]

/-- The expressions of two holes are alike, unless the holes are free. -/
theorem named_hole (hδ : δ.Fair) (h : n.Alike δ m) {expr : Node} (hn : n.named = [expr]) :
    ∃ expr', m.named = [expr'] ∧ (expr.Alike δ expr' ∨ δ.free n m = true) := by
  rcases h.children_or_free with hall | ⟨-, -, hfree⟩
  · have hnamed := Node.Alike.named_of_children hall
    rw [hn] at hnamed
    cases hm : m.named with
    | nil => rw [hm] at hnamed; cases hnamed
    | cons expr' rest =>
      rw [hm] at hnamed
      cases hnamed with
      | cons hexpr hrest =>
        cases hrest with
        | nil => exact ⟨expr', rfl, .inl hexpr⟩
  · obtain ⟨expr', hm⟩ := List.length_eq_one_iff.mp (hδ.named n m hfree).2
    exact ⟨expr', hm, .inr hfree⟩

private theorem length_named_hole (hδ : δ.Fair) (h : n.Alike δ m) :
    m.named.length = n.named.length := by
  rcases h.children_or_free with hall | ⟨-, -, hfree⟩
  · exact (Node.Alike.named_of_children hall).length_eq.symm
  · rw [(hδ.named n m hfree).1, (hδ.named n m hfree).2]

theorem templateParts_alike (hδ : δ.Fair) {stop stop' index cursor cursor' : Nat}
    {holes holes' : List Node} (h : List.Forall₂ (Node.Alike δ) holes holes')
    (hk : ∀ hole ∈ holes, hole.kind = .substitution) :
    Both (fun p q => List.Forall₂ (Interpolation.Alike δ) p.2 q.2)
      (templateParts source marker name stop index cursor holes)
      (templateParts source' marker name stop' index cursor' holes') := by
  induction h generalizing index cursor cursor' with
  | nil => exact .ok .nil
  | @cons hole hole' holes holes' hhole _ ih =>
    rw [templateParts, templateParts]
    have hlen := length_named_hole hδ hhole
    obtain ⟨hkind, hrest⟩ := List.forall_mem_cons.mp hk
    split
    · next expr hexpr =>
      obtain ⟨expr', hexpr', halike⟩ := named_hole hδ hhole hexpr
      rw [hexpr']
      refine (ih hrest).bind fun p q hpq => .ok (.cons ?_ hpq)
      rcases halike with halike | hfree
      · exact interpolationOf_alike hhole hkind hexpr hexpr' halike
      · exact ⟨rfl, Span.ofNode_alike hhole, ⟨hole, hole', hhole, hkind, hexpr, hexpr'⟩,
          ⟨marker, rfl, rfl⟩, .inl ⟨hole, hole', rfl, hfree⟩⟩
    · next hnot =>
      split
      · next expr' hexpr' =>
        rw [hexpr'] at hlen
        obtain ⟨expr, hexpr⟩ := List.length_eq_one_iff.mp hlen.symm
        exact absurd hexpr (hnot expr)
      · exact .error _ _

private theorem taggedTemplate?_alike (tag : String) (h : n.Alike δ m) :
    taggedTemplate? tag n = none ∧ taggedTemplate? tag m = none ∨
      ∃ t t', taggedTemplate? tag n = some t ∧ taggedTemplate? tag m = some t' ∧ t.Alike δ t' := by
  unfold taggedTemplate?
  rw [h.kind]
  split_ifs with hk
  · have hne : n.kind ≠ .substitution := by simp [hk]
    rcases h.child? hne .callee with ⟨hc, hc'⟩ | ⟨c, c', hc, hc', hcc⟩
    · simp [hc, hc']
    · rcases h.child? hne .arguments with ⟨ha, ha'⟩ | ⟨a, a', ha, ha', haa⟩
      · simp [hc, hc', ha, ha']
      · simp only [hc, hc', ha, ha', hcc.kind, hcc.text, haa.kind]
        split_ifs
        · exact .inr ⟨a, a', rfl, rfl, haa⟩
        · exact .inl ⟨rfl, rfl⟩
  · exact .inl ⟨rfl, rfl⟩

private theorem blockOf_alike (hδ : δ.Fair) (h : n.Alike δ m) :
    Both (Block.Alike δ) (blockOf source marker tag name n)
      (blockOf source' marker tag name m) := by
  unfold blockOf
  dsimp only
  rcases taggedTemplate?_alike tag (Node.unwrap_alike h) with ⟨hn, hm⟩ | ⟨t, t', hn, hm, ht⟩
  · rw [hn, hm]
    exact .error _ _
  · rw [hn, hm]
    have hkind : t.kind ≠ .substitution := by simp [(taggedTemplate?_eq_some hn).2.1]
    have hholes : List.Forall₂ (Node.Alike δ) (t.children.filter (·.kind == .substitution))
        (t'.children.filter (·.kind == .substitution)) :=
      List.rel_filter (fun _ _ hcd => by simp [hcd.kind]) (ht.children hkind)
    have hsubstitution : ∀ hole ∈ t.children.filter (·.kind == .substitution), hole.kind =
        .substitution :=
      fun hole hhole => by simpa using (List.mem_filter.mp hhole).2
    exact (templateParts_alike hδ hholes hsubstitution).bind fun p q hpq =>
      .ok ⟨rfl, Span.ofNode_alike ht, hpq⟩

private theorem blockName_alike (h : n.Alike δ m) : Both Eq (blockName n) (blockName m) := by
  unfold blockName
  rw [h.kind, h.plainText]
  split
  · exact .ok rfl
  · exact .ok rfl
  · exact .ok rfl
  · exact .error _ _

theorem blocksOf_cons_of_ne {seen : List String} {property : Node} {rest : List Node}
    (hk : property.kind ≠ .pair) :
    ∃ e, blocksOf source marker tag seen (property :: rest) = .error e := by
  rw [blocksOf]
  split
  · next hpair _ _ => exact absurd hpair hk
  · exact ⟨_, rfl⟩

theorem blocksOf_alike (hδ : δ.Fair) {seen : List String} {ns ms : List Node}
    (h : List.Forall₂ (Node.Alike δ) ns ms) :
    Both (List.Forall₂ (Block.Alike δ)) (blocksOf source marker tag seen ns)
      (blocksOf source' marker tag seen ms) := by
  induction h generalizing seen with
  | nil => exact .ok .nil
  | @cons property property' rest rest' hproperty _ ih =>
    by_cases hk : property.kind = .pair
    · rw [blocksOf, blocksOf, hproperty.kind]
      have hne : property.kind ≠ .substitution := by simp [hk]
      rcases hproperty.child? hne .key with ⟨hkey, hkey'⟩ | ⟨key, key', hkey, hkey', hkk⟩
      · rw [hk, hkey, hkey']
        exact .error _ _
      · rcases hproperty.child? hne .value with ⟨hv, hv'⟩ | ⟨value, value', hv, hv', hvv⟩
        · rw [hk, hkey, hkey', hv, hv']
          exact .error _ _
        · rw [hk, hkey, hkey', hv, hv']
          refine (blockName_alike hkk).bind fun name name' hname => ?_
          subst hname
          split_ifs
          · exact .error _ _
          · exact (blockOf_alike hδ hvv).bind fun b c hbc => ih.bind fun bs cs hbs =>
              .ok (.cons hbc hbs)
    · obtain ⟨e, he⟩ := blocksOf_cons_of_ne hk
      obtain ⟨f, hf⟩ := blocksOf_cons_of_ne (hproperty.kind ▸ hk)
      rw [he, hf]
      exact .error e f

end Blocks

section Parameters

variable {δ : Difference} {n m : Node}

mutual
theorem bindTheme_alike : ∀ {n m : Node} (way : List String) (p : Parameters), n.Alike δ m →
    bindTheme way p m = bindTheme way p n
  | ⟨kind, role, start, stop, text, children⟩, ⟨kind', role', start', stop', text', children'⟩,
      way, p, h => by
    have hkind : kind' = kind := h.kind
    have htext : text' = text := h.text
    have hnames := Node.patternNames_alike h
    have hchildren : kind ≠ .substitution →
        List.Forall₂ (Node.Alike δ) children children' := h.children
    subst hkind htext
    rw [bindTheme.eq_def, bindTheme.eq_def]
    dsimp only
    rw [hnames]
    split
    · rfl
    · rfl
    · exact bindThemeEntries_alike way p (hchildren (by simp))
    · rfl

theorem bindThemeEntries_alike : ∀ {ns ms : List Node} (way : List String) (p : Parameters),
    List.Forall₂ (Node.Alike δ) ns ms → bindThemeEntries way p ms = bindThemeEntries way p ns
  | [], [], _, _, _ => rfl
  | ⟨kind, role, start, stop, text, children⟩ ::
      ns, ⟨kind', role', start', stop', text', children'⟩ :: ms, way, p, .cons h hall => by
    have hkind : kind' = kind := h.kind
    have htext : text' = text := h.text
    have hnames := Node.patternNames_alike h
    have hkey := fun hk => Node.Alike.child? h hk .key
    have hchildren : kind ≠ .substitution →
        List.Forall₂ (Node.Alike δ) children children' := h.children
    subst hkind htext
    rw [bindThemeEntries.eq_def, bindThemeEntries.eq_def]
    dsimp only
    rw [hnames, bindThemeEntries_alike way _ hall]
    refine congrArg (bindThemeEntries way · ns) ?_
    split
    · rfl
    · rcases hkey (by simp) with ⟨hc, hd⟩ | ⟨c, d, hc, hd, hcd⟩
      · rw [hc, hd]
      · rw [hc, hd]
        dsimp only
        rw [hcd.kind, hcd.plainText, bindThemeValue_alike _ p (hchildren (by simp))]
    · rfl

theorem bindThemeValue_alike : ∀ {ns ms : List Node} (way : List String) (p : Parameters),
    List.Forall₂ (Node.Alike δ) ns ms → bindThemeValue way p ms = bindThemeValue way p ns
  | [], [], _, _, _ => rfl
  | n :: ns, m :: ms, way, p, .cons h hall => by
    rw [bindThemeValue, bindThemeValue, h.role, bindTheme_alike way p h,
      bindThemeValue_alike way p hall]
end

private theorem keyAndPattern?_alike (h : n.Alike δ m) :
    keyAndPattern? n = none ∧ keyAndPattern? m = none ∨
    ∃ key c d, keyAndPattern? n = some (key, c) ∧ keyAndPattern? m = some (key, d) ∧
    c.Alike δ d := by
  unfold keyAndPattern?
  rw [h.kind, h.text]
  split
  · exact .inr ⟨_, _, _, rfl, rfl, h⟩
  · next hk =>
    have hne : n.kind ≠ .substitution := by simp [hk]
    rcases h.child? hne .key with ⟨hkey, hkey'⟩ | ⟨key, key', hkey, hkey', hkk⟩
    · simp [hkey, hkey']
    · rcases h.child? hne .value with ⟨hv, hv'⟩ | ⟨value, value', hv, hv', hvv⟩
      · simp [hkey, hkey', hv, hv']
      · refine .inr ⟨key.plainText, value,
          value', by simp [hkey, hv], by simp [hkey', hv', hkk.plainText], hvv⟩
  · exact .inl ⟨rfl, rfl⟩

private theorem bindEntry_alike (p : Parameters) (h : n.Alike δ m) :
    bindEntry p m = bindEntry p n := by
  unfold bindEntry
  rcases keyAndPattern?_alike h with ⟨hn, hm⟩ | ⟨key, c, d, hn, hm, hcd⟩
  · rw [hn, hm, Node.patternNames_alike h]
  · simp only [hn, hm, hcd.kind, hcd.text, bindTheme_alike [] p hcd, Node.patternNames_alike hcd]

private theorem parameterPattern_alike (h : n.Alike δ m) :
    (parameterPattern n).Alike δ (parameterPattern m) := by
  unfold parameterPattern
  rw [h.kind]
  split_ifs with hk
  · have hne : n.kind ≠ .substitution := by
      intro hsub
      simp [hsub, Kind.isTypedParameter] at hk
    rcases h.child? hne .pattern with ⟨hc, hc'⟩ | ⟨c, d, hc, hc', hcd⟩
    · simpa [hc, hc'] using h
    · simpa [hc, hc'] using hcd
  · exact h

private theorem parameterList_alike (h : n.Alike δ m) (hk : n.kind ≠ .substitution) :
    List.Forall₂ (Node.Alike δ) (parameterList n) (parameterList m) := by
  unfold parameterList
  rcases h.child? hk .parameter with ⟨hc, hc'⟩ | ⟨c, d, hc, hc', hcd⟩
  · rcases h.child? hk .parameters with ⟨hp, hp'⟩ | ⟨p, q, hp, hp', hpq⟩
    · simp [hc, hc', hp, hp']
    · have hrole : p.role = .parameters := by simpa using List.find?_some hp
      simp only [hc, hc', hp, hp', Option.map_some, Option.getD_some]
      exact Node.Alike.named_of_children (hpq.children_of_role (by simp [hrole]))
  · simp only [hc, hc']
    exact .cons hcd .nil

theorem parametersOf_alike (tag : String) (h : n.Alike δ m) (hk : n.kind ≠ .substitution) :
    parametersOf tag m = parametersOf tag n := by
  have hlist : List.Forall₂ (Node.Alike δ) ((parameterList n).map parameterPattern)
      ((parameterList m).map parameterPattern) :=
    List.rel_map (fun _ _ hcd => parameterPattern_alike hcd) (parameterList_alike h hk)
  have hfold : ∀ {f : Parameters → Node → Parameters}, (∀ p c d, Node.Alike δ c d → f p d = f p c) →
      ∀ {ns ms : List Node}, List.Forall₂ (Node.Alike δ) ns ms →
      ∀ p, ms.foldl f p = ns.foldl f p := by
    intro f hf ns ms hall
    induction hall with
    | nil => exact fun _ => rfl
    | cons hcd _ ih => exact fun p => by rw [List.foldl_cons, List.foldl_cons, hf p _ _ hcd, ih]
  unfold parametersOf
  dsimp only
  cases hn : (parameterList n).map parameterPattern with
  | nil =>
    rw [hn] at hlist
    rw [List.forall₂_nil_left_iff.mp hlist]
  | cons first rest =>
    rw [hn] at hlist
    obtain ⟨first', rest', hfirst, hrest, hm⟩ := List.forall₂_cons_left_iff.mp hlist
    rw [hm]
    dsimp only
    rw [hfold (fun p c d hcd => by rw [Node.patternNames_alike hcd]) hrest, hfirst.kind,
      Node.patternNames_alike hfirst]
    split_ifs with hobject
    · rw [hfold (fun p c d hcd => bindEntry_alike p hcd) (hfirst.named (by simp [hobject]))]
    · rfl

end Parameters

section Calls
variable {δ : Difference} {n m : Node}

theorem forall₂_head? {ns ms : List Node} (h : List.Forall₂ (Node.Alike δ) ns ms) :
    Option.Rel (Node.Alike δ) ns.head? ms.head? := by
  cases h with
  | nil => exact .none
  | cons hcd _ => exact .some hcd

private theorem result?_alike (h : n.Alike δ m) (hk : n.kind ≠ .substitution) :
    Option.Rel (Node.Alike δ) (result? n) (result? m) := by
  unfold result?
  rcases h.child? hk .body with ⟨hb, hb'⟩ | ⟨b, b', hb, hb', hbb⟩
  · rw [hb, hb']
    exact .none
  · simp only [hb, hb', Option.bind_eq_bind, Option.bind_some, hbb.kind]
    split_ifs with hblock
    · have hlast : Option.Rel (Node.Alike δ) b.named.getLast? b'.named.getLast? := by
        rw [← List.head?_reverse, ← List.head?_reverse]
        exact forall₂_head? (List.rel_reverse (hbb.named (by simp [hblock])))
      rcases Node.rel_cases hlast with ⟨hl, hl'⟩ | ⟨l, l', hl, hl', hll⟩
      · rw [hl, hl']
        exact .none
      · simp only [hl, hl', Option.bind_some, hll.kind]
        split_ifs with hreturn
        · have hhead := forall₂_head? (hll.named (by simp [hreturn]))
          rcases Node.rel_cases hhead with ⟨hv, hv'⟩ | ⟨v, v', hv, hv', hvv⟩
          · rw [hv, hv']
            exact .none
          · rw [hv, hv']
            exact .some (Node.unwrap_alike hvv)
        · exact .none
    · exact .some (Node.unwrap_alike hbb)

private theorem returnedObject_alike (h : n.Alike δ m) (hk : n.kind ≠ .substitution) :
    Both (fun a b => Node.Alike δ a b ∧ a.kind = .object) (returnedObject n)
      (returnedObject m) := by
  unfold returnedObject
  dsimp only
  rcases Node.rel_cases (result?_alike h hk) with ⟨hr, hr'⟩ | ⟨r, r', hr, hr', hrr⟩
  · rw [hr, hr']
    exact .error _ _
  · simp only [hr, hr', hrr.kind]
    split_ifs with hobject
    · exact .ok ⟨hrr, hobject⟩
    · exact .error _ _

private theorem argumentList_alike (h : n.Alike δ m) (hk : n.kind ≠ .substitution) :
    List.Forall₂ (Node.Alike δ) (argumentList n) (argumentList m) := by
  unfold argumentList
  rcases h.child? hk .arguments with ⟨ha, ha'⟩ | ⟨a, a', ha, ha', haa⟩
  · simp [ha, ha']
  · simp only [ha, ha', haa.kind]
    split_ifs with hargs
    · exact haa.named (by simp [hargs])
    · exact .nil

private theorem map_kind_alike {ns ms : List Node} (h : List.Forall₂ (Node.Alike δ) ns ms) :
    ms.map (·.kind) = ns.map (·.kind) := by
  induction h with
  | nil => rfl
  | cons hcd _ ih => rw [List.map_cons, List.map_cons, hcd.kind, ih]

private theorem hookOf_alike (exported : List String) {ns ms : List Node}
    (h : List.Forall₂ (Node.Alike δ) ns ms) : hookOf exported ms = hookOf exported ns := by
  have hdrop : List.Forall₂ (Node.Alike δ) (ns.dropWhile (isTransparent ·.kind))
      (ms.dropWhile (isTransparent ·.kind)) := by
    induction h with
    | nil => exact .nil
    | cons hcd hall ih =>
      rw [List.dropWhile_cons, List.dropWhile_cons, hcd.kind]
      split_ifs
      · exact ih
      · exact .cons hcd hall
  unfold hookOf
  cases hn : ns.dropWhile (isTransparent ·.kind) with
  | nil =>
    rw [hn] at hdrop
    rw [List.forall₂_nil_left_iff.mp hdrop]
  | cons parent above =>
    rw [hn] at hdrop
    obtain ⟨parent', above', hparent, habove, hm⟩ := List.forall₂_cons_left_iff.mp hdrop
    rw [hm]
    dsimp only
    rw [hparent.kind]
    by_cases hdecl : parent.kind = .declarator
    · have htop : (above'.tail.head?.map (·.kind)) = above.tail.head?.map (·.kind) := by
        rw [← List.head?_map, ← List.head?_map, List.map_tail, List.map_tail, map_kind_alike habove]
      rw [if_pos hdecl, if_pos hdecl, htop]
      rcases hparent.child? (by simp [hdecl]) .name with ⟨hc, hc'⟩ | ⟨c, c', hc, hc', hcc⟩
      · rw [hc, hc']
      · simp only [hc, hc', hcc.kind, hcc.text]
    · have hdefault : (parent.kind = .exportStatement ∧ parent'.hasChild .defaultKeyword) ↔
          (parent.kind = .exportStatement ∧ parent.hasChild .defaultKeyword) :=
        and_congr_right fun hk => by rw [hparent.hasChild (by simp [hk])]
      rw [if_neg hdecl, if_neg hdecl, if_congr hdefault rfl rfl]

theorem flatMap_alike {α : Type} {f : Node → List α} {ns ms : List Node}
    (h : List.Forall₂ (Node.Alike δ) ns ms) (hf : ∀ c ∈ ns, ∀ d, Node.Alike δ c d → f d = f c) :
    ms.flatMap f = ns.flatMap f :=
  Node.forall₂_flatMap (Node.forall₂_imp_mem h fun c hc d _ => hf c hc d) fun _ _ heq => heq

theorem text_child?_alike (hδ : δ.Fair) (h : n.Alike δ m) {role : Role} (hr : role ≠ .plain) :
    (m.child? role).map (·.text) = (n.child? role).map (·.text) := by
  rcases h.child?_of_fair hδ hr with ⟨hc, hc'⟩ | ⟨c, c', hc, hc', hcc⟩
  · rw [hc, hc']
  · rw [hc, hc', Option.map_some, Option.map_some, hcc.text]

theorem patternNamesAt_eq_nil {role : Role} {ns : List Node} (h : ∀ c ∈ ns, c.role ≠ role) :
    Node.patternNamesAt role ns = [] := by
  induction ns with
  | nil => rfl
  | cons c ns ih =>
    rw [Node.patternNamesAt, if_neg (h c List.mem_cons_self),
      ih fun d hd => h d (List.mem_cons_of_mem _ hd)]

theorem patternNamesAt_children_alike (hδ : δ.Fair) (h : n.Alike δ m) {role : Role}
    (hr : role ≠ .plain) :
    Node.patternNamesAt role m.children = Node.patternNamesAt role n.children := by
  rcases h.children_or_free with hall | ⟨-, -, hfree⟩
  · exact Node.patternNamesAt_alike role hall
  · obtain ⟨hn, hm⟩ := hδ.plain n m hfree
    rw [patternNamesAt_eq_nil fun c hc => hm c hc ▸ hr.symm,
      patternNamesAt_eq_nil fun c hc => hn c hc ▸ hr.symm]

theorem declarators_alike (h : n.Alike δ m) (hk : n.kind ≠ .substitution) :
    List.Forall₂ (fun c d => c.Alike δ d ∧ c.kind = .declarator) n.declarators m.declarators := by
  have hpairs : List.Forall₂ (Node.Alike δ) n.declarators m.declarators :=
    List.rel_filter (fun _ _ hcd => by simp [hcd.kind]) (h.children hk)
  refine Node.forall₂_imp_mem hpairs fun c hc d _ hcd => ⟨hcd, ?_⟩
  simpa using (List.mem_filter.mp hc).2

theorem declaredNames_alike (hδ : δ.Fair) (h : n.Alike δ m) :
    m.declaredNames = n.declaredNames := by
  have hvariables : n.kind ≠ .substitution →
      m.declarators.flatMap (Node.patternNamesAt .name ·.children) =
        n.declarators.flatMap (Node.patternNamesAt .name ·.children) := fun hk =>
    Node.forall₂_flatMap (declarators_alike h hk) fun c d hcd =>
      patternNamesAt_children_alike hδ hcd.1 (by decide)
  unfold Node.declaredNames
  rw [h.kind]
  split
  · next hk => exact hvariables (by simp [hk])
  · next hk => exact hvariables (by simp [hk])
  · rw [text_child?_alike hδ h (by decide)]
  · rw [text_child?_alike hδ h (by decide)]
  · rw [text_child?_alike hδ h (by decide)]
  · rfl

private theorem exportedNames_alike (hδ : δ.Fair)
    (h : List.Forall₂ (Node.Alike δ) n.children m.children) :
    exportedNames m = exportedNames n := by
  refine flatMap_alike (Node.Alike.named_of_children h) fun s _ t hst => ?_
  by_cases hk : s.kind = .exportStatement
  · have hlisted : (t.named.flatMap fun child => if child.kind = .exportClause then
          child.named.flatMap fun s => ((s.child? .name).map (·.text)).toList else []) =
        s.named.flatMap fun child => if child.kind = .exportClause then
          child.named.flatMap fun s => ((s.child? .name).map (·.text)).toList else [] := by
      refine flatMap_alike (hst.named (by simp [hk])) fun c _ d hcd => ?_
      rw [hcd.kind]
      split_ifs with hclause
      · refine flatMap_alike (hcd.named (by simp [hclause])) fun e _ f hef => ?_
        rw [text_child?_alike hδ hef (by decide)]
      · rfl
    rw [hst.kind, hlisted]
    rcases hst.child?_of_fair hδ (by decide : Role.source ≠ .plain) with ⟨hs, hs'⟩ |
      ⟨_, _, hs, hs', -⟩
    · rcases hst.child?_of_fair hδ (by decide : Role.value ≠ .plain) with ⟨hv, hv'⟩ |
        ⟨v, v', hv, hv', hvv⟩
      · rw [hs, hs', hv, hv']
      · simp only [hs, hs', hv, hv', hvv.kind, hvv.text]
    · rw [hs, hs', Option.isSome_some, Option.isSome_some]
      simp
  · rw [if_pos (.inl (by rw [hst.kind]; exact hk)), if_pos (.inl hk)]

private theorem isFactoryCall_alike (factories : List String) (h : n.Alike δ m) :
    isFactoryCall factories m = isFactoryCall factories n := by
  unfold isFactoryCall
  rw [h.kind]
  by_cases hk : n.kind = .call
  · rcases h.child? (by simp [hk]) .callee with ⟨hc, hc'⟩ | ⟨c, c', hc, hc', hcc⟩
    · rw [hc, hc']
    · simp only [hc, hc', hcc.kind, hcc.text]
  · rw [beq_false_of_ne hk, Bool.false_and, Bool.false_and]

structure Site.Alike (δ : Difference) (s t : Site) : Prop where
  call : s.call.Alike δ t.call
  parents : List.Forall₂ (Node.Alike δ) s.parents t.parents

-- outside of calls of the factory no hole is free, so both searches go the same way
mutual
theorem sites_alike {factories : List String} (hopens : δ.opens = isFactoryCall factories) :
    ∀ {n m : Node} {ps qs : List Node}, Node.alike δ false n m = true →
      List.Forall₂ (Node.Alike δ) ps qs →
      List.Forall₂ (Site.Alike δ) (sites factories ps n) (sites factories qs m)
  | ⟨kind, role, start, stop, text, children⟩, ⟨kind', role', start', stop', text', children'⟩, ps,
      qs, h, hps => by
    have halike := Node.Alike.of_alike h
    have hcall := isFactoryCall_alike factories halike
    rw [sites, sites, hcall]
    split_ifs with hfactory
    · exact .cons ⟨halike, hps⟩ .nil
    · rcases (Node.alike_iff.mp h).2.2.2.2.2 with hall | ⟨hinside, -⟩
      · rw [hopens, Bool.false_or, eq_false_of_ne_true hfactory] at hall
        exact sitesAll_alike hopens hall (.cons halike hps)
      · simp at hinside

theorem sitesAll_alike {factories : List String} (hopens : δ.opens = isFactoryCall factories) :
    ∀ {ns ms ps qs : List Node}, List.Forall₂ (fun n m => Node.alike δ false n m = true) ns ms →
      List.Forall₂ (Node.Alike δ) ps qs →
      List.Forall₂ (Site.Alike δ) (sitesAll factories ps ns) (sitesAll factories qs ms)
  | [], [], _, _, _, _ => by simp [sitesAll]
  | n :: ns, m :: ms, ps, qs, .cons h hall, hps => by
    rw [sitesAll, sitesAll]
    exact List.rel_append (sites_alike hopens h hps) (sitesAll_alike hopens hall hps)
end

theorem callOf_alike (hδ : δ.Fair) {settings : Settings} {source source' : Bytes}
    {exported : List String} {callSite sequence : Nat} {s t : Site} (h : s.Alike δ t)
    (hk : s.call.kind ≠ .substitution) :
    Both (Call.Alike δ) (callOf settings source exported callSite sequence s)
      (callOf settings source' exported callSite sequence t) := by
  unfold callOf
  dsimp only
  rw [Node.hasError_alike hδ h.call]
  split_ifs
  · exact .error _ _
  · rcases h.call.child? hk .callee with ⟨hc, hc'⟩ | ⟨callee, callee', hc, hc', hcallee⟩
    · rw [hc, hc']
      cases argumentList s.call <;> cases argumentList t.call <;> exact .error _ _
    · have hargs := argumentList_alike h.call hk
      cases hn : argumentList s.call with
      | nil =>
        rw [hn] at hargs
        rw [List.forall₂_nil_left_iff.mp hargs]
        exact .error _ _
      | cons first rest =>
        rw [hn] at hargs
        obtain ⟨first', rest', hfirst, -, hm⟩ := List.forall₂_cons_left_iff.mp hargs
        rw [hm, hc, hc']
        dsimp only
        have hfunction := Node.unwrap_alike hfirst
        rw [hfunction.kind]
        split_ifs with hstyle
        · have hne : first.unwrap.kind ≠ .substitution := by
            intro hsub
            simp [hsub, isStyleFunction] at hstyle
          refine (returnedObject_alike hfunction hne).bind fun object object' hobject => ?_
          have hparameters := parametersOf_alike settings.tag hfunction hne
          rw [hparameters]
          refine (blocksOf_alike hδ (hobject.1.named (by simp [hobject.2]))).bind
            fun bs cs hbs => ?_
          have hhook := hookOf_alike exported h.parents
          exact .ok
            ⟨rfl,
              rfl, by
                simp [hhook], by simp [hhook], Span.ofNode_alike hcallee, Span.ofNode_alike h.call,
            rfl, hfunction, hbs⟩
        · exact .error _ _

theorem readSites_alike (hδ : δ.Fair) {settings : Settings} {source source' : Bytes} {file : String}
    {exported : List String} {callSite sequence : Nat} {ss ts : List Site}
    (h : List.Forall₂ (Site.Alike δ) ss ts) (hk : ∀ s ∈ ss, s.call.kind = .call) :
    List.Forall₂ (Call.Alike δ) (readSites settings source file exported callSite sequence ss).calls
      (readSites settings source' file exported callSite sequence ts).calls := by
  induction h generalizing callSite sequence with
  | nil => exact .nil
  | @cons s t ss ts hst _ ih =>
    have hs : s.call.kind = .call := hk s List.mem_cons_self
    have hrest : ∀ s ∈ ss, s.call.kind = .call := fun s hs => hk s (List.mem_cons_of_mem _ hs)
    have hcall : Both (Call.Alike δ) (callOf settings source exported callSite sequence s)
        (callOf settings source' exported callSite sequence t) := callOf_alike hδ hst (by simp [hs])
    rw [readSites, readSites]
    rcases hcall.cases with ⟨e, f, hn, hm⟩ | ⟨a, b, hn, hm, hab⟩
    · rw [hn, hm]
      exact ih hrest
    · rw [hn, hm]
      exact .cons hab (ih hrest)

/-- The definitions of alike modules are alike. -/
theorem scan_alike (hδ : δ.Fair) {settings : Settings}
    (hopens : δ.opens = isFactoryCall [settings.factory, runtimeFactory])
    {source source' : Bytes} {file : String} (h : Node.alike δ false n m = true) :
    List.Forall₂ (Call.Alike δ) (scan settings source n file).calls
      (scan settings source' m file).calls := by
  rw [scan, scan, exportedNames_alike hδ (Node.Alike.children_of_outside h), candidates_eq,
    candidates_eq]
  exact readSites_alike hδ (sites_alike hopens h .nil)
    fun s hs => kind_of_isFactoryCall (contains_of_mem_sites hs).2

end Calls

end ThemedCss.Style
