import Mathlib.Data.List.Forall2
import ThemedCss.Proofs.Syntax.Span
import ThemedCss.Style.Scan

/-! What a definition that could be read consists of. -/
namespace ThemedCss.Style
open ThemedCss.Syntax ThemedCss.Text

variable {source : Bytes} {marker tag name : String}

theorem bind_eq_ok {ε α β : Type} {x : Except ε α} {f : α → Except ε β} {b : β} :
    x >>= f = .ok b ↔ ∃ a, x = .ok a ∧ f a = .ok b := by
  cases x <;> simp [bind, Except.bind]

section Forall₂
variable {α β : Type} {R : α → β → Prop} {xs : List α} {ys : List β}

theorem exists_of_mem_right {y : β} (h : List.Forall₂ R xs ys) (hy : y ∈ ys) : ∃ x ∈ xs, R x y := by
  induction h with
  | nil => simp at hy
  | cons hxy _ ih =>
    rcases List.mem_cons.mp hy with rfl | hy
    · exact ⟨_, List.mem_cons_self, hxy⟩
    · obtain ⟨x, hx, hR⟩ := ih hy
      exact ⟨x, List.mem_cons_of_mem _ hx, hR⟩

theorem exists_of_mem_left {x : α} (h : List.Forall₂ R xs ys) (hx : x ∈ xs) : ∃ y ∈ ys, R x y :=
  exists_of_mem_right h.flip hx

theorem pairwise_right {P : α → α → Prop} {Q : β → β → Prop} (h : List.Forall₂ R xs ys)
    (hP : xs.Pairwise P) (hstep : ∀ a ∈ xs, ∀ b ∈ xs, ∀ x y, R a x → R b y → P a b → Q x y) :
    ys.Pairwise Q := by
  induction h with
  | nil => exact .nil
  | @cons a x as xs' hax hrest ih =>
    have hP' := List.pairwise_cons.mp hP
    refine List.pairwise_cons.mpr ⟨fun y hy => ?_, ?_⟩
    · obtain ⟨b, hb, hby⟩ := exists_of_mem_right hrest hy
      exact hstep a List.mem_cons_self b (List.mem_cons_of_mem _ hb) x y hax hby (hP'.1 b hb)
    · exact ih hP'.2 fun b hb c hc =>
        hstep b (List.mem_cons_of_mem _ hb) c (List.mem_cons_of_mem _ hc)

end Forall₂

/-- Each hole of a template has one expression. -/
theorem templateParts_ok {stop index cursor : Nat} {holes : List Node} {chunks : List Bytes}
    {is : List Interpolation}
    (h : templateParts source marker name stop index cursor holes = .ok (chunks, is)) :
    List.Forall₂ (fun hole i => ∃ expr, hole.named = [expr] ∧
      i = interpolationOf source marker i.index hole expr)
      holes is := by
  induction holes generalizing index cursor chunks is with
  | nil =>
    simp only [templateParts, Except.ok.injEq, Prod.mk.injEq] at h
    obtain ⟨-, rfl⟩ := h
    exact .nil
  | cons hole holes ih =>
    rw [templateParts] at h
    split at h
    · next expr hexpr =>
      obtain ⟨⟨chunks', is'⟩, hrest, h⟩ := bind_eq_ok.mp h
      obtain ⟨-, rfl⟩ := Prod.mk.inj (Except.ok.inj h)
      exact .cons ⟨expr, hexpr, rfl⟩ (ih hrest)
    · simp [throw, throwThe, MonadExceptOf.throw] at h

/-- The bytes between ranges, from `cursor` up to `stop`. -/
def gaps (source : Bytes) (stop : Nat) : Nat → List Span → List Bytes
  | cursor, [] => [slice source cursor stop]
  | cursor, s :: rest => slice source cursor s.start :: gaps source stop s.stop rest

private theorem templateParts_chunks {stop index cursor : Nat} {holes : List Node}
    {chunks : List Bytes} {is : List Interpolation}
    (h : templateParts source marker name stop index cursor holes = .ok (chunks, is)) :
    chunks = gaps source stop cursor (is.map (·.span)) := by
  induction holes generalizing index cursor chunks is with
  | nil =>
    simp only [templateParts, Except.ok.injEq, Prod.mk.injEq] at h
    obtain ⟨rfl, rfl⟩ := h
    rfl
  | cons hole holes ih =>
    rw [templateParts] at h
    split at h
    · obtain ⟨⟨chunks', is'⟩, hrest, h⟩ := bind_eq_ok.mp h
      obtain ⟨rfl, rfl⟩ := Prod.mk.inj (Except.ok.inj h)
      rw [ih hrest]
      rfl
    · simp [throw, throwThe, MonadExceptOf.throw] at h

theorem templateParts_index {stop index cursor : Nat} {holes : List Node} {chunks : List Bytes}
    {is : List Interpolation}
    (h : templateParts source marker name stop index cursor holes = .ok (chunks, is)) {k : Nat}
    {i : Interpolation} (hi : is[k]? = some i) : i.index = index + k := by
  induction holes generalizing index cursor chunks is k with
  | nil =>
    simp only [templateParts, Except.ok.injEq, Prod.mk.injEq] at h
    obtain ⟨-, rfl⟩ := h
    simp at hi
  | cons hole holes ih =>
    rw [templateParts] at h
    split at h
    · obtain ⟨⟨chunks', is'⟩, hrest, h⟩ := bind_eq_ok.mp h
      obtain ⟨-, rfl⟩ := Prod.mk.inj (Except.ok.inj h)
      cases k with
      | zero =>
        obtain rfl := Option.some.inj hi
        rfl
      | succ k =>
        have hnext := ih hrest hi
        omega
    · simp [throw, throwThe, MonadExceptOf.throw] at h

theorem taggedTemplate?_eq_some {value template : Node}
    (h : taggedTemplate? tag value = some template) :
    value.kind = .call ∧ template.kind = .template ∧ value.child? .arguments = some template ∧
      ∃ callee, value.child? .callee = some callee := by
  unfold taggedTemplate? at h
  split_ifs at h with hk
  split at h
  · next callee template' hcallee hargs =>
    split_ifs at h with ht
    obtain rfl := Option.some.inj h
    exact ⟨hk, ht.2.2, hargs, callee, hcallee⟩
  · simp at h

theorem blockOf_ok {value : Node} {b : Block Interpolation}
    (h : blockOf source marker tag name value = .ok b) :
    b.name = name ∧ ∃ template, taggedTemplate? tag value.unwrap = some template ∧
      b.template = .ofNode template ∧
      templateParts source marker name (template.stop - 1) 0 (template.start + 1)
        (template.children.filter (·.kind == .substitution)) =
          .ok (b.chunks, b.interpolations) := by
  unfold blockOf at h
  dsimp only at h
  split at h
  · simp [throw, throwThe, MonadExceptOf.throw] at h
  · next template ht =>
    obtain ⟨⟨chunks, is⟩, hparts, h⟩ := bind_eq_ok.mp h
    obtain rfl := Except.ok.inj h
    exact ⟨rfl, template, ht, rfl, hparts⟩

/-- Each property of a style object is a block. -/
theorem blocksOf_ok {seen : List String} {properties : List Node}
    {blocks : List (Block Interpolation)}
    (h : blocksOf source marker tag seen properties = .ok blocks) :
    List.Forall₂ (fun property b => ∃ value, property.child? .value = some value ∧
      blockOf source marker tag b.name value = .ok b) properties blocks := by
  induction properties generalizing seen blocks with
  | nil =>
    obtain rfl := Except.ok.inj h
    exact .nil
  | cons property rest ih =>
    rw [blocksOf] at h
    split at h
    · next key value _ _ hvalue =>
      obtain ⟨name, hname, h⟩ := bind_eq_ok.mp h
      split_ifs at h
      · simp [bind, Except.bind, throw, throwThe, MonadExceptOf.throw] at h
      · obtain ⟨-, -, h⟩ := bind_eq_ok.mp h
        obtain ⟨b, hb, h⟩ := bind_eq_ok.mp h
        obtain ⟨bs, hbs, h⟩ := bind_eq_ok.mp h
        obtain rfl := Except.ok.inj h
        exact .cons ⟨value, hvalue, (blockOf_ok hb).1 ▸ hb⟩ (ih hbs)
    · simp [throw, throwThe, MonadExceptOf.throw] at h

/-- Blocks have names of their own. -/
theorem blocksOf_names {seen : List String} {properties : List Node}
    {blocks : List (Block Interpolation)}
    (h : blocksOf source marker tag seen properties = .ok blocks) :
    (blocks.map (·.name)).Nodup ∧ ∀ b ∈ blocks, b.name ∉ seen := by
  induction properties generalizing seen blocks with
  | nil =>
    obtain rfl := Except.ok.inj h
    simp
  | cons property rest ih =>
    rw [blocksOf] at h
    split at h
    · obtain ⟨name, -, h⟩ := bind_eq_ok.mp h
      split_ifs at h with hseen
      · simp [bind, Except.bind, throw, throwThe, MonadExceptOf.throw] at h
      · obtain ⟨-, -, h⟩ := bind_eq_ok.mp h
        obtain ⟨b, hb, h⟩ := bind_eq_ok.mp h
        obtain ⟨bs, hbs, h⟩ := bind_eq_ok.mp h
        obtain rfl := Except.ok.inj h
        obtain ⟨hnodup, hnew⟩ := ih hbs
        have hname : b.name = name := (blockOf_ok hb).1
        simp only [List.contains_iff_mem] at hseen
        refine ⟨List.nodup_cons.mpr ⟨fun hmem => ?_, hnodup⟩,
          List.forall_mem_cons.mpr ⟨hname ▸ hseen, fun c hc => ?_⟩⟩
        · obtain ⟨c, hc, hcb⟩ := List.mem_map.mp hmem
          exact hnew c hc (List.mem_cons.mpr (.inl (hcb.trans hname)))
        · exact fun hmem => hnew c hc (List.mem_cons_of_mem _ hmem)
    · simp [throw, throwThe, MonadExceptOf.throw] at h

private theorem contains_result? {function result : Node} (h : result? function = some result) :
    function.Contains result := by
  obtain ⟨body, hbody, h⟩ := Option.bind_eq_some_iff.mp h
  have hin : function.Contains body := Node.contains_child? hbody
  split_ifs at h with hblock
  · obtain ⟨last, hlast, h⟩ := Option.bind_eq_some_iff.mp h
    split_ifs at h
    obtain ⟨value, hvalue, rfl⟩ := Option.map_eq_some_iff.mp h
    have hlast' : body.Contains last := Node.contains_named (List.mem_of_getLast? hlast)
    have hvalue' : last.Contains value := Node.contains_named (List.mem_of_mem_head? hvalue)
    exact ((hin.trans hlast').trans hvalue').trans (Node.contains_unwrap value)
  · obtain rfl := Option.some.inj h
    exact hin.trans (Node.contains_unwrap body)

theorem returnedObject_ok {function object : Node} (h : returnedObject function = .ok object) :
    function.Contains object := by
  unfold returnedObject at h
  dsimp only at h
  split at h
  · next hresult =>
    split_ifs at h
    obtain rfl := Except.ok.inj h
    exact contains_result? hresult
  · simp at h

theorem argumentList_eq_cons {call first : Node} {rest : List Node}
    (h : argumentList call = first :: rest) :
    ∃ arguments, call.child? .arguments = some arguments ∧ first ∈ arguments.named := by
  unfold argumentList at h
  split at h
  · next arguments harguments =>
    split_ifs at h
    exact ⟨arguments, harguments, h ▸ List.mem_cons_self⟩
  · simp at h

/-- A call that could be read, with the nodes its parts come from. -/
theorem callOf_ok {settings : Settings} {exported : List String} {callSite sequence : Nat}
    {site : Site} {call : Call Interpolation}
    (h : callOf settings source exported callSite sequence site = .ok call) :
    ∃ arguments callee object, site.call.child? .arguments = some arguments ∧
      site.call.child? .callee = some callee ∧
      arguments.Contains object ∧ call.callSite = callSite ∧ call.sequence = sequence ∧
      call.callee = .ofNode callee ∧ call.span = .ofNode site.call ∧
      blocksOf source settings.marker call.parameters.tag [] object.named = .ok call.blocks := by
  unfold callOf at h
  dsimp only at h
  split_ifs at h
  · simp [bind, Except.bind, throw, throwThe, MonadExceptOf.throw] at h
  · split at h
    · next first rest callee hargs hcallee =>
      split_ifs at h
      · obtain ⟨object, hobject, h⟩ := bind_eq_ok.mp h
        obtain ⟨blocks, hblocks, h⟩ := bind_eq_ok.mp h
        obtain rfl := Except.ok.inj h
        obtain ⟨arguments, harguments, hfirst⟩ := argumentList_eq_cons hargs
        refine ⟨arguments, callee, object, harguments, hcallee, ?_, rfl, rfl, rfl, rfl, hblocks⟩
        exact ((Node.contains_named hfirst).trans (Node.contains_unwrap first)).trans
          (returnedObject_ok hobject)
      · simp [bind, Except.bind, throw, throwThe, MonadExceptOf.throw] at h
    · simp [throw, throwThe, MonadExceptOf.throw] at h

theorem hasError_of_callOf {settings : Settings} {exported : List String} {callSite sequence : Nat}
    {site : Site} {call : Call Interpolation}
    (h : callOf settings source exported callSite sequence site = .ok call) :
    site.call.hasError = false := by
  unfold callOf at h
  dsimp only at h
  split_ifs at h with herror
  · simp [bind, Except.bind, throw, throwThe, MonadExceptOf.throw] at h
  · exact eq_false_of_ne_true herror

/-- The supported definitions come from some of the sites, in order. -/
theorem readSites_calls (settings : Settings) (source : Bytes) (file : String)
    (exported : List String) (callSite sequence : Nat) (sites : List Site) :
    ∃ chosen, chosen.Sublist sites ∧
      List.Forall₂ (fun site call =>
        callOf settings source exported call.callSite call.sequence site = .ok call) chosen
        (readSites settings source file exported callSite sequence sites).calls := by
  induction sites generalizing callSite sequence with
  | nil => exact ⟨[], .slnil, .nil⟩
  | cons site rest ih =>
    rw [readSites]
    split
    · next call hcall =>
      obtain ⟨chosen, hsub, hall⟩ := ih (callSite + 1) (sequence + 1)
      obtain ⟨_, _, _, _, _, _, hsite, hseq, _⟩ := callOf_ok hcall
      exact ⟨site :: chosen, hsub.cons_cons site, .cons (by rw [hsite, hseq, hcall]) hall⟩
    · obtain ⟨chosen, hsub, hall⟩ := ih (callSite + 1) sequence
      exact ⟨chosen, hsub.cons site, hall⟩

/-- Definitions are numbered in order. -/
theorem readSites_sequence (settings : Settings) (source : Bytes) (file : String)
    (exported : List String) (callSite sequence : Nat) (sites : List Site) :
    ((readSites settings source file exported callSite sequence sites).calls.Pairwise
        fun a b => a.sequence < b.sequence) ∧
      ∀ call ∈ (readSites settings source file exported callSite sequence sites).calls, sequence ≤
        call.sequence := by
  induction sites generalizing callSite sequence with
  | nil => simp [readSites]
  | cons site rest ih =>
    rw [readSites]
    split
    · next call hcall =>
      obtain ⟨hpairwise, hle⟩ := ih (callSite + 1) (sequence + 1)
      obtain ⟨_, _, _, _, _, _, _, hseq, _⟩ := callOf_ok hcall
      refine ⟨List.pairwise_cons.mpr ⟨fun c hc => ?_, hpairwise⟩,
        List.forall_mem_cons.mpr ⟨by omega, fun c hc => ?_⟩⟩
      · have hc := hle c hc
        omega
      · have hc := hle c hc
        omega
    · exact ih (callSite + 1) sequence

/-- No two definitions stand at the same place. -/
theorem readSites_callSite (settings : Settings) (source : Bytes) (file : String)
    (exported : List String) (callSite sequence : Nat) (sites : List Site) :
    ((readSites settings source file exported callSite sequence sites).calls.map
      (·.callSite)).Nodup ∧
      ∀ call ∈ (readSites settings source file exported callSite sequence sites).calls, callSite ≤
        call.callSite := by
  induction sites generalizing callSite sequence with
  | nil => simp [readSites]
  | cons site rest ih =>
    rw [readSites]
    cases hcall : callOf settings source exported callSite sequence site with
    | ok call =>
      obtain ⟨hnodup, hle⟩ := ih (callSite + 1) (sequence + 1)
      obtain ⟨_, _, _, _, _, _, hsite, _⟩ := callOf_ok hcall
      refine ⟨List.nodup_cons.mpr ⟨fun hmem => ?_, hnodup⟩,
        List.forall_mem_cons.mpr ⟨by omega, fun c hc => ?_⟩⟩
      · obtain ⟨c, hc, heq⟩ := List.mem_map.mp hmem
        have hc := hle c hc
        dsimp only at heq
        omega
      · have hc := hle c hc
        omega
    | error unsupported =>
      obtain ⟨hnodup, hle⟩ := ih (callSite + 1) sequence
      refine ⟨hnodup, fun c hc => ?_⟩
      have hc := hle c hc
      omega

section Sites
variable {factories : List String}

mutual
/-- The calls of the factory in document order; calls inside such a call do not count. -/
def sites (factories : List String) (parents : List Node) : Node → List Site
  | ⟨kind, role, start, stop, text, children⟩ =>
    let n : Node := ⟨kind, role, start, stop, text, children⟩
    if isFactoryCall factories n then [⟨n, parents⟩] else sitesAll factories (n :: parents) children

def sitesAll (factories : List String) (parents : List Node) : List Node → List Site
  | [] => []
  | n :: ns => sites factories parents n ++ sitesAll factories parents ns
end

/-- What the search takes from one entry of its stack. -/
def Site.sites (factories : List String) (site : Site) : List Site :=
  Style.sites factories site.parents site.call

theorem Site.sites_of_isFactoryCall {site : Site} (h : isFactoryCall factories site.call) :
    site.sites factories = [site] := by
  obtain ⟨⟨kind, role, start, stop, text, children⟩, parents⟩ := site
  rw [Site.sites, Style.sites, if_pos h]

private theorem sitesAll_eq_flatMap (parents ns : List Node) :
    sitesAll factories parents ns = ns.flatMap (sites factories parents) := by
  induction ns with
  | nil => rw [sitesAll, List.flatMap_nil]
  | cons n ns ih => rw [sitesAll, List.flatMap_cons, ih]

theorem Site.sites_of_not_isFactoryCall {site : Site} (h : ¬isFactoryCall factories site.call) :
    site.sites factories = site.children.flatMap (Site.sites factories) := by
  obtain ⟨⟨kind, role, start, stop, text, children⟩, parents⟩ := site
  rw [Site.sites, Style.sites, if_neg h, sitesAll_eq_flatMap, Site.children, List.flatMap_map]
  rfl

/-- The search takes from its stack, entry by entry, what a walk over the tree of the entry
finds. -/
theorem search_eq (factories : List String) (stack found : List Site) :
    search factories stack found = found ++ stack.flatMap (Site.sites factories) := by
  induction stack, found using search.induct factories with
  | case1 found => rw [search, List.flatMap_nil, List.append_nil]
  | case2 found top stack hcall ih =>
    rw [search, if_pos hcall, ih, List.flatMap_cons, Site.sites_of_isFactoryCall hcall,
      List.append_assoc]
  | case3 found top stack hcall ih =>
    rw [search, if_neg hcall, ih, List.flatMap_append, List.flatMap_cons,
      Site.sites_of_not_isFactoryCall hcall]

theorem candidates_eq (settings : Settings) (root : Node) :
    candidates settings root = sites [settings.factory, runtimeFactory] [] root := by
  rw [candidates, search_eq, List.nil_append, List.flatMap_singleton, Site.sites]

theorem candidates_of_isFactoryCall {settings : Settings} {root : Node}
    (h : isFactoryCall [settings.factory, runtimeFactory] root) :
    candidates settings root = [⟨root, []⟩] := by
  rw [candidates_eq]
  exact @Site.sites_of_isFactoryCall _ ⟨root, []⟩ h

mutual
theorem contains_of_mem_sites :
    ∀ {n : Node} {parents : List Node} {site : Site}, site ∈ sites factories parents n →
    n.Contains site.call ∧ isFactoryCall factories site.call
  | ⟨kind, role, start, stop, text, children⟩, parents, site, h => by
    rw [sites] at h
    split_ifs at h with hcall
    · obtain rfl := List.mem_singleton.mp h
      exact ⟨.refl, hcall⟩
    · obtain ⟨c, hc, hin, hsite⟩ := contains_of_mem_sitesAll h
      exact ⟨.head hc hin, hsite⟩

theorem contains_of_mem_sitesAll :
    ∀ {ns parents : List Node} {site : Site}, site ∈ sitesAll factories parents ns →
    ∃ c ∈ ns, c.Contains site.call ∧ isFactoryCall factories site.call
  | [], _, _, h => by simp [sitesAll] at h
  | n :: ns, parents, site, h => by
    rw [sitesAll, List.mem_append] at h
    rcases h with h | h
    · exact ⟨n, List.mem_cons_self, contains_of_mem_sites h⟩
    · obtain ⟨c, hc, hin⟩ := contains_of_mem_sitesAll h
      exact ⟨c, List.mem_cons_of_mem _ hc, hin⟩
end

theorem kind_of_isFactoryCall {n : Node} (h : isFactoryCall factories n) : n.kind = .call := by
  simp only [isFactoryCall, Bool.and_eq_true, beq_iff_eq] at h
  exact h.1

theorem contains_of_mem_candidates {settings : Settings} {root : Node} {site : Site}
    (h : site ∈ candidates settings root) :
    root.Contains site.call ∧ isFactoryCall [settings.factory, runtimeFactory] site.call :=
  contains_of_mem_sites (candidates_eq settings root ▸ h)

end Sites

/-- Each definition was read from a candidate, in the order of the candidates. -/
theorem scan_calls (settings : Settings) (source : Bytes) (root : Node) (file : String) :
    ∃ chosen, chosen.Sublist (candidates settings root) ∧
      List.Forall₂ (fun site call =>
        callOf settings source (exportedNames root) call.callSite call.sequence site =
          .ok call) chosen
        (scan settings source root file).calls :=
  readSites_calls settings source file (exportedNames root) 0 0 (candidates settings root)

/-- A block of a definition was read from a node of the tree, and there are no faults in it. -/
theorem exists_blockOf {settings : Settings} {root : Node} {file : String}
    {call : Call Interpolation} (hcall : call ∈ (scan settings source root file).calls)
    {b : Block Interpolation} (hb : b ∈ call.blocks) :
    ∃ tag value, root.Contains value ∧ value.hasError = false ∧
      blockOf source settings.marker tag b.name value = .ok b := by
  obtain ⟨chosen, hsub, hall⟩ := scan_calls settings source root file
  obtain ⟨site, hsite, hread⟩ := exists_of_mem_right hall hcall
  obtain ⟨arguments, -, object, harguments, -, hobject, -, -, -, -, hblocks⟩ := callOf_ok hread
  obtain ⟨property, hproperty, value, hvalue, hblock⟩ :=
    exists_of_mem_right (blocksOf_ok hblocks) hb
  have hin : site.call.Contains value :=
    (((Node.contains_child? harguments).trans hobject).trans (Node.contains_named hproperty)).trans
      (Node.contains_child? hvalue)
  exact ⟨_, value, (contains_of_mem_candidates (hsub.subset hsite)).1.trans hin,
    Node.hasError_of_contains hin (hasError_of_callOf hread), hblock⟩

/-- An interpolation of a definition was read from a hole and the expression in it. -/
theorem exists_interpolationOf {settings : Settings} {root : Node} {file : String}
    {call : Call Interpolation} (hcall : call ∈ (scan settings source root file).calls)
    {b : Block Interpolation} (hb : b ∈ call.blocks) {i : Interpolation}
    (hi : i ∈ b.interpolations) :
    ∃ hole expr, i = interpolationOf source settings.marker i.index hole expr := by
  obtain ⟨tag, value, -, -, hblock⟩ := exists_blockOf hcall hb
  obtain ⟨-, template, -, -, hparts⟩ := blockOf_ok hblock
  obtain ⟨hole, -, expr, -, hread⟩ := exists_of_mem_right (templateParts_ok hparts) hi
  exact ⟨hole, expr, hread⟩

/-- Chunks and expressions are parts of the source. -/
theorem scan_reads_source {settings : Settings} {root : Node} {file : String}
    {call : Call Interpolation} (hcall : call ∈ (scan settings source root file).calls)
    {b : Block Interpolation} (hb : b ∈ call.blocks) :
    b.chunks = gaps source (b.template.stop - 1) (b.template.start + 1)
      (b.interpolations.map (·.span)) ∧
      ∀ i ∈ b.interpolations, i.source = slice source i.expr.start i.expr.stop := by
  obtain ⟨tag, value, -, -, hblock⟩ := exists_blockOf hcall hb
  obtain ⟨-, template, -, htemplate, hparts⟩ := blockOf_ok hblock
  refine ⟨by rw [htemplate]; exact templateParts_chunks hparts, fun i hi => ?_⟩
  obtain ⟨hole, expr, hi⟩ := exists_interpolationOf hcall hb hi
  rw [hi]
  rfl

private theorem isEmpty_of_placeholderIn? {text name : String}
    (h : placeholderIn? text = some name) : name.isEmpty = false := by
  unfold placeholderIn? at h
  split at h
  · dsimp only at h
    split at h
    · obtain rfl := Option.some.inj h
      simp
    · obtain rfl := Option.some.inj h
      simp
    · simp at h
  · simp at h

/-- A placeholder is never empty. -/
theorem scan_placeholder {settings : Settings} {root : Node} {file : String}
    {call : Call Interpolation} (hcall : call ∈ (scan settings source root file).calls)
    {b : Block Interpolation} (hb : b ∈ call.blocks) {i : Interpolation} (hi : i ∈ b.interpolations)
    {name : String} (h : i.placeholder = some name) : name.isEmpty = false := by
  obtain ⟨hole, expr, hread⟩ := exists_interpolationOf hcall hb hi
  rw [hread, interpolationOf] at h
  dsimp only at h
  split_ifs at h
  exact isEmpty_of_placeholderIn? h

def allDynamic (calls : List (Call Interpolation)) : List (Call Labelled) :=
  calls.map (Call.map fun i => { i with label := .dynamic })

theorem toInterpolation_allDynamic (calls : List (Call Interpolation)) :
    (allDynamic calls).map (Call.map Labelled.toInterpolation) = calls := by
  simp [allDynamic, Call.map, Block.map, Function.comp_def]

end ThemedCss.Style
