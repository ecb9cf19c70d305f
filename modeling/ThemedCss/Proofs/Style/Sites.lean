import ThemedCss.Proofs.Style.Layout
import ThemedCss.Syntax.Parser

/-! Style definitions are the outermost calls of the factory, and are numbered in document order. -/
namespace ThemedCss.Syntax.Node

/-- The node at the end of a way of child positions. -/
def at? (n : Node) : List Nat → Option Node
  | [] => some n
  | i :: way => n.children[i]?.bind (·.at? way)

def around (n : Node) : List Nat → List Node
  | [] => []
  | i :: way => (n.children[i]?.elim [] (·.around way)) ++ [n]

theorem at?_cons {n m : Node} {i : Nat} {way : List Nat} :
    n.at? (i :: way) = some m ↔ ∃ c, n.children[i]? = some c ∧ c.at? way = some m :=
  Option.bind_eq_some_iff

end ThemedCss.Syntax.Node

namespace ThemedCss.Style
open ThemedCss.Syntax ThemedCss.Text

section Sites
variable {factories : List String}

/-- At the end of the way is a call of the factory that lies in no other one. -/
def Outermost (factories : List String) (root : Node) (way : List Nat) : Prop :=
  (∃ n, root.at? way = some n ∧ isFactoryCall factories n) ∧
    ∀ above below, way = above ++ below → below ≠ [] → ∀ n, root.at? above = some n →
    ¬isFactoryCall factories n

private theorem outermost_of_isFactoryCall {n : Node} (h : isFactoryCall factories n)
    {way : List Nat} : Outermost factories n way ↔ way = [] := by
  constructor
  · intro hway
    by_contra hne
    exact hway.2 [] way rfl hne n rfl h
  · rintro rfl
    refine ⟨⟨n, rfl, h⟩, fun above below hsplit hne => ?_⟩
    exact absurd (List.append_eq_nil_iff.mp hsplit.symm).2 hne

/-- Below a node that is no call of the factory, each child is looked at on its own. -/
theorem outermost_of_not_isFactoryCall {n : Node} (h : ¬isFactoryCall factories n)
    {way : List Nat} :
    Outermost factories n way ↔
      ∃ i rest c, way = i :: rest ∧ n.children[i]? = some c ∧ Outermost factories c rest := by
  constructor
  · rintro ⟨⟨m, hm, hcall⟩, habove⟩
    cases way with
    | nil =>
      obtain rfl := Option.some.inj hm
      exact absurd hcall h
    | cons i rest =>
      obtain ⟨c, hc, hm⟩ := Node.at?_cons.mp hm
      refine ⟨i, rest, c, rfl, hc, ⟨m, hm, hcall⟩, fun above below hsplit hne k hk => ?_⟩
      exact habove (i :: above) below (by rw [hsplit, List.cons_append]) hne k
        (Node.at?_cons.mpr ⟨c, hc, hk⟩)
  · rintro ⟨i, rest, c, rfl, hc, ⟨m, hm, hcall⟩, habove⟩
    refine ⟨⟨m, Node.at?_cons.mpr ⟨c, hc, hm⟩, hcall⟩, fun above below hsplit hne k hk => ?_⟩
    cases above with
    | nil =>
      obtain rfl := Option.some.inj hk
      exact h
    | cons j above =>
      obtain ⟨rfl, hrest⟩ := List.cons.inj hsplit
      obtain ⟨c', hc', hk⟩ := Node.at?_cons.mp hk
      obtain rfl := Option.some.inj (hc.symm.trans hc')
      exact habove above below hrest hne k hk

/-- The ways lead to the sites, one way to each, in document order. -/
structure Leads (factories : List String) (parents : List Node) (root : Node)
    (ways : List (List Nat)) (found : List Site) : Prop where
  ordered : ways.Pairwise (· < ·)
  complete : ∀ way, way ∈ ways ↔ Outermost factories root way
  reached :
    List.Forall₂ (fun way site => root.at? way = some site.call ∧
      site.parents = root.around way ++ parents)
    ways found

mutual
theorem exists_ways :
    ∀ (n : Node) (parents : List Node), ∃ ways,
      Leads factories parents n ways (sites factories parents n)
  | ⟨kind, role, start, stop, text, children⟩, parents => by
    rw [sites]
    split_ifs with hcall
    · exact ⟨[[]], List.pairwise_singleton _ _,
        fun way => by rw [outermost_of_isFactoryCall hcall, List.mem_singleton],
        .cons ⟨rfl, rfl⟩ .nil⟩
    · obtain ⟨ways, hordered, hcomplete, hreached⟩ :=
        exists_waysAll children (⟨kind, role, start, stop, text, children⟩ :: parents)
      refine ⟨ways, hordered, fun way => by
        rw [hcomplete, outermost_of_not_isFactoryCall hcall], hreached.imp ?_⟩
      rintro _ site ⟨i, rest, c, rfl, hc, hat, hparents⟩
      refine ⟨Node.at?_cons.mpr ⟨c, hc, hat⟩, ?_⟩
      simp [Node.around, hc, hparents]

theorem exists_waysAll :
    ∀ (ns parents : List Node), ∃ ways : List (List Nat), ways.Pairwise (· < ·) ∧
    (∀ way, way ∈ ways ↔ ∃ i rest c, way = i :: rest ∧ ns[i]? = some c ∧
      Outermost factories c rest) ∧
    List.Forall₂ (fun way site => ∃ i rest c, way = i :: rest ∧ ns[i]? = some c ∧
      c.at? rest = some site.call ∧
      site.parents = c.around rest ++ parents) ways (sitesAll factories parents ns)
  | [], parents => ⟨[], .nil, by simp, by rw [sitesAll]; exact .nil⟩
  | n :: ns, parents => by
    obtain ⟨first, hfirst⟩ := exists_ways n parents
    obtain ⟨later, hordered, hcomplete, hreached⟩ := exists_waysAll ns parents
    rw [sitesAll]
    -- the ways to the children after the first one begin one position later
    refine ⟨first.map (0 :: ·) ++ later.map (List.modifyHead (· + 1)), ?_, fun way => ?_, ?_⟩
    · rw [List.pairwise_append, List.pairwise_map, List.pairwise_map]
      refine ⟨hfirst.ordered.imp fun h => List.cons_lt_cons_iff.mpr (.inr ⟨rfl, h⟩), ?_, ?_⟩
      · refine hordered.imp_of_mem fun {a b} ha hb h => ?_
        obtain ⟨i, rest, -, rfl, -⟩ := (hcomplete a).mp ha
        obtain ⟨j, rest', -, rfl, -⟩ := (hcomplete b).mp hb
        simpa [List.cons_lt_cons_iff] using h
      · rintro a ha b hb
        obtain ⟨rest, -, rfl⟩ := List.mem_map.mp ha
        obtain ⟨way, hway, rfl⟩ := List.mem_map.mp hb
        obtain ⟨j, rest', -, rfl, -⟩ := (hcomplete way).mp hway
        simp [List.cons_lt_cons_iff]
    · rw [List.mem_append, List.mem_map, List.mem_map]
      constructor
      · rintro (⟨rest, hrest, rfl⟩ | ⟨way, hway, rfl⟩)
        · exact ⟨0, rest, n, rfl, rfl, (hfirst.complete rest).mp hrest⟩
        · obtain ⟨i, rest, c, rfl, hc, hout⟩ := (hcomplete way).mp hway
          exact ⟨i + 1, rest, c, rfl, hc, hout⟩
      · rintro ⟨_ | i, rest, c, rfl, hc, hout⟩
        · obtain rfl := Option.some.inj hc
          exact .inl ⟨rest, (hfirst.complete rest).mpr hout, rfl⟩
        · exact .inr ⟨i :: rest, (hcomplete _).mpr ⟨i, rest, c, rfl, hc, hout⟩, rfl⟩
    · refine List.rel_append ?_ ?_
      · rw [List.forall₂_map_left_iff]
        exact hfirst.reached.imp fun rest site h => ⟨0, rest, n, rfl, rfl, h⟩
      · rw [List.forall₂_map_left_iff]
        refine hreached.imp ?_
        rintro _ site ⟨i, rest, c, rfl, hc, h⟩
        exact ⟨i + 1, rest, c, rfl, hc, h⟩
end

end Sites

section Faults
variable {settings : Settings} {source : Bytes} {exported : List String} {marker tag name : String}
  {u : Unsupported}

private theorem templateParts_error {stop index cursor : Nat} {holes : List Node}
    (h : templateParts source marker name stop index cursor holes = .error u) :
    ∃ hole ∈ holes, u.pos = hole.start := by
  induction holes generalizing index cursor with
  | nil => simp [templateParts] at h
  | cons hole holes ih =>
    rw [templateParts] at h
    split at h
    · cases hrest : templateParts source marker name stop (index + 1) hole.stop holes with
      | ok parts => simp [hrest, bind, Except.bind, pure, Except.pure] at h
      | error u' =>
        simp only [hrest, bind, Except.bind, Except.error.injEq] at h
        obtain ⟨m, hm, hpos⟩ := ih (h ▸ hrest)
        exact ⟨m, List.mem_cons_of_mem _ hm, hpos⟩
    · obtain rfl := Except.error.inj h
      exact ⟨hole, List.mem_cons_self, rfl⟩

private theorem blockOf_error {value : Node} (h : blockOf source marker tag name value = .error u) :
    ∃ m, value.Contains m ∧ u.pos = m.start := by
  unfold blockOf at h
  dsimp only at h
  split at h
  · obtain rfl := Except.error.inj h
    exact ⟨value.unwrap, Node.contains_unwrap value, rfl⟩
  · next template ht =>
    have hin : value.Contains template :=
      (Node.contains_unwrap value).trans (Node.contains_child? (taggedTemplate?_eq_some ht).2.2.1)
    cases hparts : templateParts source marker name (template.stop - 1) 0 (template.start + 1)
        (template.children.filter (·.kind == .substitution)) with
    | ok parts => simp [hparts, bind, Except.bind, pure, Except.pure] at h
    | error u' =>
      simp only [hparts, bind, Except.bind, Except.error.injEq] at h
      obtain ⟨hole, hhole, hpos⟩ := templateParts_error (h ▸ hparts)
      exact ⟨hole, hin.tail (List.mem_filter.mp hhole).1, hpos⟩

private theorem blocksOf_error {seen : List String} {properties : List Node}
    (h : blocksOf source marker tag seen properties = .error u) :
    ∃ property ∈ properties, ∃ m, property.Contains m ∧ u.pos = m.start := by
  induction properties generalizing seen with
  | nil => simp [blocksOf] at h
  | cons property rest ih =>
    rw [blocksOf] at h
    split at h
    · next key value _ hkey hvalue =>
      cases hname : blockName key with
      | error u' =>
        simp only [hname, bind, Except.bind, Except.error.injEq] at h
        subst h
        refine ⟨property, List.mem_cons_self, key, Node.contains_child? hkey, ?_⟩
        unfold blockName at hname
        split at hname <;> simp only [reduceCtorEq, Except.error.injEq] at hname
        rw [← hname]
      | ok name =>
        simp only [hname, bind, Except.bind] at h
        split_ifs at h
        · obtain rfl := Except.error.inj h
          exact ⟨property, List.mem_cons_self, property, .refl, rfl⟩
        · simp only [pure, Except.pure] at h
          cases hblock : blockOf source marker tag name value with
          | error u' =>
            simp only [hblock, Except.error.injEq] at h
            obtain ⟨m, hm, hpos⟩ := blockOf_error (h ▸ hblock)
            exact ⟨property, List.mem_cons_self, m, (Node.contains_child? hvalue).trans hm, hpos⟩
          | ok block =>
            simp only [hblock] at h
            cases hrest : blocksOf source marker tag (name :: seen) rest with
            | ok blocks => simp [hrest] at h
            | error u' =>
              simp only [hrest, Except.error.injEq] at h
              obtain ⟨p, hp, hpos⟩ := ih (h ▸ hrest)
              exact ⟨p, List.mem_cons_of_mem _ hp, hpos⟩
    · obtain rfl := Except.error.inj h
      exact ⟨property, List.mem_cons_self, property, .refl, rfl⟩

private theorem returnedObject_error {function : Node} (h : returnedObject function = .error u) :
    ∃ m, function.Contains m ∧ u.pos = m.start := by
  have hbody : function.Contains ((function.child? .body).getD function) := by
    cases hb : function.child? .body with
    | none => exact .refl
    | some body => exact Node.contains_child? hb
  refine ⟨_, hbody, ?_⟩
  unfold returnedObject at h
  dsimp only at h
  split at h
  · split_ifs at h
    obtain rfl := Except.error.inj h
    rfl
  · obtain rfl := Except.error.inj h
    rfl

/-- What is not supported in a call stands at a node of it. -/
theorem callOf_error {callSite sequence : Nat} {site : Site}
    (h : callOf settings source exported callSite sequence site = .error u) :
    ∃ m, site.call.Contains m ∧ u.pos = m.start := by
  unfold callOf at h
  dsimp only at h
  split_ifs at h
  · obtain rfl := Except.error.inj h
    exact ⟨site.call, .refl, rfl⟩
  · split at h
    · next first rest callee hargs _ =>
      obtain ⟨arguments, harguments, hfirst⟩ := argumentList_eq_cons hargs
      have hin : site.call.Contains first.unwrap :=
        ((Node.contains_child? harguments).trans (Node.contains_named hfirst)).trans
          (Node.contains_unwrap first)
      split_ifs at h
      · cases hobject : returnedObject first.unwrap with
        | error u' =>
          simp only [hobject, bind, Except.bind, Except.error.injEq] at h
          obtain ⟨m, hm, hpos⟩ := returnedObject_error (h ▸ hobject)
          exact ⟨m, hin.trans hm, hpos⟩
        | ok object =>
          cases hblocks : blocksOf source settings.marker
            (parametersOf settings.tag first.unwrap).tag [] object.named with
          | ok blocks => simp [hobject, hblocks, bind, Except.bind, pure, Except.pure] at h
          | error u' =>
            simp only [hobject, hblocks, bind, Except.bind, Except.error.injEq] at h
            obtain ⟨property, hproperty, m, hm, hpos⟩ := blocksOf_error (h ▸ hblocks)
            exact ⟨m,
              ((hin.trans (returnedObject_ok hobject)).trans (Node.contains_named hproperty)).trans
                hm, hpos⟩
      · obtain rfl := Except.error.inj h
        exact ⟨first.unwrap, hin, rfl⟩
    · obtain rfl := Except.error.inj h
      exact ⟨site.call, .refl, rfl⟩

end Faults

section Numbers
variable {settings : Settings} {source : Bytes} {file : String} {exported : List String}

/-- Whether a call is supported does not hang on its numbers. -/
theorem callOf_numbered (callSite sequence : Nat) (site : Site) :
    callOf settings source exported callSite sequence site =
      (callOf settings source exported 0 0 site).map fun call =>
        { call with callSite, sequence } := by
  unfold callOf
  dsimp only
  split_ifs
  · rfl
  · split
    · split_ifs
      · cases returnedObject _ with
        | error u => rfl
        | ok object =>
          simp only [bind, Except.bind]
          cases blocksOf source settings.marker _ [] object.named with
          | error u => rfl
          | ok blocks => rfl
      · rfl
    · rfl

/-- A site gives one definition, or one message if it has none under any numbers. -/
inductive Gives (settings : Settings) (source : Bytes) (file : String) (exported : List String) :
    Site → Except Diagnostic (Call Interpolation) → Prop
  | definition {site call} :
      callOf settings source exported call.callSite call.sequence site = .ok call →
      Gives settings source file exported site (.ok call)
  | message {site u} :
      (∀ callSite sequence, callOf settings source exported callSite sequence site = .error u) →
      Gives settings source file exported site (.error (u.diagnostic source file))

def fault? {ε α : Type} : Except ε α → Option ε
  | .ok _ => none
  | .error e => some e

/-- The sites are split into definitions and messages: each site gives one of them, definitions are
numbered by the sites before them and by the definitions before them. -/
structure Splits (settings : Settings) (source : Bytes) (file : String) (exported : List String)
    (callSite sequence : Nat) (found : List Site) (scanned : Definitions)
    (outcomes : List (Except Diagnostic (Call Interpolation))) : Prop where
  each : List.Forall₂ (Gives settings source file exported) found outcomes
  calls : scanned.calls = outcomes.filterMap (·.toOption)
  diagnostics : scanned.diagnostics = outcomes.filterMap fault?
  numbered : ∀ k call, outcomes[k]? = some (.ok call) →
    call.callSite = callSite + k ∧ call.sequence = sequence + (outcomes.take k).countP (·.isOk)
  gapless : ∀ k call, scanned.calls[k]? = some call → call.sequence = sequence + k

theorem readSites_splits (settings : Settings) (source : Bytes) (file : String)
    (exported : List String) (callSite sequence : Nat) (found : List Site) :
    ∃ outcomes, Splits settings source file exported callSite sequence found
      (readSites settings source file exported callSite sequence found) outcomes := by
  induction found generalizing callSite sequence with
  | nil => exact ⟨[], .nil, rfl, rfl, by simp, by simp [readSites]⟩
  | cons site rest ih =>
    rw [readSites]
    cases hcall : callOf settings source exported callSite sequence site with
    | ok call =>
      obtain ⟨outcomes, heach, hcalls, hdiagnostics, hnumbered, hgapless⟩ :=
        ih (callSite + 1) (sequence + 1)
      obtain ⟨_, _, _, _, _, _, hsite, hsequence, _⟩ := callOf_ok hcall
      refine ⟨.ok call :: outcomes, .cons (.definition (by rw [hsite, hsequence, hcall])) heach,
        ?_, ?_, ?_, ?_⟩
      · simp [hcalls, Except.toOption]
      · simp [hdiagnostics, List.filterMap_cons, fault?]
      · rintro (_ | k) c hc
        · obtain rfl := Except.ok.inj (Option.some.inj hc)
          exact ⟨hsite, by simpa using hsequence⟩
        · obtain ⟨hk, hr⟩ := hnumbered k c hc
          rw [List.take_succ_cons, List.countP_cons_of_pos rfl]
          omega
      · rintro (_ | k) c hc
        · obtain rfl := Option.some.inj hc
          exact hsequence
        · have hr := hgapless k c hc
          omega
    | error u =>
      obtain ⟨outcomes, heach, hcalls, hdiagnostics, hnumbered, hgapless⟩ :=
        ih (callSite + 1) sequence
      have hall : ∀ k r, callOf settings source exported k r site = .error u := by
        intro k r
        rw [callOf_numbered] at hcall ⊢
        cases h : callOf settings source exported 0 0 site with
        | ok call => simp [h, Except.map] at hcall
        | error u' => simpa [h, Except.map] using hcall
      refine ⟨.error (u.diagnostic source file) :: outcomes, .cons (.message hall) heach, ?_, ?_,
        ?_, hgapless⟩
      · simp [hcalls, Except.toOption]
      · simp [hdiagnostics, fault?]
      · rintro (_ | k) c hc
        · cases hc
        · obtain ⟨hk, hr⟩ := hnumbered k c hc
          rw [List.take_succ_cons, List.countP_cons_of_neg (by simp [Except.isOk, Except.toBool])]
          omega

/-- Lines and columns grow with the bytes. -/
theorem rowAndColumn_mono (source : Bytes) {p q : Nat} (h : p ≤ q) :
    (rowAndColumn source p).1 < (rowAndColumn source q).1 ∨
    (rowAndColumn source p).1 = (rowAndColumn source q).1 ∧
    (rowAndColumn source p).2 ≤ (rowAndColumn source q).2 := by
  induction h with
  | refl => exact .inr ⟨rfl, Nat.le_refl _⟩
  | @step q _ ih =>
    have hnext : rowAndColumn source (q + 1) = rowAndColumn source q ∨
        rowAndColumn source (q + 1) = ((rowAndColumn source q).1 + 1, 0) ∨
        rowAndColumn source (q + 1) =
          ((rowAndColumn source q).1, (rowAndColumn source q).2 + 1) := by
      rw [rowAndColumn, List.take_add_one, List.foldl_append, ← rowAndColumn]
      cases source[q]? with
      | none => exact .inl rfl
      | some b =>
        simp only [Option.toList_some, List.foldl_cons, List.foldl_nil]
        split_ifs
        · exact .inr (.inl rfl)
        · exact .inr (.inr rfl)
    rcases hnext with hnext | hnext | hnext <;> rw [hnext] <;> omega

/-- The first message is about a place before that of the second one, or about the same place. -/
def Diagnostic.NotAfter (a b : Diagnostic) : Prop :=
  a.line < b.line ∨ a.line = b.line ∧ a.column ≤ b.column

private theorem diagnostic_notAfter {u v : Unsupported} (h : u.pos ≤ v.pos) :
    (u.diagnostic source file).NotAfter (v.diagnostic source file) := by
  have hmono := rowAndColumn_mono source h
  simp only [Diagnostic.NotAfter, Unsupported.diagnostic]
  omega

/-- Each message is about a place in its own site, so messages stand in the order of their sites. -/
theorem Splits.notAfter {callSite sequence : Nat} {found : List Site} {scanned : Definitions}
    {outcomes : List (Except Diagnostic (Call Interpolation))}
    (h : Splits settings source file exported callSite sequence found scanned outcomes)
    (hnest : ∀ site ∈ found, site.call.Nested)
    (hfound : found.Pairwise fun a b => a.call.stop ≤ b.call.start) :
    scanned.diagnostics.Pairwise Diagnostic.NotAfter := by
  have houtcomes : outcomes.Pairwise fun a b => ∀ d ∈ fault? a, ∀ e ∈ fault? b, d.NotAfter e := by
    refine pairwise_right h.each hfound fun s hs t ht a b ha hb hst d hd e he => ?_
    cases ha with
    | definition => cases hd
    | @message u hu =>
      cases hb with
      | definition => cases he
      | @message v hv =>
        obtain rfl := Option.some.inj hd
        obtain rfl := Option.some.inj he
        obtain ⟨m, hm, hu⟩ := callOf_error (hu 0 0)
        obtain ⟨k, hk, hv⟩ := callOf_error (hv 0 0)
        have hleft := (hnest s hs).bounds hm
        have hright := (hnest t ht).bounds hk
        have hle := ((hnest s hs).of_contains hm).le
        exact diagnostic_notAfter (by omega)
  rw [h.diagnostics, List.pairwise_filterMap]
  exact houtcomes

/-- Definitions stand in the order of their sites. -/
theorem Splits.before {callSite sequence : Nat} {found : List Site} {scanned : Definitions}
    {outcomes : List (Except Diagnostic (Call Interpolation))}
    (h : Splits settings source file exported callSite sequence found scanned outcomes)
    (hfound : found.Pairwise fun a b => a.call.stop ≤ b.call.start) :
    scanned.calls.Pairwise fun a b => a.span.Before b.span := by
  have houtcomes : outcomes.Pairwise fun a b => ∀ c ∈ a.toOption, ∀ d ∈ b.toOption,
      c.span.Before d.span := by
    refine pairwise_right h.each hfound fun s _ t _ a b ha hb hst c hc d hd => ?_
    cases ha with
    | message => cases hc
    | definition ha =>
      cases hb with
      | message => cases hd
      | definition hb =>
        obtain rfl := Option.some.inj hc
        obtain rfl := Option.some.inj hd
        obtain ⟨_, _, _, _, _, _, _, _, _, hspan, _⟩ := callOf_ok ha
        obtain ⟨_, _, _, _, _, _, _, _, _, hspan', _⟩ := callOf_ok hb
        rw [hspan, hspan']
        exact hst
  rw [h.calls, List.pairwise_filterMap]
  exact houtcomes

end Numbers

/-- Style definitions are read from the calls of the factory that lie in no other one, each once and
in document order. Each of them gives one definition or one message, never both; definitions are
numbered by their place among all these calls and, without gaps, among the supported ones; and
definitions and messages keep the order of the document. -/
theorem scan_numbers_outermost_calls (settings : Settings) (source : Bytes) (file : String)
    (root : Node) (hroot : root.Nested) :
    let factories := [settings.factory, runtimeFactory]
    let found := search factories [⟨root, []⟩] []
    let scanned := scan settings source root file
    (∃ ways, Leads factories [] root ways found) ∧
    (found.Pairwise fun a b => a.call.stop ≤ b.call.start) ∧
    (∃ outcomes, Splits settings source file (exportedNames root) 0 0 found scanned outcomes) ∧
    (scanned.calls.Pairwise fun a b => a.span.Before b.span) ∧
    scanned.diagnostics.Pairwise Diagnostic.NotAfter := by
  intro factories found scanned
  have hways : ∃ ways, Leads factories [] root ways found := by
    have hfound : found = sites factories [] root := candidates_eq settings root
    rw [hfound]
    exact exists_ways root []
  have hfound : found.Pairwise fun a b => a.call.stop ≤ b.call.start := candidates_pairwise hroot
  have hnest : ∀ site ∈ found, site.call.Nested :=
    fun site hsite => hroot.of_contains (contains_of_mem_candidates hsite).1
  obtain ⟨outcomes, hsplits⟩ := readSites_splits settings source file (exportedNames root) 0 0 found
  exact ⟨hways, hfound, ⟨outcomes, hsplits⟩, hsplits.before hfound, hsplits.notAfter hnest hfound⟩

/-- A call without a function, and one inside another call, with a third one in a hole of its
template. -/
def mixedDefinitions : String :=
  "f(1);g(f(()=>(\x7ba:css\x60$\x7bf(2)\x7d\x60\x7d)))"

theorem scan_numbers_outermost_calls_mixed :
    let settings : Settings := { Settings.ofTheme "t" with factory := "f" }
    let root := parse .script mixedDefinitions.toList
    let found := search ["f", runtimeFactory] [⟨root, []⟩] []
    let scanned := scan settings (encode mixedDefinitions) root "a.js"
    root.Nested ∧ found.map (·.call.start) = [0, 7] ∧
      scanned.calls.map (fun c => (c.callSite, c.sequence)) = [(1, 0)] ∧
      scanned.diagnostics.map (·.column) = [3] ∧
      ∃ ways, Leads ["f", runtimeFactory] [] root ways found := by
  intro settings root found scanned
  have hrun : TreeOf (encode mixedDefinitions) root ∧ found.map (·.call.start) = [0, 7] ∧
      scanned.calls.map (fun c => (c.callSite, c.sequence)) = [(1, 0)] ∧
      scanned.diagnostics.map (·.column) = [3] := by
    decide +kernel
  obtain ⟨hways, -⟩ :=
    scan_numbers_outermost_calls settings (encode mixedDefinitions) "a.js" root hrun.1.nested
  exact ⟨hrun.1.nested, hrun.2.1, hrun.2.2.1, hrun.2.2.2, hways⟩

end ThemedCss.Style
