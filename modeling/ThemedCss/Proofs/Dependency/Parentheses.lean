import ThemedCss.Proofs.Dependency.Simulation
import ThemedCss.Proofs.Dependency.Trust
import ThemedCss.Proofs.Dependency.Written
import ThemedCss.Theme.Environment

/-! Parentheses in interpolations: which of them may be added so that no dynamic value becomes
static. -/
namespace ThemedCss.Style
open ThemedCss.Syntax

/-- The difference of modules whose interpolations hold the same expressions up to parentheses
around operands. -/
def enclosedHoles (settings : Settings) (checks : List ChainCheck) (move : Nat → Nat) :
    Difference where
  move := move
  opens := isFactoryCall [settings.factory, runtimeFactory]
  free n m := m.kind == n.kind && n.named.length == 1 && n.children.all (·.role == .plain) &&
    Node.enclosedAll checks .substitution (fun _ => []) n.children m.children

variable {settings : Settings} {checks : List ChainCheck} {move : Nat → Nat} {n m : Node}

theorem enclosedHoles_free (h : (enclosedHoles settings checks move).free n m = true) :
    m.kind = n.kind ∧ n.named.length = 1 ∧ (∀ c ∈ n.children, c.role = .plain) ∧
      List.Forall₂ (fun c d => Node.enclosed checks .substitution c.role [] c d = true) n.children
        m.children := by
  simpa [enclosedHoles, Node.enclosedAll_iff, and_assoc] using h

theorem enclosedHoles_fair (settings : Settings) (checks : List ChainCheck) (move : Nat → Nat) :
    (enclosedHoles settings checks move).Fair where
  named n m h := by
    obtain ⟨-, hone, -, hall⟩ := enclosedHoles_free h
    have hnamed := List.rel_filter (p := (·.kind.isNamed)) (q := (·.kind.isNamed))
      (fun c d hcd => by simp [Node.isNamed_enclosed hcd]) hall
    exact ⟨hone, hnamed.length_eq ▸ hone⟩
  plain n m h := by
    obtain ⟨-, -, hplain, hall⟩ := enclosedHoles_free h
    refine ⟨hplain, fun d hd => ?_⟩
    obtain ⟨c, hc, hcd⟩ := exists_of_mem_right hall hd
    rw [(Node.enclosed_iff.mp hcd).1, hplain c hc]
  fault n m h := by
    obtain ⟨hkind, -, -, hall⟩ := enclosedHoles_free h
    rw [Node.hasError_eq n, Node.hasError_eq m, hkind,
      Node.forall₂_any hall fun c d hcd => (Node.hasError_enclosed hcd).symm]

/-- Alike nodes differ by parentheses around operands only. -/
theorem enclosed_of_alike (h : n.Alike (enclosedHoles settings checks move) m) (parent : Kind)
    (tail : List String) : Node.enclosed checks parent n.role tail n m = true := by
  induction hsize : sizeOf n using Nat.strongRecOn generalizing n m parent tail with
  | ind size ih =>
  subst hsize
  refine Node.enclosed_iff.mpr ⟨h.role, .inl ⟨h.kind, h.text, ?_⟩⟩
  rcases h.children_or_free with hall | ⟨hsubstitution, -, hfree⟩
  · exact Node.forall₂_imp_mem hall fun c hc d _ hcd =>
      ih _ (Node.sizeOf_lt_of_mem_children hc) hcd n.kind _ rfl
  · have hnothing : ∀ c, n.tailBelow tail c = [] := Node.tailBelow_eq_nil (by simp [hsubstitution])
    simp only [hnothing, hsubstitution]
    exact (enclosedHoles_free hfree).2.2.2

/-- A call of the marker that holds parentheses was one without them. -/
theorem isWrapped_of_enclosed {parent : Kind} {role : Role} {tail : List String} {marker : String}
    (h : Node.enclosed checks parent role tail n m = true) (hm : isWrapped marker m = true) :
    isWrapped marker n = true := by
  obtain ⟨-, hparallel | ⟨c, hwrapped⟩⟩ := Node.enclosed_iff.mp h
  · unfold isWrapped at hm ⊢
    rw [hparallel.kind] at hm
    rcases hparallel.child? .callee with ⟨-, hd⟩ | ⟨c, d, hc, hd, hcd⟩
    · simp [hd] at hm
    · rcases hparallel.child? .arguments with ⟨-, hb⟩ | ⟨a, b, ha, hb, hab⟩
      · simp [hd, hb] at hm
      · have harguments := Node.parallel_of_not_operand hab (Bool.and_false _)
        simp only [hd, hb, Bool.and_eq_true, beq_iff_eq, harguments.kind,
          ← harguments.named.length_eq] at hm
        obtain ⟨hcall, ⟨⟨hidentifier, htext⟩, hlist⟩, hone⟩ := hm
        -- a name in parentheses is no name, so this one had none around it
        obtain ⟨-, hcallee | ⟨e, hcallee⟩⟩ := Node.enclosed_iff.mp hcd
        · rw [hcallee.kind] at hidentifier
          rw [hcallee.text] at htext
          simp [hc, ha, hcall, hidentifier, htext, hlist, hone]
        · rw [hcallee.kind] at hidentifier
          cases hidentifier
  · simp [isWrapped, hwrapped.kind] at hm

/-- The expressions of corresponding interpolations differ by parentheses. -/
theorem enclosed_of_interpolation {i j : Interpolation}
    (h : i.Alike (enclosedHoles settings checks move) j) :
    Node.enclosed checks .substitution i.node.role [] i.node j.node = true := by
  obtain ⟨n, m, hnm, hkind, hn, hm⟩ := h.holes
  have hhole : Node.Parallel checks [] n m :=
    Node.parallel_of_not_expression (enclosed_of_alike hnm .template []) (by rw [hkind]; rfl)
  have hnamed := hhole.named
  rw [hn, hm] at hnamed
  cases hnamed with
  | cons hexpr _ =>
    rwa [hkind, Node.tailBelow_eq_nil (by simp [hkind])] at hexpr

def Interpolation.settled (i : Interpolation) : Bool :=
  i.wrapped || i.placeholder.isSome

/-- The calls have the same blocks, and interpolations in the same place are related. -/
def EachInterpolation {ι : Type} (P : ι → ι → Prop) (calls calls' : List (Call ι)) : Prop :=
  List.Forall₂ (fun a b => List.Forall₂
    (fun x y => y.name = x.name ∧ List.Forall₂ P x.interpolations y.interpolations)
    a.blocks b.blocks) calls calls'

instance {ι : Type} {P : ι → ι → Prop} [∀ i j, Decidable (P i j)] (calls calls' : List (Call ι)) :
    Decidable (EachInterpolation P calls calls') :=
  inferInstanceAs (Decidable (List.Forall₂ _ calls calls'))

end ThemedCss.Style

namespace ThemedCss.Dependency
open ThemedCss.Syntax ThemedCss.Scope ThemedCss.Style ThemedCss.Text

variable {settings : Settings} {checks : List ChainCheck} {move : Nat → Nat} {n m : Node}

theorem cutNodes_of_alike (h : n.Alike (enclosedHoles settings checks move) m) :
    CutNodes checks n m :=
  (Node.readAlike_of_enclosed (enclosed_of_alike h .program [])).reads (.inl rfl) []

section Ground

variable {root root' : Node} (files : FileTree) (allows : List String → Bool) (path : Path)
  (h : Node.alike (enclosedHoles settings checks move) false root root' = true)
include h

theorem ofTree_related :
    (Module.ofTree files path root).Related (CutNodes checks) (Module.ofTree files path root') ∧
    (Module.ofTree files path root').reassigned = (Module.ofTree files path root).reassigned := by
  constructor
  · refine (Module.ofTree_alike (enclosedHoles_fair settings checks move) files path ?_).imp
      fun n m => cutNodes_of_alike
    exact Node.Alike.children_of_outside h
  · exact Node.flatMap_reassignedNames_enclosed
      (enclosed_of_alike (Node.Alike.of_alike h) .program [])

theorem ground_cut :
    (Ground.ofTree files settings allows path root).Cut checks
      (.ofTree files settings allows path root') := by
  have hmain := ofTree_related files path h
  refine ⟨fun p => ?_, rfl, rfl, rfl, rfl, rfl, hmain.1, hmain.2⟩
  show Option.Rel _ (if p = path then _ else _) (if p = path then _ else _)
  split_ifs
  · exact .some hmain
  · cases Program.readModule files p with
    | none => exact .none
    | some m => exact .some ⟨.refl CutNodes.refl m, rfl⟩

end Ground

theorem cutNodes_of_interpolation {i j : Interpolation}
    (h : i.Alike (enclosedHoles settings checks move) j) : CutNodes checks i.node j.node :=
  (Node.readAlike_of_enclosed (enclosed_of_interpolation h)).reads (.inl rfl) []

theorem scope_of_alike {call call' : Call Interpolation}
    (h : call.Alike (enclosedHoles settings checks move) call') :
    (StyleScope.ofCall call).Related (CutNodes checks) (.ofCall call') := by
  refine (StyleScope.ofCall_alike (enclosedHoles_fair settings checks move) h fun n m hnm => ?_).imp
    fun n m => cutNodes_of_alike
  exact Node.flatMap_varNames_enclosed (enclosed_of_alike hnm .program [])

section Calls

variable {root root' : Node} {calls calls' : List (Call Interpolation)} (files : FileTree)
  (allows : List String → Bool)
  (path : Path)

theorem cuts_of_alike (hchecks : checks = chainChecks allows (calls.map (·.parameters)))
    (hroot : Node.alike (enclosedHoles settings checks move) false root root' = true)
    (hcalls : List.Forall₂ (Call.Alike (enclosedHoles settings checks move)) calls calls') :
    Cuts checks (.ofTree files settings allows path root) (scopesOf calls)
      (.ofTree files settings allows path root')
      (scopesOf calls') where
  ground := ground_cut files allows path hroot
  styles := List.rel_map (fun a b hab => scope_of_alike hab) hcalls
  pure := by
    rw [hchecks]
    exact List.mem_cons_self
  allowed s hs := by
    obtain ⟨call, hcall, rfl⟩ := List.mem_map.mp hs
    rw [hchecks]
    exact List.mem_cons_of_mem _ (List.mem_map_of_mem (List.mem_map_of_mem hcall))

/-- What interpolations ask for comes from what they asked for without the parentheses, if the
settled ones still are. -/
theorem asked_of_alike {g g' : Ground} (hcuts : Cuts checks g (scopesOf calls) g' (scopesOf calls'))
    (hcalls : List.Forall₂ (Call.Alike (enclosedHoles settings checks move)) calls calls')
    (hsettled : EachInterpolation (fun i j => i.settled → j.settled) calls calls') {q' : Question}
    (hq : Asked calls' q') :
    ∃ q, Asked calls q ∧ q.Cut checks g.allows q' := by
  obtain ⟨call', hcall', j, hj, hq⟩ := hq
  obtain ⟨block', hblock', hj⟩ := List.mem_flatMap.mp hj
  obtain ⟨call, hcall, halike, hblocks⟩ :=
    exists_of_mem_right (hcalls.mp (fun _ _ => And.intro) hsettled) hcall'
  obtain ⟨block, hblock, hinner, -, hkept⟩ :=
    exists_of_mem_right (halike.blocks.mp (fun _ _ => And.intro) hblocks) hblock'
  obtain ⟨i, hi, hij, hkept⟩ :=
    exists_of_mem_right (hinner.interpolations.mp (fun _ _ => And.intro) hkept) hj
  unfold questionsOf at hq
  split_ifs at hq with hsettled'
  · cases hq
  · obtain ⟨read', hread', rfl⟩ := List.mem_map.mp hq
    obtain ⟨read, hread, hcut⟩ := exists_of_mem_right (cutNodes_of_interpolation hij) hread'
    refine ⟨.inStyle (.ofCall call) read,
      ⟨call, hcall, i, List.mem_flatMap.mpr ⟨block, hblock, hi⟩, ?_⟩, ?_⟩
    · have hopen : ¬(i.wrapped || i.placeholder.isSome) = true := fun h => hsettled' (hkept h)
      rw [questionsOf, if_neg hopen]
      exact List.mem_map_of_mem hread
    · exact .inStyle (scope_of_alike halike) (hcuts.allowed _ (List.mem_map_of_mem hcall)) hcut

end Calls

/-- A dynamic interpolation stays so, unless it was a placeholder and is none any more. -/
def StaysDynamic (i j : Labelled) : Prop :=
  (i.placeholder.isSome → j.placeholder.isSome) → i.label = .dynamic → j.label = .dynamic

/-- Parentheses around operands in interpolations make nothing static that was dynamic, if they cut
a chain only where all checks that the rest of it passes are passed by the whole chain. If what an
earlier pass has settled still is, the module can be classified as before. -/
theorem parentheses_keep_dynamic (files : FileTree) (settings : Settings)
    (allows : List String → Bool) (path : Path) (filename : String) (source source' : Bytes)
    (root root' : Node) (move : Nat → Nat) (r : Classification) :
    let calls := (scan settings source root filename).calls
    let calls' := (scan settings source' root' filename).calls
    Node.alike (enclosedHoles settings (chainChecks allows (calls.map (·.parameters))) move) false
      root root' = true →
    classify files settings allows path root calls = .ok r →
    (EachInterpolation (fun i j => i.settled → j.settled) calls calls' →
      ∃ r', classify files settings allows path root' calls' = .ok r') ∧
    ∀ r', classify files settings allows path root' calls' = .ok r' →
      EachInterpolation StaysDynamic r.calls r'.calls := by
  intro calls calls' hroot hr
  have hcalls : List.Forall₂ (Call.Alike _) calls calls' :=
    scan_alike (enclosedHoles_fair settings _ move) rfl hroot
  have hcuts := cuts_of_alike files allows path rfl hroot hcalls
  have hsites : (calls.map (·.callSite)).Nodup :=
    (readSites_callSite settings source filename _ 0 0 _).1
  have hsites' : (calls'.map (·.callSite)).Nodup :=
    (readSites_callSite settings source' filename _ 0 0 _).1
  constructor
  · intro hsettled
    have hanswerable := hcuts.answerable (fun q' => asked_of_alike hcuts hcalls hsettled)
      (answerable_of_classify hsites hr)
    have hfaultless :=
      (faultless_iff_answerable (Context.holds_ofTree files settings allows path root')
        (nodup_scopesOf hsites')).mpr hanswerable
    obtain ⟨-, modules, hok⟩ | ⟨hnot, -⟩ := classify_eq files settings allows path root' calls' rfl
    · exact ⟨_, hok⟩
    · exact absurd hfaultless hnot
  · intro r' hr'
    obtain ⟨hf, -, -, hlabelled⟩ := faultless_of_classify hr rfl
    obtain ⟨hf', -, -, hlabelled'⟩ := faultless_of_classify hr' rfl
    rw [map_labelCall (Context.holds_ofTree files settings allows path root) (nodup_scopesOf hsites)
      hf] at hlabelled
    rw [map_labelCall (Context.holds_ofTree files settings allows path root')
      (nodup_scopesOf hsites') hf']
      at hlabelled'
    rw [hlabelled, hlabelled', EachInterpolation, List.forall₂_map_left_iff,
      List.forall₂_map_right_iff]
    refine Node.forall₂_imp_mem hcalls fun a ha b _ hab => ?_
    show List.Forall₂ _ (a.blocks.map _) (b.blocks.map _)
    rw [List.forall₂_map_left_iff, List.forall₂_map_right_iff]
    refine hab.blocks.imp fun x y hxy => ⟨hxy.name, ?_⟩
    show List.Forall₂ _ (x.interpolations.map _) (y.interpolations.map _)
    rw [List.forall₂_map_left_iff, List.forall₂_map_right_iff]
    refine hxy.interpolations.imp fun i j hij hplaceholder hi => ?_
    have hwrapped : j.wrapped → i.wrapped := by
      obtain ⟨marker, hi, hj⟩ := hij.marker
      rw [hi, hj]
      exact isWrapped_of_enclosed (enclosed_of_interpolation hij)
    exact hcuts.label (scope_of_alike hab) (hcuts.allowed _ (List.mem_map_of_mem ha))
      (cutNodes_of_interpolation hij)
      hwrapped hplaceholder hi

/-- A module with a variable and a style definition with these expressions. -/
def interpolating (exprs : List String) : String :=
  "let a=1;f((\x7bcss,theme\x7d)=>(\x7br:css\x60" ++
    String.join (exprs.map fun e => "$\x7b" ++ e ++ "\x7d") ++ "\x60\x7d))"

def smallTheme : Theme.Environment :=
  ⟨⟨true, ["t.yaml"]⟩, [], [["a"], ["a", "b"]], [["a", "b"]]⟩

/-- A chain that the theme has may be cut, and so may one of a name that it knows nothing about. -/
theorem parentheses_keep_dynamic_chains :
    let settings : Settings := { Settings.ofTheme "t" with factory := "f" }
    let source := interpolating ["theme.a.b", "theme.c+x.y"]
    let source' := interpolating ["(theme.a).b", "((theme.c)+(x).y)"]
    let root := parse .script source.toList
    let root' := parse .script source'.toList
    let path : Path := ⟨true, ["a.js"]⟩
    let calls := (scan settings (encode source) root "a.js").calls
    let calls' := (scan settings (encode source') root' "a.js").calls
    let move := fun p => if p < 45 then p else if p < 59 then p + 2 else p + 8
    let checks := chainChecks smallTheme.allows (calls.map (·.parameters))
    Node.alike (enclosedHoles settings checks move) false root root' = true ∧
      EachInterpolation (fun i j => i.settled → j.settled) calls calls' ∧
      ∃ r r', classify .empty settings smallTheme.allows path root calls = .ok r ∧
        classify .empty settings smallTheme.allows path root' calls' = .ok r' ∧
        labelsOf r.calls = [.static, .dynamic] ∧
        EachInterpolation StaysDynamic r.calls r'.calls := by
  intro settings source source' root root' path calls calls' move checks
  obtain ⟨halike, hsettled, hrun⟩ :
      Node.alike (enclosedHoles settings checks move) false root root' = true ∧
      EachInterpolation (fun i j => i.settled → j.settled) calls calls' ∧
      (classify .empty settings smallTheme.allows path root calls).toOption.map (labelsOf ·.calls) =
        some [.static, .dynamic] := by
    decide +kernel
  obtain ⟨r, hr, hlabels⟩ := Option.map_eq_some_iff.mp hrun
  have hok := eq_ok_of_toOption hr
  obtain ⟨hexists, hkept⟩ :=
    parentheses_keep_dynamic .empty settings smallTheme.allows path "a.js" (encode source)
      (encode source') root root' move r halike hok
  obtain ⟨r', hr'⟩ := hexists hsettled
  exact ⟨halike, hsettled, r, r', hok, hr', hlabels, hkept r' hr'⟩

/-- Expressions with a part in the middle that can stand in parentheses: the object of an access to
what the theme or a known global lacks, a placeholder, and what a loop gives values to. -/
def harmfulParentheses : List (String × String × String) :=
  [("", "theme", ".c"), ("", "Number", ".x"), ("", "'var(--a)'", ""),
    ("()=>\x7bfor(", "a", " of[1]);\x7d")]

/-- Such parentheses make dynamic interpolations static. -/
theorem parentheses_make_static :
    let settings : Settings := { Settings.ofTheme "t" with factory := "f" }
    let labels := fun source : String =>
      let root := parse .script source.toList
      (classify .empty settings smallTheme.allows ⟨true, ["a.js"]⟩ root
        (scan settings (encode source) root "a.js").calls).toOption.map (labelsOf ·.calls)
    harmfulParentheses.Forall fun e =>
      labels (interpolating [e.1 ++ e.2.1 ++ e.2.2]) = some [.dynamic] ∧
        labels (interpolating [e.1 ++ "(" ++ e.2.1 ++ ")" ++ e.2.2]) = some [.static] := by
  intro settings labels
  rw [List.forall_iff_forall_mem]
  decide +kernel

end ThemedCss.Dependency
