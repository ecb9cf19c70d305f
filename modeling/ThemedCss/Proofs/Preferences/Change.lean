import ThemedCss.Proofs.Preferences.Session

/-! What a change to preferences changes. -/
namespace ThemedCss.Preferences
open ThemedCss.Data ThemedCss.Text

theorem get_of_get? {p : Preferences} {keys : List Value} {found : Option Part}
    (h : p.graph.get? p.graph.root keys = .ok found) (default : Given) :
    p.get keys default = .ok ((found.map .live).getD default) := by
  rw [get, h]
  cases found <;> rfl

/-- Where the preferences are a mapping, to set something without a key is refused and changes
nothing. With keys it is found behind them, and so is all inside it: data of a caller as they were,
a part of the preferences as it is now, which is as before if it leads to no mapping on the way.
What is found along keys that part from them stays, as long as no mapping on the way stands in two
places. Then the same holds of the next change. -/
theorem set_keeps_other_paths {s : Session} (hwhole : s.preferences.graph.Whole)
    (hinit : s.preferences.initialized = true)
    (hroot : (Graph.entries? s.preferences.graph.cells s.preferences.graph.root).isSome) (v : Given)
    (save : Bool) :
    s.serve (.set [] v save) = (.error .noKey, s) ∧
      ∀ keys : List String, keys ≠ [] → s.preferences.graph.UnsharedAlong keys →
        let s' := (s.serve (.set (keys.map .text) v save)).2
        let g := s.preferences.graph
        let g' := s'.preferences.graph
        (save = false → (s.serve (.set (keys.map .text) v save)).1 = .ok (.new .null)) ∧
        (∀ path, ∃ found : Option Part,
          (∀ default, (s'.serve (.get ((keys ++ path).map .text) default)).1 =
            .ok ((found.map .live).getD default)) ∧
          (∀ a, v = .new a → found.map g'.value = a.walk? path) ∧
          ∀ x, v = .live x → g'.get? x (path.map .text) = .ok found ∧
            (x.Within g.cells.size → g.Beside keys x →
              g.get? x (path.map .text) = .ok found ∧ found.map g'.value = found.map g.value)) ∧
        (∀ path, ¬path <+: keys → ¬keys <+: path → ∃ found : Option Part,
          (∀ default, (s.serve (.get (path.map .text) default)).1 =
            .ok ((found.map .live).getD default) ∧
            (s'.serve (.get (path.map .text) default)).1 = .ok ((found.map .live).getD default)) ∧
          found.map g'.value = found.map g.value) ∧
        (v.Within g.cells.size → g'.Whole ∧ s'.preferences.initialized = true ∧
          (Graph.entries? g'.cells g'.root).isSome) := by
  have hcurrent := current_of_initialized s.workspace hinit
  constructor
  · simp only [Session.serve, hcurrent]
    rfl
  intro keys hkeys hunshared s' g g'
  obtain ⟨k, rest, rfl⟩ := List.exists_cons_of_ne_nil hkeys
  have hmapping : s.preferences.graph.WholeMapping := ⟨hwhole, hroot⟩
  obtain ⟨after, part, hset, hsame, hplaced, hfound, hkept, hbeside⟩ := hmapping.exists_set k rest v
  have hchange : s.preferences.set ((k :: rest).map .text) v = (⟨after, true⟩, none) := by
    rw [List.map_cons, set, hset, hinit]
    rfl
  have hafter : s'.preferences = ⟨after, true⟩ := by
    rw [Session.serve_preferences (Session.basis_of_initialized hinit _), Request.change, hchange]
  have hnext : s'.preferences.current s'.workspace = .ok ⟨after, true⟩ := by
    rw [hafter]
    exact current_of_initialized _ rfl
  have hg : g' = after := congrArg Preferences.graph hafter
  refine ⟨?_, ?_, ?_, ?_⟩
  · rintro rfl
    simp only [Session.serve, hcurrent, hchange]
    rfl
  · intro path
    obtain ⟨found, hpart⟩ := after.exists_get? part path
    have hget := (hfound hunshared.straightAlong path).trans hpart
    rw [hg]
    refine ⟨found, ?_, ?_, ?_⟩
    · intro default
      rw [Session.serve_get hnext]
      exact get_of_get? (p := ⟨after, true⟩) hget default
    · rintro a rfl
      obtain ⟨hwalk, hnone⟩ | ⟨u, q, hwalk, hsome, hq⟩ := Graph.SpellsAt.get? hplaced path
      · obtain rfl := Except.ok.inj (hnone.symm.trans hpart)
        exact hwalk.symm
      · obtain rfl := Except.ok.inj (hsome.symm.trans hpart)
        rw [hwalk, Option.map_some, hq.value]
    · rintro x rfl
      obtain rfl : part = x := hplaced
      refine ⟨hpart, fun hx haside => ?_⟩
      obtain ⟨found', hbefore, hnow, hvalue⟩ := hbeside part hx haside path
      obtain rfl := Except.ok.inj (hnow.symm.trans hpart)
      exact ⟨hbefore, hvalue⟩
  · intro path hpath hapart
    obtain ⟨found, hbefore, hnow, hvalue⟩ := hkept hunshared path hpath hapart
    rw [hg]
    refine ⟨found, ?_, hvalue⟩
    intro default
    rw [← hsame] at hnow
    rw [Session.serve_get hcurrent, Session.serve_get hnext]
    exact ⟨get_of_get? hbefore default, get_of_get? (p := ⟨after, true⟩) hnow default⟩
  · intro hv
    have hthen := Request.wholeMapping_change (r := .set ((k :: rest).map .text) v save) hmapping hv
    rw [Request.change, hchange] at hthen
    rw [hg, hafter]
    exact ⟨hthen.toWhole, rfl, hthen.mapping⟩

/-- A project that has a mapping in two places of its preferences, and another one in one place. -/
def sharingProject : Workspace :=
  ⟨⟨[([".flair"], .directory), ([".flair", "settings"], .directory),
    ([".flair", "settings", "preferences.yml"],
      .file (encode "a: &x \x7bk: u\x7d\nb: *x\nc: \x7bk: u\x7d\n"))], [], []⟩,
    ⟨true, []⟩, ⟨⟨true, []⟩, []⟩, none⟩

def sharingGraph : Graph :=
  ⟨#[.map [(.plain (.text "a"), .cell 1), (.plain (.text "b"), .cell 1),
    (.plain (.text "c"), .cell 2)],
    .map [(.plain (.text "k"), .plain (.text "u"))],
    .map [(.plain (.text "k"), .plain (.text "u"))]], .cell 0⟩

def isSharingGraph : Graph → Bool
  | ⟨⟨[.map [(.plain (.text a), .cell 1), (.plain (.text b), .cell 1), (.plain (.text c), .cell 2)],
      .map [(.plain (.text k), .plain (.text u))],
      .map [(.plain (.text l), .plain (.text v))]]⟩, .cell 0⟩ =>
    [a, b, c, k, u, l, v] == ["a", "b", "c", "k", "u", "k", "u"]
  | _ => false

private theorem eq_sharingGraph {g : Graph} (h : isSharingGraph g = true) : g = sharingGraph := by
  unfold isSharingGraph at h
  split at h
  · simp only [beq_iff_eq, List.cons.injEq] at h
    obtain ⟨rfl, rfl, rfl, rfl, rfl, rfl, rfl, -⟩ := h
    rfl
  · cases h

theorem load_sharingProject : load sharingProject = .ok ⟨sharingGraph, true⟩ := by
  have hread : (readFile sharingProject).toOption.any isSharingGraph = true := by decide +kernel
  cases hg : readFile sharingProject with
  | error f => simp [hg, Except.toOption] at hread
  | ok g =>
    rw [hg] at hread
    obtain rfl := eq_sharingGraph hread
    simp only [load, hg, bind, Except.bind]
    rfl

/-- From the root there is one way to each mapping but the shared one. -/
theorem route_sharingGraph {route : List Nat} {q : Nat}
    (h : Graph.Route sharingGraph.cells (.cell 0) route (.cell q)) (hq : q ≠ 1) :
    route = if q = 2 then [5] else [] := by
  have inner {p : Nat} {route : List Nat} (hp : p = 1 ∨ p = 2)
      (h : Graph.Route sharingGraph.cells (.cell p) route (.cell q)) : route = [] ∧ q = p := by
    cases h with
    | here => exact ⟨rfl, rfl⟩
    | @into _ i c next _ rest hcell hnext hrest =>
      obtain rfl : c = .map [(.plain (.text "k"), .plain (.text "u"))] := by
        rcases hp with rfl | rfl <;> exact (Option.some.inj hcell).symm
      rcases i with _ | _ | i <;> cases hnext <;> cases hrest
  cases h with
  | here => rfl
  | @into _ i c next _ rest hcell hnext hrest =>
    obtain rfl := Option.some.inj hcell
    rcases i with _ | _ | _ | _ | _ | _ | i <;> cases hnext
    · cases hrest
    · cases hrest
    · cases hrest
    · exact absurd (inner (.inl rfl) hrest).2 hq
    · exact absurd (inner (.inl rfl) hrest).2 hq
    · obtain ⟨rfl, rfl⟩ := inner (.inr rfl) hrest
      rfl

theorem unsharedAlong_sharingGraph : sharingGraph.UnsharedAlong ["c", "k", "m"] := by
  intro done left part hsplit hleft hget hmap
  have one (q : Nat) (hq : q ≠ 1) :
      Graph.OneRoute sharingGraph.cells sharingGraph.root (.cell q) := by
    intro route route' hroute hroute'
    rw [route_sharingGraph hroute hq, route_sharingGraph hroute' hq]
  match done with
  | [] =>
    cases hget
    exact one 0 (by decide)
  | [k] =>
    cases hsplit
    cases hget
    exact one 2 (by decide)
  | [k, l] =>
    cases hsplit
    cases hget
    cases hmap
  | k :: l :: m :: more =>
    cases more with
    | nil =>
      cases hsplit
      exact absurd rfl hleft
    | cons x more => cases hsplit

theorem set_keeps_other_paths_sharing :
    let s : Session := ⟨sharingProject, ⟨sharingGraph, true⟩⟩
    let s' := (s.serve (.set [.text "c", .text "k", .text "m"] (.live (.cell 1)) false)).2
    sharingGraph.Whole ∧ sharingGraph.UnsharedAlong ["c", "k", "m"] ∧
      (s'.serve (.get [.text "c", .text "k", .text "m"] (.new .null))).1 = .ok (.live (.cell 1)) ∧
      (s'.serve (.get [.text "b", .text "k"] (.new .null))).1 =
        .ok (.live (.plain (.text "u"))) := by
  have hwhole : sharingGraph.Whole := whole_load load_sharingProject
  obtain ⟨-, hset⟩ :=
    set_keeps_other_paths (s := ⟨sharingProject, ⟨sharingGraph, true⟩⟩) hwhole rfl rfl
      (.live (.cell 1)) false
  obtain ⟨-, hfound, hkept, -⟩ := hset ["c", "k", "m"] (by simp) unsharedAlong_sharingGraph
  refine ⟨hwhole, unsharedAlong_sharingGraph, ?_, ?_⟩
  · obtain ⟨found, hget, -, hlive⟩ := hfound []
    obtain rfl := Except.ok.inj (hlive (.cell 1) rfl).1
    exact hget (.new .null)
  · obtain ⟨found, hget, -⟩ := hkept ["b", "k"] (by decide) (by decide)
    obtain ⟨hbefore, hafter⟩ := hget (.new .null)
    exact hafter.trans hbefore.symm

/-- What is set in a mapping is seen wherever the mapping stands, by the file or by an earlier
change. -/
theorem set_seen_where_shared :
    let s : Session := ⟨sharingProject, ⟨sharingGraph, true⟩⟩
    let s' := (s.serve (.set [.text "a", .text "k"] (.new (.text "w")) false)).2
    let shared := (s.serve (.set [.text "d"] (.live (.cell 2)) false)).2
    let shared' := (shared.serve (.set [.text "c", .text "k"] (.new (.text "w")) false)).2
    load sharingProject = .ok s.preferences ∧
      ¬["b", "k"] <+: ["a", "k"] ∧ ¬["a", "k"] <+: ["b", "k"] ∧
      (s.serve (.get [.text "b", .text "k"] (.new .null))).1 = .ok (.live (.plain (.text "u"))) ∧
      (s'.serve (.get [.text "b", .text "k"] (.new .null))).1 = .ok (.live (.plain (.text "w"))) ∧
      (s.serve (.get [.text "c"] (.new .null))).1 = .ok (.live (.cell 2)) ∧
      (shared.serve (.get [.text "d", .text "k"] (.new .null))).1 =
        .ok (.live (.plain (.text "u"))) ∧
      (shared'.serve (.get [.text "d", .text "k"] (.new .null))).1 =
        .ok (.live (.plain (.text "w"))) :=
  ⟨load_sharingProject, by decide, by decide, rfl, rfl, rfl, rfl, rfl⟩

end ThemedCss.Preferences
