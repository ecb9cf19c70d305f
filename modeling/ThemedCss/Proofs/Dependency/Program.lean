import ThemedCss.Proofs.Dependency.Rules

/-! A loaded program holds every module that specifiers can lead to, with its links. -/
namespace ThemedCss.Dependency
open ThemedCss.Syntax ThemedCss.Scope ThemedCss.Style

/-- All that is asked of the modules of a program is answered as the rules say. -/
structure Program.Loaded (program : Program) (g : Ground) : Prop where
  nodup : (Table.keys program).Nodup
  module : ∀ p ∈ Table.keys program, program.module? p = g.module? p
  main : g.path ∈ Table.keys program ∧ g.module? g.path = some g.main
  link : ∀ {p m source}, p ∈ Table.keys program → g.module? p = some m → source ∈ m.sources →
    Module.isRelative source → m.links.get? source = some (g.link p source)
  target : ∀ {p m source q}, p ∈ Table.keys program → g.module? p = some m → source ∈ m.sources →
    Module.isRelative source → g.link p source = .found q → q ∈ Table.keys program

namespace Module

theorem mem_sources_of_imported {m : Module} {n source name : String}
    (h : m.bindings.get? n = some (.imported source name)) : source ∈ m.sources := by
  have := Table.mem_of_get? h
  simp only [sources, List.mem_eraseDups, List.mem_append, List.mem_filterMap]
  exact .inl (.inl ⟨_, this, rfl⟩)

theorem mem_sources_of_namespaceOf {m : Module} {n source : String}
    (h : m.bindings.get? n = some (.namespaceOf source)) : source ∈ m.sources := by
  have := Table.mem_of_get? h
  simp only [sources, List.mem_eraseDups, List.mem_append, List.mem_filterMap]
  exact .inl (.inl ⟨_, this, rfl⟩)

theorem mem_sources_of_reexported {m : Module} {n source name : String}
    (h : m.exports.get? n = some (.reexported source name)) : source ∈ m.sources := by
  have := Table.mem_of_get? h
  simp only [sources, List.mem_eraseDups, List.mem_append, List.mem_filterMap]
  exact .inl (.inr ⟨_, this, rfl⟩)

theorem mem_sources_of_mem_stars {m : Module} {source : String} (h : source ∈ m.stars) :
    source ∈ m.sources := by
  simp only [sources, List.mem_eraseDups, List.mem_append]
  exact .inr h

/-- Each relative specifier of a module has the link that looking it up gives. -/
theorem get?_links_ofTree {files : FileTree} {p : Path} {root : Node} {source : String}
    (hs : source ∈ (ofTree files p root).sources) (hr : isRelative source) :
    (ofTree files p root).links.get? source = some (Link.resolve files p source) := by
  have hm : source ∈ (root.named.foldl addStatement empty).sources.filter fun s =>
      isRelative s := by
    simp only [List.mem_filter]
    exact ⟨hs, hr⟩
  simp only [ofTree, Table.get?_map_pair]
  simp [hm]

end Module

namespace Link

def places (files : FileTree) : Finset Path :=
  (files.entries.map fun e => ⟨true, e.1⟩).toFinset

private theorem card_places_le (files : FileTree) : (places files).card ≤ files.size :=
  (List.toFinset_card_le _).trans (by simp [FileTree.size])

private theorem mem_places_of_file? {files : FileTree} {p q : Path}
    (h : files.file? p = .ok (some q)) : q ∈ places files := by
  simp only [FileTree.file?] at h
  split at h
  next parts _ =>
    split at h
    next content he =>
      obtain rfl : (⟨true, parts⟩ : Path) = q := Option.some.inj (Except.ok.inj h)
      have hne : parts.isEmpty = false := by
        by_contra hne
        simp only [Bool.not_eq_false] at hne
        simp [FileTree.entry?, hne] at he
      simp only [FileTree.entry?, hne, Bool.false_eq_true, if_false] at he
      obtain ⟨l₁, l₂, hl, -⟩ := List.lookup_eq_some_iff.mp he
      simp [places, hl]
    next => simp at h
  all_goals simp at h

private theorem mem_places_of_search {files : FileTree} {candidates : List Path} {q : Path}
    (h : search files candidates = .found q) : q ∈ places files := by
  induction candidates with
  | nil => simp [search] at h
  | cons p rest ih =>
    simp only [search] at h
    split at h
    next place hp =>
      obtain rfl := Link.found.inj h
      exact mem_places_of_file? hp
    next => exact ih h
    next => simp at h

private theorem mem_places_of_resolve {files : FileTree} {p q : Path} {source : String}
    (h : resolve files p source = .found q) : q ∈ places files := by
  unfold resolve at h
  dsimp only at h
  split at h
  · cases h
  · split_ifs at h
    exact mem_places_of_search h

end Link

namespace Program

theorem mem_targets {m : Module} {q : Path} :
    q ∈ targets m ↔ ∃ source, (source, Link.found q) ∈ m.links := by
  simp only [targets, List.mem_filterMap, Prod.exists]
  constructor
  · rintro ⟨source, link, hl, h⟩
    split at h
    next heq =>
      obtain rfl := Option.some.inj h
      obtain ⟨rfl, rfl⟩ := Prod.mk.inj heq
      exact ⟨_, hl⟩
    next => simp at h
  · rintro ⟨source, hl⟩
    exact ⟨source, .found q, hl, rfl⟩

theorem targets_ofTree_subset (files : FileTree) (p : Path) (root : Node) :
    ∀ q ∈ targets (Module.ofTree files p root), q ∈ Link.places files := by
  intro q hq
  obtain ⟨source, hl⟩ := mem_targets.mp hq
  obtain ⟨s, -, hs⟩ := List.mem_map.mp hl
  obtain ⟨rfl, hq⟩ := Prod.mk.inj hs
  exact Link.mem_places_of_resolve hq

/-- A module that can be read is made from its tree. -/
theorem exists_ofTree_of_readModule {files : FileTree} {p : Path} {m : Module}
    (h : readModule files p = some m) : ∃ root, m = .ofTree files p root := by
  simp only [readModule, Option.bind_eq_bind, Option.bind_eq_some_iff, Option.pure_def,
    Option.some.injEq] at h
  obtain ⟨_, _, _, _, _, _, h⟩ := h
  exact ⟨_, h.symm⟩

private theorem linked_readModule_subset (files : FileTree) (p : Path) :
    ∀ q ∈ linked (readModule files p), q ∈ Link.places files := by
  intro q hq
  cases hm : readModule files p with
  | none => simp [linked, hm] at hq
  | some m =>
    obtain ⟨root, rfl⟩ := exists_ofTree_of_readModule hm
    exact targets_ofTree_subset files p root q (by simpa [linked, hm] using hq)

/-- Loading leaves nothing out: there are no more rounds than files, and each round adds a file. -/
theorem loaded_ofTree (files : FileTree) (settings : Settings) (allows : List String → Bool)
    (path : Path) (root : Node) :
    (ofTree files path root).Loaded (.ofTree files settings allows path root) := by
  set main := Module.ofTree files path root with hmain
  set program := ofTree files path root with hprogram
  have hdef : program = Table.grow (readModule files) linked (files.size + 1) (targets main)
      [(path, some main)] := rfl
  have hpath : path ∈ Table.keys program := by
    rw [hdef]
    exact Table.keys_subset_grow _ _ _ _ _ (by simp [Table.keys])
  have hget : ∀ p ∈ Table.keys program, program.module? p = if p = path then some main
      else readModule files p := by
    intro p hp
    rw [hdef] at hp
    rw [module?, hdef, Table.get?_grow _ _ _ _ _ hp]
    by_cases h : p = path
    · simp [Table.get?, h]
    · simp [Table.get?, h, Ne.symm h]
  obtain ⟨hfirst, hclosed⟩ := Table.grow_closed (readModule files) linked (Link.places files)
    (fun p _ => linked_readModule_subset files p) (files.size + 1) (targets main)
      [(path, some main)]
    (targets_ofTree_subset files path root)
    (Nat.lt_succ_of_le
      ((Finset.card_le_card Finset.sdiff_subset).trans (Link.card_places_le files)))
  rw [← hdef] at hfirst hclosed
  -- both kinds of modules are made from a tree, and what they link to is in the table
  have hmodule : ∀ {p m}, p ∈ Table.keys program →
      (Ground.ofTree files settings allows path root).module? p = some m →
      (∃ tree, m = .ofTree files p tree) ∧ ∀ q ∈ targets m, q ∈ Table.keys program := by
    intro p m hp hm
    by_cases h : p = path
    · obtain rfl : main = m := by simpa [Ground.ofTree, h] using hm
      exact ⟨⟨root, by rw [h]⟩, hfirst⟩
    · have hr : readModule files p = some m := by simpa [Ground.ofTree, h] using hm
      refine ⟨exists_ofTree_of_readModule hr, fun q hq => ?_⟩
      exact hclosed p hp (by simp [Table.keys, h]) q (by simpa [linked, hr] using hq)
  have hlink : ∀ {p m source}, p ∈ Table.keys program →
      (Ground.ofTree files settings allows path root).module? p = some m → source ∈ m.sources →
      Module.isRelative source → m.links.get? source = some (Link.resolve files p source) := by
    intro p m source hp hm hs hrel
    obtain ⟨⟨tree, rfl⟩, -⟩ := hmodule hp hm
    exact Module.get?_links_ofTree hs hrel
  have hnodup : (Table.keys program).Nodup := Table.nodup_keys_grow _ _ _ _ (by simp [Table.keys])
  refine ⟨hnodup, hget, ⟨hpath, by simp [Ground.ofTree]⟩, hlink, ?_⟩
  intro p m source q hp hm hs hrel hq
  refine (hmodule hp hm).2 q (mem_targets.mpr ⟨source, Table.mem_of_get? ?_⟩)
  rw [hlink hp hm hs hrel]
  exact congrArg some hq

end Program
end ThemedCss.Dependency
