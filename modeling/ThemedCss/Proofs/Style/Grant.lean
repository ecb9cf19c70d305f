import Mathlib.Data.List.Flatten
import Mathlib.Data.List.Forall2
import Mathlib.Data.List.Nodup
import Mathlib.Tactic.SplitIfs
import ThemedCss.Proofs.Style.Scan
import ThemedCss.Proofs.Style.Token
import ThemedCss.Proofs.Table
import ThemedCss.Syntax.Parser

/-! Giving out tokens fails only if a kept token is used twice, and does not depend on the order of
definitions. -/
namespace ThemedCss.Style
open ThemedCss.Syntax ThemedCss.Text

variable {file : String}

structure Place where
  sequence : Int
  callSite : Int
  block : String
  slot : Slot
deriving DecidableEq, Repr

namespace Place

def token (file : String) (p : Place) : Token :=
  ⟨file, p.sequence, p.callSite, p.block, p.slot.index⟩

def text (file : String) (p : Place) : String :=
  p.slot.kept?.getD (p.token file).render

/-- The new token of a place: dynamic ones without a kept token get one. -/
def given (file : String) (p : Place) : Option String :=
  if p.slot.label = .dynamic ∧ p.slot.kept? = none then some (p.token file).render else none

end Place

def Outline.placesIn (o : Outline) (b : String × List Slot) : List Place :=
  b.2.map fun s => ⟨o.sequence, o.callSite, b.1, s⟩

def Outline.places (o : Outline) : List Place :=
  o.blocks.flatMap o.placesIn

def names (file : String) (ps : List Place) : List String :=
  (ps.filter (·.slot.label = .dynamic)).map (Place.text file)

theorem names_append (ps qs : List Place) :
    names file (ps ++ qs) = names file ps ++ names file qs := by
  simp [names]

theorem names_flatMap {α : Type} (l : List α) (f : α → List Place) :
    names file (l.flatMap f) = l.flatMap fun a => names file (f a) := by
  rw [names, List.filter_flatMap, List.map_flatMap]
  rfl

def Fresh (issued : Issued) (names : List String) : Prop :=
  names.Nodup ∧ names.Disjoint issued.keys

theorem fresh_cons {issued : Issued} {name : String} {names : List String} (owner : String) :
    Fresh issued (name :: names) ↔
      issued.get? name = none ∧ Fresh (issued.insert name owner) names := by
  simp only [Fresh, List.nodup_cons, Table.get?_eq_none_iff, List.disjoint_right,
    Table.mem_keys_insert]
  grind

theorem Fresh.of_append {issued : Issued} {as bs : List String} (h : Fresh issued (as ++ bs)) :
    Fresh issued as :=
  ⟨(List.nodup_append.mp h.1).1, (List.disjoint_append_left.mp h.2).1⟩

theorem fresh_append {issued issued' : Issued} {as bs : List String}
    (h : issued'.keys = issued.keys ++ as) :
    Fresh issued (as ++ bs) ↔ Fresh issued as ∧ Fresh issued' bs := by
  simp only [Fresh, List.nodup_append, List.disjoint_right, h, List.mem_append]
  grind

/-- What a grant has to do for some places: it ends without a collision if and only if their names
are fresh. Then all names are given out in order, and each slot has got its token. -/
structure Grant.Serves {α : Type} (g : Grant α) (file : String) (issued : Issued) (ps : List Place)
    (tokens : List α) : Prop where
  collision : g.collision = none ↔ Fresh issued (names file ps)
  keys : g.collision = none → g.issued.keys = issued.keys ++ names file ps
  tokens : g.collision = none → g.tokens = tokens

theorem names_cons_of_dynamic (file : String) {p : Place} (ps : List Place)
    (hp : p.slot.label = .dynamic) : names file (p :: ps) = p.text file :: names file ps := by
  simp [names, hp]

private theorem names_cons_of_static (file : String) {p : Place} (ps : List Place)
    (hp : p.slot.label ≠ .dynamic) : names file (p :: ps) = names file ps := by
  simp [names, hp]

private theorem given_of_dynamic (file : String) {p : Place} (hp : p.slot.label = .dynamic) :
    p.given file = if p.slot.kept?.isSome then none else some (p.text file) := by
  cases hk : p.slot.kept? with
  | none => simp [Place.given, Place.text, hp, hk]
  | some t => simp [Place.given, hp, hk]

theorem grantSlots_serves (o : Outline) (block : String) (issued : Issued) (slots : List Slot) :
    (grantSlots file o block issued slots).Serves file issued (o.placesIn (block, slots))
      ((o.placesIn (block, slots)).map (Place.given file)) := by
  induction slots generalizing issued with
  | nil =>
    refine ⟨?_, ?_, fun _ => rfl⟩
    · simp [grantSlots, Outline.placesIn, names, Fresh]
    · simp [grantSlots, Outline.placesIn, names]
  | cons s rest ih =>
    let p : Place := ⟨o.sequence, o.callSite, block, s⟩
    have hplaces : o.placesIn (block, s :: rest) = p :: o.placesIn (block, rest) := rfl
    rw [hplaces, grantSlots]
    by_cases hdynamic : s.label = .dynamic
    · have hp : p.slot.label = .dynamic := hdynamic
      have htext : o.tokenText file block s = p.text file := rfl
      rw [if_pos hdynamic, htext]
      dsimp only
      split
      · next first hfirst =>
        refine ⟨?_, by simp, by simp⟩
        rw [names_cons_of_dynamic file _ hp, fresh_cons (o.owner block s), hfirst]
        simp
      · next hnone =>
        obtain ⟨hcollision, hkeys, htokens⟩ := ih (issued.insert (p.text file) (o.owner block s))
        refine ⟨?_, fun h => ?_, fun h => ?_⟩
        · rw [hcollision, names_cons_of_dynamic file _ hp, fresh_cons, and_iff_right hnone]
        · rw [hkeys h, names_cons_of_dynamic file _ hp,
            Table.insert_eq_append _ (Table.get?_eq_none_iff.mp hnone),
            Table.keys_append, List.append_assoc]
          rfl
        · rw [List.map_cons, ← htokens h, given_of_dynamic file hp]
    · have hp : p.slot.label ≠ .dynamic := hdynamic
      obtain ⟨hcollision, hkeys, htokens⟩ := ih issued
      rw [if_neg hdynamic]
      rw [← names_cons_of_static file _ hp] at hcollision hkeys
      refine ⟨hcollision, hkeys, fun h => ?_⟩
      rw [List.map_cons, ← htokens h, Place.given, if_neg fun h => hp h.1]

theorem grantBlocks_serves (o : Outline) (issued : Issued) (blocks : List (String × List Slot)) :
    (grantBlocks file o issued blocks).Serves file issued (blocks.flatMap o.placesIn)
      (blocks.map fun b => (o.placesIn b).map (Place.given file)) := by
  induction blocks generalizing issued with
  | nil =>
    refine ⟨?_, ?_, fun _ => rfl⟩
    · simp [grantBlocks, names, Fresh]
    · simp [grantBlocks, names]
  | cons b rest ih =>
    obtain ⟨block, slots⟩ := b
    obtain ⟨hcollision, hkeys, htokens⟩ := grantSlots_serves o block issued slots
    rw [List.flatMap_cons, grantBlocks]
    dsimp only
    split
    · next c hc =>
      refine ⟨⟨by simp, fun hfresh => ?_⟩, by simp, by simp⟩
      rw [names_append] at hfresh
      exact absurd (hcollision.mpr hfresh.of_append) (by simp [hc])
    · next hnone =>
      obtain ⟨hcollision', hkeys', htokens'⟩ := ih (grantSlots file o block issued slots).issued
      refine ⟨?_, fun h => ?_, fun h => ?_⟩
      · rw [hcollision', names_append, fresh_append (hkeys hnone),
          and_iff_right (hcollision.mp hnone)]
      · rw [hkeys' h, hkeys hnone, names_append, List.append_assoc]
      · rw [List.map_cons, htokens hnone, htokens' h]

def Outline.tokens (file : String) (o : Outline) : List (List (Option String)) :=
  o.blocks.map fun b => (o.placesIn b).map (Place.given file)

theorem grant_serves (file : String) (issued : Issued) (o : Outline) :
    (grant file issued o).Serves file issued o.places (o.tokens file) :=
  grantBlocks_serves o issued o.blocks

/-- Giving out tokens succeeds if and only if all names differ. -/
theorem grantAll_eq_ok_iff (issued : Issued) (os : List Outline) :
    (∃ granted, grantAll file issued os = .ok granted) ↔
      Fresh issued (names file (os.flatMap Outline.places)) := by
  induction os generalizing issued with
  | nil => simp [grantAll, names, Fresh]
  | cons o rest ih =>
    obtain ⟨hcollision, hkeys, -⟩ := grant_serves file issued o
    rw [List.flatMap_cons, names_append, grantAll]
    cases hc : (grant file issued o).collision with
    | some c =>
      refine ⟨by simp, fun hfresh => ?_⟩
      exact absurd (hcollision.mpr hfresh.of_append) (by simp [hc])
    | none =>
      rw [fresh_append (hkeys hc), and_iff_right (hcollision.mp hc), ← ih]
      cases grantAll file (grant file issued o).issued rest <;> simp [Except.map]

/-- What is given out: the names in the order of their places, and to each definition its tokens. -/
theorem grantAll_ok {issued : Issued} {os : List Outline}
    {granted : Issued × List (List (List (Option String)))}
    (h : grantAll file issued os = .ok granted) :
    granted.1.keys = issued.keys ++ names file (os.flatMap Outline.places) ∧
      granted.2 = os.map (Outline.tokens file) := by
  induction os generalizing issued granted with
  | nil =>
    obtain rfl := Except.ok.inj h
    simp [names]
  | cons o rest ih =>
    obtain ⟨-, hkeys, htokens⟩ := grant_serves file issued o
    rw [grantAll] at h
    cases hc : (grant file issued o).collision with
    | some c => simp [hc] at h
    | none =>
      cases hrest : grantAll file (grant file issued o).issued rest with
      | error c => simp [hc, hrest, Except.map] at h
      | ok later =>
        obtain rfl : (later.1, (grant file issued o).tokens :: later.2) = granted := by
          simpa [hc, hrest, Except.map] using h
        obtain ⟨hkeys', htokens'⟩ := ih hrest
        refine ⟨?_, ?_⟩
        · rw [hkeys', hkeys hc, List.flatMap_cons, names_append, List.append_assoc]
        · rw [htokens', htokens hc, List.map_cons]

/-- Definitions as they are found in a file: each has numbers of its own, block names differ within
a definition, and slots are counted. -/
structure Distinct (os : List Outline) : Prop where
  sites : (os.map fun o => (o.sequence, o.callSite)).Nodup
  nonneg : ∀ o ∈ os, 0 ≤ o.sequence ∧ 0 ≤ o.callSite
  blocks : ∀ o ∈ os, (o.blocks.map (·.1)).Nodup
  index : ∀ o ∈ os, ∀ b ∈ o.blocks, ∀ (k : Nat) (s : Slot), b.2[k]? = some s → s.index = k

/-- The definitions of a file are distinct, however they are labelled. -/
theorem scan_distinct {settings : Settings} {source : Bytes} {root : Node} {filename : String}
    {calls : List (Call Labelled)}
    (hcalls : calls.map (Call.map Labelled.toInterpolation) =
      (scan settings source root filename).calls) :
    Distinct (calls.map Call.outline) := by
  have hmem : ∀ call ∈ calls, call.map Labelled.toInterpolation ∈
      (scan settings source root filename).calls :=
    fun call hcall => hcalls ▸ List.mem_map.mpr ⟨call, hcall, rfl⟩
  have hread : ∀ call ∈ calls, ∃ tag object, blocksOf source settings.marker tag [] object =
      .ok (call.map Labelled.toInterpolation).blocks := by
    intro call hcall
    obtain ⟨chosen, -, hall⟩ := scan_calls settings source root filename
    obtain ⟨site, -, hsite⟩ := exists_of_mem_right hall (hmem call hcall)
    obtain ⟨-, -, object, -, -, -, -, -, -, -, hblocks⟩ := callOf_ok hsite
    exact ⟨_, _, hblocks⟩
  refine ⟨?_, ?_, ?_, ?_⟩
  · have hsequence := (readSites_sequence settings source filename (exportedNames root) 0 0
      (candidates settings root)).1
    rw [← scan, ← hcalls, List.pairwise_map] at hsequence
    rw [List.map_map]
    refine List.pairwise_map.mpr (hsequence.imp fun {a b} hab heq => ?_)
    have hsame : (a.sequence : Int) = b.sequence := congrArg Prod.fst heq
    have hlt : a.sequence < b.sequence := hab
    omega
  · intro o ho
    obtain ⟨call, -, rfl⟩ := List.mem_map.mp ho
    exact ⟨Int.natCast_nonneg _, Int.natCast_nonneg _⟩
  · intro o ho
    obtain ⟨call, hcall, rfl⟩ := List.mem_map.mp ho
    obtain ⟨tag, object, hblocks⟩ := hread call hcall
    simpa [Call.outline, Call.map, Block.map, Function.comp_def] using (blocksOf_names hblocks).1
  · intro o ho b hb k s hs
    obtain ⟨call, hcall, rfl⟩ := List.mem_map.mp ho
    obtain ⟨block, hblock, rfl⟩ := List.mem_map.mp hb
    rw [List.getElem?_map] at hs
    obtain ⟨i, hi, rfl⟩ := Option.map_eq_some_iff.mp hs
    obtain ⟨tag, value, -, -, hread⟩ :=
      exists_blockOf (hmem call hcall) (List.mem_map.mpr ⟨block, hblock, rfl⟩)
    obtain ⟨-, template, -, -, hparts⟩ := blockOf_ok hread
    have hindex : i.index = 0 + k := templateParts_index hparts (by simp [Block.map, hi])
    simp [Labelled.slot, hindex]

theorem mem_placesIn {o : Outline} {b : String × List Slot} {p : Place} :
    p ∈ o.placesIn b ↔ ∃ s ∈ b.2, ⟨o.sequence, o.callSite, b.1, s⟩ = p := by
  simp [Outline.placesIn]

section Distinct
variable {os : List Outline} (h : Distinct os)
include h

theorem place_nonneg {p : Place} (hp : p ∈ os.flatMap Outline.places) :
    0 ≤ p.sequence ∧ 0 ≤ p.callSite ∧ 0 ≤ p.slot.index := by
  obtain ⟨o, ho, hp⟩ := List.mem_flatMap.mp hp
  obtain ⟨b, hb, hp⟩ := List.mem_flatMap.mp hp
  obtain ⟨s, hs, rfl⟩ := mem_placesIn.mp hp
  obtain ⟨k, hk⟩ := List.mem_iff_getElem?.mp hs
  have hindex := h.index o ho b hb k s hk
  exact ⟨(h.nonneg o ho).1, (h.nonneg o ho).2, by simp [hindex]⟩

/-- No two places have the same token. -/
theorem nodup_tokens (file : String) :
    ((os.flatMap Outline.places).map (Place.token file)).Nodup := by
  refine List.pairwise_map.mpr (List.pairwise_flatMap.mpr ⟨fun o ho => ?_, ?_⟩)
  · refine List.pairwise_flatMap.mpr ⟨fun b hb => List.pairwise_map.mpr ?_, ?_⟩
    · refine List.pairwise_iff_getElem.mpr fun i j hi hj hij heq => ?_
      have hi := h.index o ho b hb i b.2[i] (by simp)
      have hj := h.index o ho b hb j b.2[j] (by simp)
      have hindex := congrArg Token.index heq
      simp only [Place.token] at hindex
      omega
    · refine (List.pairwise_map.mp (h.blocks o ho)).imp fun {b c} hbc p hp q hq heq => ?_
      obtain ⟨s, -, rfl⟩ := mem_placesIn.mp hp
      obtain ⟨t, -, rfl⟩ := mem_placesIn.mp hq
      exact hbc (congrArg Token.block heq)
  · refine (List.pairwise_map.mp h.sites).imp fun {o o'} hoo p hp q hq heq => ?_
    obtain ⟨b, -, hp⟩ := List.mem_flatMap.mp hp
    obtain ⟨s, -, rfl⟩ := mem_placesIn.mp hp
    obtain ⟨c, -, hq⟩ := List.mem_flatMap.mp hq
    obtain ⟨t, -, rfl⟩ := mem_placesIn.mp hq
    exact hoo (Prod.ext (congrArg Token.sequence heq) (congrArg Token.callSite heq))

/-- Rendered tokens tell places apart. -/
theorem eq_of_render_eq {p q : Place} (hp : p ∈ os.flatMap Outline.places)
    (hq : q ∈ os.flatMap Outline.places) (heq : (p.token file).render = (q.token file).render) :
    p = q :=
  List.inj_on_of_nodup_map (nodup_tokens h file) hp hq
    (render_inj rfl (place_nonneg h hp) (place_nonneg h hq) heq)

end Distinct

/-- Two dynamic places with one name, which the first of them has kept. -/
def Clash (file : String) (p q : Place) : Prop :=
  p ≠ q ∧ p.slot.label = .dynamic ∧ q.slot.label = .dynamic ∧
    ∃ t, p.slot.kept? = some t ∧
    (q.slot.kept? = some t ∨ q.slot.kept? = none ∧ (q.token file).render = t)

theorem Clash.text_eq {p q : Place} (h : Clash file p q) : p.text file = q.text file := by
  obtain ⟨-, -, -, t, hp, hq | ⟨hq, hrender⟩⟩ := h
  · simp [Place.text, hp, hq]
  · simp [Place.text, hp, hq, hrender]

/-- Names differ if and only if no kept token is used twice. -/
theorem nodup_names_iff {os : List Outline} (h : Distinct os) :
    (names file (os.flatMap Outline.places)).Nodup ↔
      ¬ ∃ p ∈ os.flatMap Outline.places, ∃ q ∈ os.flatMap Outline.places, Clash file p q := by
  have hplaces : (os.flatMap Outline.places).Nodup := (nodup_tokens h file).of_map _
  rw [names, List.nodup_map_iff_inj_on (hplaces.filter _)]
  constructor
  · rintro hinj ⟨p, hp, q, hq, hclash⟩
    obtain ⟨hne, hdp, hdq, -⟩ := id hclash
    exact hne (hinj p (by simpa [hdp] using hp) q (by simpa [hdq] using hq) hclash.text_eq)
  · intro hnone p hp q hq heq
    obtain ⟨hp, hdp⟩ := List.mem_filter.mp hp
    obtain ⟨hq, hdq⟩ := List.mem_filter.mp hq
    rw [decide_eq_true_eq] at hdp hdq
    by_contra hne
    cases hkp : p.slot.kept? with
    | some t =>
      have htext : q.slot.kept?.getD (q.token file).render = t := by
        simpa [Place.text, hkp] using heq.symm
      refine hnone ⟨p, hp, q, hq, hne, hdp, hdq, t, hkp, ?_⟩
      cases hkq : q.slot.kept? with
      | some u =>
        rw [hkq] at htext
        exact .inl (congrArg some htext)
      | none =>
        rw [hkq] at htext
        exact .inr ⟨rfl, htext⟩
    | none =>
      cases hkq : q.slot.kept? with
      | some t =>
        have hrender : (p.token file).render = t := by simpa [Place.text, hkp, hkq] using heq
        exact hnone ⟨q, hq, p, hp, Ne.symm hne, hdq, hdp, t, hkq, .inr ⟨hkp, hrender⟩⟩
      | none => exact hne (eq_of_render_eq h hp hq (by simpa [Place.text, hkp, hkq] using heq))

def handedOut (file : String) (os : List Outline) (tokens : List (List (List (Option String)))) :
    List (Token × Option String) :=
  (os.zip tokens).flatMap fun (o, rows) => (o.blocks.zip rows).flatMap fun (b, row) =>
    ((o.placesIn b).zip row).map fun (p, t) => (p.token file, t)

theorem handedOut_tokens (os : List Outline) : handedOut file os (os.map (Outline.tokens file)) =
    (os.flatMap Outline.places).map fun p => (p.token file, p.given file) := by
  simp [handedOut, Outline.tokens, Outline.places, ← List.map_prod_left_eq_zip, List.flatMap_map,
    List.map_flatMap, Function.comp_def]

/-- The same definition, with its blocks in another order. -/
structure SameBlocks (o o' : Outline) : Prop where
  sequence : o'.sequence = o.sequence
  callSite : o'.callSite = o.callSite
  blocks : o.blocks.Perm o'.blocks

def Rearranged (os os' : List Outline) : Prop :=
  ∃ mid, os.Perm mid ∧ List.Forall₂ SameBlocks mid os'

theorem Rearranged.places {os os' : List Outline} (h : Rearranged os os') :
    (os.flatMap Outline.places).Perm (os'.flatMap Outline.places) := by
  obtain ⟨mid, hperm, hall⟩ := h
  refine (hperm.flatMap_right _).trans ?_
  clear hperm
  induction hall with
  | nil => exact .refl _
  | @cons o o' _ _ hoo _ ih =>
    have hin : o'.placesIn = o.placesIn := by
      funext b
      rw [Outline.placesIn, Outline.placesIn, hoo.sequence, hoo.callSite]
    rw [List.flatMap_cons, List.flatMap_cons, Outline.places, Outline.places, hin]
    exact (hoo.blocks.flatMap_right _).append ih

theorem fresh_nil {names : List String} : Fresh [] names ↔ names.Nodup := by
  simp [Fresh, Table.keys]

theorem Rearranged.fresh {os os' : List Outline} (h : Rearranged os os') :
    Fresh [] (names file (os'.flatMap Outline.places)) ↔
      Fresh [] (names file (os.flatMap Outline.places)) := by
  rw [fresh_nil, fresh_nil]
  exact ((h.places.filter _).map _).nodup_iff.symm

/-- Giving out tokens fails if and only if a kept token is the name of two dynamic places, whatever
names consist of. If it succeeds, then the token of a place depends on nothing but the place.
Neither depends on the order of definitions and of their blocks. -/
theorem grantAll_fails_iff_clash (file : String) (os : List Outline) (h : Distinct os) :
    ((∃ c, grantAll file [] os = .error c) ↔
        ∃ p ∈ os.flatMap Outline.places, ∃ q ∈ os.flatMap Outline.places, Clash file p q) ∧
      ((∀ p ∈ os.flatMap Outline.places, p.slot.label = .dynamic → p.slot.kept? = none) →
        ∃ granted, grantAll file [] os = .ok granted) ∧
      (∀ granted, grantAll file [] os = .ok granted → granted.2 = os.map (Outline.tokens file)) ∧
      ∀ os', Rearranged os os' →
        ((∃ granted, grantAll file [] os' = .ok granted) ↔
          ∃ granted, grantAll file [] os = .ok granted) ∧
        ∀ granted granted', grantAll file [] os = .ok granted →
        grantAll file [] os' = .ok granted' →
          (handedOut file os' granted'.2).Perm (handedOut file os granted.2) := by
  have hok : (∃ granted, grantAll file [] os = .ok granted) ↔
      ¬ ∃ p ∈ os.flatMap Outline.places, ∃ q ∈ os.flatMap Outline.places, Clash file p q := by
    rw [grantAll_eq_ok_iff, fresh_nil, nodup_names_iff h]
  refine ⟨?_, fun hnone => ?_, fun granted hgranted => (grantAll_ok hgranted).2,
    fun os' hos => ⟨?_, ?_⟩⟩
  · rw [← not_iff_not, ← hok]
    cases grantAll file [] os <;> simp
  · refine hok.mpr ?_
    rintro ⟨p, hp, q, -, -, hdynamic, -, t, hkept, -⟩
    simp [hnone p hp hdynamic] at hkept
  · rw [grantAll_eq_ok_iff, grantAll_eq_ok_iff, hos.fresh]
  · intro granted granted' hgranted hgranted'
    rw [(grantAll_ok hgranted).2, (grantAll_ok hgranted').2, handedOut_tokens, handedOut_tokens]
    exact (hos.places.map _).symm

/-- A hole that keeps the token which another hole is about to get. -/
def repeatedToken : String :=
  "f(()=>(\x7ba:css\x60$\x7bp\x7d\x60,b:css\x60$\x7b'var(--a--00000-0-a-0)'\x7d\x60\x7d))"

theorem grantAll_fails_iff_clash_repeated :
    let calls :=
      allDynamic (scan { Settings.ofTheme "t" with factory := "f" } (encode repeatedToken)
      (parse .script repeatedToken.toList) "a.js").calls
    Distinct (calls.map Call.outline) ∧
      ∃ c, grantAll (fileId "a.js") [] (calls.map Call.outline) = .error c := by
  intro calls
  have hdistinct : Distinct (calls.map Call.outline) := scan_distinct (toInterpolation_allDynamic _)
  let p : Place := ⟨0, 0, "b", ⟨0, .dynamic, some "--a--00000-0-a-0"⟩⟩
  let q : Place := ⟨0, 0, "a", ⟨0, .dynamic, none⟩⟩
  have hrun : p ∈ (calls.map Call.outline).flatMap Outline.places ∧
      q ∈ (calls.map Call.outline).flatMap Outline.places ∧
      p.slot.kept? = some "--a--00000-0-a-0" ∧
      (q.token (fileId "a.js")).render = "--a--00000-0-a-0" := by
    decide +kernel
  obtain ⟨hp, hq, hkept, hrender⟩ := hrun
  refine ⟨hdistinct, (grantAll_fails_iff_clash (fileId "a.js") _ hdistinct).1.mpr
    ⟨p, hp, q, hq, ?_⟩⟩
  exact ⟨by decide, rfl, rfl, _, hkept, .inr ⟨rfl, hrender⟩⟩

section Named

def Call.placeOf {ι : Type} (call : Call ι) (block : String) (i : Labelled) : Place :=
  ⟨call.sequence, call.callSite, block, i.slot⟩

def Call.named (file : String) (call : Call Labelled) : Call Named :=
  { call with
    blocks := call.blocks.map fun block =>
      { block with
        interpolations :=
          block.interpolations.map fun i => i.withToken ((call.placeOf block.name i).given file) } }

private theorem withTokens_tokens (file : String) (call : Call Labelled) :
    call.withTokens (call.outline.tokens file) = call.named file := by
  simp [Call.withTokens, Call.named, Block.withTokens, Outline.tokens, Call.outline,
    Outline.placesIn, Call.placeOf, List.zipWith_map_right, List.zipWith_self, Function.comp_def]

/-- Tokens can be given to a file if and only if its names differ, and then every definition gets
its own. -/
theorem nameAll_eq_ok_iff {calls : List (Call Labelled)} {named : List (Call Named)} :
    nameAll file calls = .ok named ↔
      Fresh [] (names file ((calls.map Call.outline).flatMap Outline.places)) ∧
      named = calls.map (Call.named file) := by
  rw [← grantAll_eq_ok_iff, nameAll]
  cases hgrant : grantAll file [] (calls.map Call.outline) with
  | error c => simp [Except.map]
  | ok granted =>
    obtain ⟨-, htokens⟩ := grantAll_ok hgrant
    simp [Except.map, htokens, List.zipWith_map_right, List.zipWith_self,
      withTokens_tokens, eq_comm]

theorem toLabelled_named (call : Call Labelled) :
    (call.named file).map Named.toLabelled = call := by
  simp [Call.named, Call.map, Block.map, Labelled.withToken, Function.comp_def]

/-- The new token of an interpolation is that of its place. -/
theorem name_withToken (call : Call Labelled) (block : String) {i : Labelled}
    (h : i.label = .dynamic) :
    (i.withToken ((call.placeOf block i).given file)).name =
      call.outline.tokenText file block i.slot := by
  have hslot : (i.withToken ((call.placeOf block i).given file)).slot = i.slot := rfl
  have hlabel : i.slot.label = .dynamic := h
  rw [Named.name, hslot, Outline.tokenText]
  cases hkept : i.slot.kept? with
  | some name => rfl
  | none =>
    simp [Labelled.withToken, Call.placeOf, Place.given, hlabel, hkept, Place.token, Outline.token,
      Call.outline]

/-- The name of a dynamic interpolation is that of its place in one of the definitions. -/
theorem name_of_nameAll {labelled : List (Call Labelled)} {calls : List (Call Named)}
    (h : nameAll file labelled = .ok calls) {call : Call Named} (hcall : call ∈ calls)
    {b : Block Named} (hb : b ∈ call.blocks) {i : Named} (hi : i ∈ b.interpolations)
    (hdynamic : i.label = .dynamic) :
    ∃ call₀ ∈ labelled, i.name = call₀.outline.tokenText file b.name i.slot := by
  obtain ⟨-, rfl⟩ := nameAll_eq_ok_iff.mp h
  obtain ⟨call₀, hcall₀, rfl⟩ := List.mem_map.mp hcall
  obtain ⟨b₀, -, rfl⟩ := List.mem_map.mp hb
  obtain ⟨i₀, -, rfl⟩ := List.mem_map.mp hi
  exact ⟨call₀, hcall₀, name_withToken call₀ b₀.name hdynamic⟩

end Named

end ThemedCss.Style
