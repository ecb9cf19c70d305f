import Mathlib.Data.List.Perm.Subperm
import Mathlib.Data.List.ProdSigma
import ThemedCss.Proofs.Theme.Reference

/-! Reading a module ends unless an object is spread into itself, and `limit` is deep enough for
it. -/
namespace ThemedCss.Theme
open Relation ThemedCss.Data ThemedCss.Style ThemedCss.Syntax ThemedCss.Text

/-- From `bound` on, more depth does not change what is read. -/
def Ends {α : Type} (f : Nat → Reading α) (bound : Nat) : Prop :=
  ∃ r, r ≠ .error .endless ∧ ∀ depth, bound ≤ depth → f depth = r

namespace ThemeModule
variable {m : ThemeModule}

/-- More depth does not change what is read once it is read. -/
def Rising {α : Type} (f : Nat → Reading α) (depth : Nat) : Prop :=
  f depth = .error .endless ∨ f (depth + 1) = f depth

theorem Reads.rising {α : Type} {object : Option (List String × Node)} {f : Nat → Reading α}
    (h : m.Reads object f) {depth : Nat}
    (hbelow : ∀ s, object = some s → ∀ d, d ≤ depth → Rising (m.entriesOf · s.1 s.2) d) :
    Rising f depth := by
  cases h with
  | @entries s lag g same short eq =>
    by_cases hlag : lag ≤ depth
    · have hdepth : depth + 1 - lag = depth - lag + 1 := by omega
      rcases hbelow s same (depth - lag) (Nat.sub_le _ _) with hend | hsame
      · exact .inl ((eq depth).trans (congrArg (Except.map g) hend))
      · exact .inr (by rw [eq, eq, hdepth]; exact congrArg (Except.map g) hsame)
    · have hdepth : depth - lag = 0 := by omega
      exact .inl (by rw [eq, hdepth]; rfl)
  | @settled r same ends eq start =>
    cases depth with
    | zero => exact start.symm.imp_right fun h => by rw [eq, h]
    | succ depth => exact .inr (by rw [eq, eq])

theorem foldlM_rising {α β : Type} {f g : β → α → Reading β} {xs : List α}
    (h : ∀ x ∈ xs, ∀ b, f b x = .error .endless ∨ g b x = f b x) (b : β) :
    xs.foldlM f b = .error .endless ∨ xs.foldlM g b = xs.foldlM f b := by
  induction xs generalizing b with
  | nil => exact .inr rfl
  | cons x xs ih =>
    rw [List.foldlM_cons, List.foldlM_cons]
    rcases h x List.mem_cons_self b with hend | hsame
    · exact .inl (by rw [hend]; rfl)
    · rw [hsame]
      cases f b x with
      | error e => exact .inr rfl
      | ok b' => exact ih (fun y hy => h y (List.mem_cons_of_mem x hy)) b'

theorem entriesOf_rising (hm : m.Sound) (depth : Nat) (seen : List String) {object : Node}
    (ho : m.root.Contains object) : Rising (m.entriesOf · seen object) depth := by
  induction depth using Nat.strongRecOn generalizing seen object with
  | _ depth ih =>
  cases depth with
  | zero => exact .inl rfl
  | succ depth =>
    refine foldlM_rising (fun property hp data => ?_) []
    have hin := ho.trans (Node.contains_named hp)
    cases depth with
    | zero => exact .inl rfl
    | succ depth =>
      refine (addProperty_reads hm seen data hin).rising fun s hs d hd => ?_
      exact ih d (by omega) s.1 (inner?_known hm hin (asked_eq_some.mp hs)).1.1

theorem Rising.le {α : Type} {f : Nat → Reading α} (h : ∀ depth, Rising f depth) {low high : Nat}
    (hle : low ≤ high) (hlow : f low ≠ .error .endless) : f high = f low := by
  induction hle with
  | refl => rfl
  | @step d _ ih => exact ((h d).resolve_left (ih ▸ hlow)).trans ih

/-- Properties that are read one after the other. -/
theorem foldlM_addProperty_rising (hm : m.Sound) (depth : Nat) (seen : List String)
    {properties : List Node} (hp : ∀ property ∈ properties, m.root.Contains property)
    (data : Table String Value) :
    Rising (fun depth => properties.foldlM (m.addProperty depth seen) data) depth := by
  refine foldlM_rising (fun property hmem data => ?_) data
  cases depth with
  | zero => exact .inl rfl
  | succ depth =>
    refine (addProperty_reads hm seen data (hp property hmem)).rising fun s hs d _ => ?_
    exact entriesOf_rising hm d s.1 (inner?_known hm (hp property hmem) (asked_eq_some.mp hs)).1.1

/-- An object asks for another when one of its properties is read through it. The properties before
that one can be read. -/
def AsksBy (m : ThemeModule) (property : Node) (a b : List String × Node) : Prop :=
  ∃ before after, a.2.named = before ++ property :: after ∧
    (∃ depth data, before.foldlM (m.addProperty depth a.1) [] = .ok data) ∧
    m.inner? a.1 property = .ok (some b)

def Asks (m : ThemeModule) (a b : List String × Node) : Prop :=
  ∃ property, m.AsksBy property a b

/-- Reading the object comes back to an object with the same constants seen. -/
def Circular (m : ThemeModule) (a : List String × Node) : Prop :=
  ∃ x, ReflTransGen m.Asks a x ∧ TransGen m.Asks x x

section Asks
variable {property : Node} {a b : List String × Node}

theorem AsksBy.mem (h : m.AsksBy property a b) : property ∈ a.2.named := by
  obtain ⟨before, after, hnamed, -⟩ := h
  simp [hnamed]

theorem AsksBy.known (hm : m.Sound) (ha : m.root.Contains a.2) (h : m.AsksBy property a b) :
    (m.root.Contains b.2 ∧ b.2.kind = .object) ∧
      (m.Known a.1 property b ∨ (property.kind = .spread ∧ b.1 = a.1)) := by
  have hin := ha.trans (Node.contains_named h.mem)
  obtain ⟨-, -, -, -, hinner⟩ := h
  exact inner?_known hm hin hinner

theorem Asks.contains (hm : m.Sound) (ha : m.root.Contains a.2) (h : m.Asks a b) :
    m.root.Contains b.2 :=
  h.elim fun _ h => (h.known hm ha).1.1

theorem Asks.contains_of_reflTransGen (hm : m.Sound) (ha : m.root.Contains a.2)
    (h : ReflTransGen m.Asks a b) : m.root.Contains b.2 := by
  induction h with
  | refl => exact ha
  | tail _ hstep ih => exact hstep.contains hm ih

/-- Where a fold meets a fault: all before has been read. -/
theorem exists_of_foldlM_error {α β : Type} {f : β → α → Reading β} {e : ModuleFault} {xs : List α}
    {b : β} (h : xs.foldlM f b = .error e) :
    ∃ before x after b', xs = before ++ x :: after ∧ before.foldlM f b = .ok b' ∧
      f b' x = .error e := by
  induction xs generalizing b with
  | nil => cases h
  | cons x xs ih =>
    rw [List.foldlM_cons] at h
    cases hx : f b x with
    | error e' =>
      rw [hx] at h
      exact ⟨[], x, xs, b, rfl, rfl, hx.trans (congrArg Except.error (Except.error.inj h))⟩
    | ok b' =>
      rw [hx] at h
      obtain ⟨before, y, after, b'', hxs, hbefore, hy⟩ := ih h
      refine ⟨x :: before, y, after, b'', by rw [hxs]; rfl, ?_, hy⟩
      rw [List.foldlM_cons, hx]
      exact hbefore

/-- Three levels are enough for a step: what is not read at its depth fails below. -/
theorem exists_asks (hm : m.Sound) (depth : Nat) (ha : m.root.Contains a.2)
    (h : m.entriesOf (depth + 3) a.1 a.2 = .error .endless) :
    ∃ b, m.Asks a b ∧ m.entriesOf depth b.1 b.2 = .error .endless := by
  obtain ⟨before, property, after, data, hnamed, hbefore, hp⟩ := exists_of_foldlM_error h
  have hin : m.root.Contains property := ha.trans (Node.contains_named (by simp [hnamed]))
  cases addProperty_reads hm a.1 data hin with
  | @entries b lag g same short eq =>
    have hinner := asked_eq_some.mp same
    refine ⟨b, ⟨property, before, after, hnamed, ⟨depth + 2, data, hbefore⟩, hinner⟩, ?_⟩
    have hbelow : m.entriesOf (depth + 1 - lag) b.1 b.2 = .error .endless :=
      map_eq_endless_iff.mp ((eq (depth + 1)).symm.trans hp)
    by_contra hne
    have hb := (inner?_known hm hin hinner).1.1
    have hsame :=
      Rising.le (fun d => entriesOf_rising hm d b.1 hb) (show depth ≤ depth + 1 - lag by omega) hne
    exact hne (hsame.symm.trans hbelow)
  | @settled r same ends eq start => exact absurd ((eq depth).symm.trans hp) ends

/-- What an object asks for is read at a smaller depth. -/
theorem Asks.exists_lt (hm : m.Sound) {depth : Nat} (ha : m.root.Contains a.2) (h : m.Asks a b)
    (hends : m.entriesOf depth a.1 a.2 ≠ .error .endless) :
    ∃ d, d < depth ∧ m.entriesOf d b.1 b.2 ≠ .error .endless := by
  obtain ⟨property, before, after, hnamed, ⟨depth₀, data, hbefore⟩, hinner⟩ := h
  cases depth with
  | zero => exact absurd rfl hends
  | succ depth =>
    have hfold : m.entriesOf (depth + 1) a.1 a.2 =
        before.foldlM (m.addProperty depth a.1) [] >>=
          fun data => (property :: after).foldlM (m.addProperty depth a.1) data := by
      rw [entriesOf, hnamed, List.foldlM_append]
    have hmem : ∀ p ∈ before, m.root.Contains p :=
      fun p hp => ha.trans (Node.contains_named (by simp [hnamed, hp]))
    have hin : m.root.Contains property := ha.trans (Node.contains_named (by simp [hnamed]))
    have hrise := fun d => foldlM_addProperty_rising hm d a.1 hmem []
    -- the properties before are read alike at this depth
    -- and at the one where they are known to be read
    have hbefore' : before.foldlM (m.addProperty depth a.1) [] = .ok data := by
      have hne : before.foldlM (m.addProperty depth a.1) [] ≠ .error .endless :=
        fun h => hends (by rw [hfold, h]; rfl)
      rcases Nat.le_total depth depth₀ with hle | hle
      · exact (Rising.le hrise hle hne).symm.trans hbefore
      · exact (Rising.le hrise hle (by rw [hbefore]; exact nofun)).trans hbefore
    have hproperty : m.addProperty depth a.1 data property ≠ .error .endless := by
      intro h
      rw [hfold, hbefore'] at hends
      refine hends
        (Eq.trans (b := (property :: after).foldlM (m.addProperty depth a.1) data) rfl ?_)
      rw [List.foldlM_cons, h]
      rfl
    cases depth with
    | zero => exact absurd rfl hproperty
    | succ depth =>
      cases addProperty_reads hm a.1 data hin with
      | @entries s lag g same short eq =>
        obtain rfl : b = s := Option.some.inj ((asked_eq_some.mpr hinner).symm.trans same)
        refine ⟨depth - lag, by omega, fun h => hproperty ?_⟩
        exact (eq depth).trans (map_eq_endless_iff.mpr h)
      | @settled r same => exact absurd ((asked_eq_some.mpr hinner).symm.trans same) nofun

theorem exists_lt_of_transGen (hm : m.Sound) (ha : m.root.Contains a.2) (h : TransGen m.Asks a b)
    {depth : Nat} (hends : m.entriesOf depth a.1 a.2 ≠ .error .endless) :
    ∃ d, d < depth ∧ m.entriesOf d b.1 b.2 ≠ .error .endless := by
  induction h with
  | single hstep => exact hstep.exists_lt hm ha hends
  | tail hpath hstep ih =>
    obtain ⟨d, hd, hends⟩ := ih
    obtain ⟨d', hd', hends'⟩ :=
      hstep.exists_lt hm (Asks.contains_of_reflTransGen hm ha hpath.to_reflTransGen) hends
    exact ⟨d', Nat.lt_trans hd' hd, hends'⟩

/-- An object that asks for itself is read at no depth: each round would need less than the one
before. -/
theorem endless_of_circle (hm : m.Sound) (ha : m.root.Contains a.2) (h : TransGen m.Asks a a)
    (depth : Nat) : m.entriesOf depth a.1 a.2 = .error .endless := by
  induction depth using Nat.strongRecOn with
  | _ depth ih =>
  by_contra hends
  obtain ⟨d, hd, hbelow⟩ := exists_lt_of_transGen hm ha h hends
  exact hbelow (ih d hd)

theorem endless_of_circular (hm : m.Sound) (ha : m.root.Contains a.2) (h : m.Circular a)
    (depth : Nat) : m.entriesOf depth a.1 a.2 = .error .endless := by
  obtain ⟨x, hpath, hcircle⟩ := h
  have hx := endless_of_circle hm (Asks.contains_of_reflTransGen hm ha hpath) hcircle
  rcases reflTransGen_iff_eq_or_transGen.mp hpath with rfl | hpath
  · exact hx depth
  · by_contra hends
    obtain ⟨d, -, hbelow⟩ := exists_lt_of_transGen hm ha hpath hends
    exact hbelow (hx d)

/-- An object that is not read in three levels a step asks for one after the other. -/
theorem exists_chain (hm : m.Sound) (steps : Nat) {a : List String × Node}
    (ha : m.root.Contains a.2) (h : m.entriesOf (3 * steps) a.1 a.2 = .error .endless) :
    ∃ chain : List (List String × Node), chain.length = steps ∧
      (a :: chain).Pairwise (TransGen m.Asks) := by
  induction steps generalizing a with
  | zero => exact ⟨[], rfl, by simp⟩
  | succ steps ih =>
    obtain ⟨b, hstep, hbelow⟩ := exists_asks hm (3 * steps) ha h
    obtain ⟨chain, hlength, hchain⟩ := ih (hstep.contains hm ha) hbelow
    refine ⟨b :: chain, by simp [hlength], List.pairwise_cons.mpr ⟨fun x hx => ?_, hchain⟩⟩
    rcases List.mem_cons.mp hx with rfl | hx
    · exact .single hstep
    · exact .head hstep ((List.pairwise_cons.mp hchain).1 x hx)

/-- What is asked for has seen the same constants, and further ones of the module. -/
theorem exists_seen (hm : m.Sound) (ha : m.root.Contains a.2) (h : ReflTransGen m.Asks a b) :
    ∃ new : List String, b.1 = new ++ a.1 ∧ new.Nodup ∧ ∀ name ∈ new, name ∈ m.constants.keys := by
  induction h with
  | refl => exact ⟨[], rfl, List.nodup_nil, nofun⟩
  | @tail b c hpath hstep ih =>
    obtain ⟨new, hb, hnodup, hkeys⟩ := ih
    obtain ⟨property, hstep⟩ := hstep
    obtain ⟨-, (⟨hsame, -⟩ | ⟨name, hnew, hname, hc⟩) | ⟨-, hsame⟩⟩ :=
      hstep.known hm (Asks.contains_of_reflTransGen hm ha hpath)
    · exact ⟨new, hsame.trans hb, hnodup, hkeys⟩
    · rw [hb, List.mem_append, not_or] at hnew
      refine ⟨name ::
        new, by rw [hc, hb]; rfl, List.nodup_cons.mpr ⟨hnew.1, hnodup⟩, fun k hk => ?_⟩
      rcases List.mem_cons.mp hk with rfl | hk
      · exact hname
      · exact hkeys k hk
    · exact ⟨new, hsame.trans hb, hnodup, hkeys⟩

/-- A call by how many constants it has seen since the first one, and by its object. -/
def label (first : List String × Node) (s : List String × Node) : Nat × Node :=
  (s.1.length - first.1.length, s.2)

private theorem label_mem (hm : m.Sound) (ha : m.root.Contains a.2) (h : TransGen m.Asks a b) :
    label a b ∈ List.range (m.constants.length + 1) ×ˢ m.root.preorder.filter
      (·.kind == .object) := by
  obtain ⟨new, hseen, hnodup, hkeys⟩ := exists_seen hm ha h.to_reflTransGen
  have hlength : new.length ≤ m.constants.length := by
    simpa [Table.keys] using (hnodup.subperm hkeys).length_le
  obtain ⟨c, hpath, property, hstep⟩ := TransGen.tail'_iff.mp h
  obtain ⟨hin, hkind⟩ := (hstep.known hm (Asks.contains_of_reflTransGen hm ha hpath)).1
  refine List.pair_mem_product.mpr
    ⟨List.mem_range.mpr ?_, List.mem_filter.mpr ⟨Node.mem_preorder.mpr hin, by simp [hkind]⟩⟩
  simp only [hseen, List.length_append]
  omega

private theorem label_ne (hm : m.Sound) {first : List String × Node}
    (hfirst : m.root.Contains first.2) (hends : ¬m.Circular first) (ha : TransGen m.Asks first a)
    (h : TransGen m.Asks a b) : label first a ≠ label first b := by
  intro hlabel
  have hin := Asks.contains_of_reflTransGen hm hfirst ha.to_reflTransGen
  obtain ⟨new, hseen, -⟩ := exists_seen hm hin h.to_reflTransGen
  obtain ⟨since, hsince, -⟩ := exists_seen hm hfirst ha.to_reflTransGen
  obtain ⟨hlength, hobject⟩ := Prod.mk.inj hlabel
  have hnil : new = [] := by
    rw [hseen, hsince] at hlength
    simp only [List.length_append] at hlength
    exact List.eq_nil_of_length_eq_zero (by omega)
  have hsame : a = b := Prod.ext (by rw [hseen, hnil]; rfl) hobject
  exact hends ⟨a, ha.to_reflTransGen, hsame ▸ h⟩

/-- Without a circle, no chain is longer than there are calls. -/
theorem length_chain_le (hm : m.Sound) (ha : m.root.Contains a.2) (hends : ¬m.Circular a)
    {chain : List (List String × Node)} (h : (a :: chain).Pairwise (TransGen m.Asks)) :
    chain.length ≤ (m.constants.length + 1) * m.root.preorder.countP (·.kind == .object) := by
  obtain ⟨hfirst, hchain⟩ := List.pairwise_cons.mp h
  have hnodup : (chain.map (label a)).Nodup := by
    refine List.pairwise_map.mpr (hchain.imp_of_mem fun hx _ hxy => ?_)
    exact label_ne hm ha hends (hfirst _ hx) hxy
  have hsubset : chain.map (label a) ⊆
      List.range (m.constants.length + 1) ×ˢ m.root.preorder.filter (·.kind == .object) := by
    intro l hl
    obtain ⟨x, hx, rfl⟩ := List.mem_map.mp hl
    exact label_mem hm ha (hfirst x hx)
  have hle := (hnodup.subperm hsubset).length_le
  rwa [List.length_map, List.length_product, List.length_range,
    ← List.countP_eq_length_filter] at hle

theorem entriesOf_limit (hm : m.Sound) (ha : m.root.Contains a.2) (h : ¬m.Circular a) :
    m.entriesOf m.limit a.1 a.2 ≠ .error .endless := by
  intro hend
  obtain ⟨chain, hlength, hchain⟩ := exists_chain hm _ ha hend
  have hle := length_chain_le hm ha h hchain
  omega

theorem entriesOf_ends (hm : m.Sound) (ha : m.root.Contains a.2) (h : ¬m.Circular a) :
    Ends (m.entriesOf · a.1 a.2) m.limit :=
  ⟨_, entriesOf_limit hm ha h,
    fun _ hle => Rising.le (fun d => entriesOf_rising hm d a.1 ha) hle (entriesOf_limit hm ha h)⟩

private theorem valueOf_ends (hm : m.Sound) {seen : List String} {n : Node} (hn : m.root.Contains n)
    (h : ∀ s, m.shown? seen (some n) = .ok (some s) → ¬m.Circular s) :
    Ends (m.valueOf · seen (some n)) (m.limit + 1) := by
  cases valueOf_reads hm seen (some n) with
  | @entries s lag g same short eq =>
    have hshown := asked_eq_some.mp same
    obtain ⟨r, hr, hsame⟩ := entriesOf_ends hm (shown?_known hm hn hshown).1.1 (h s hshown)
    refine ⟨r.map g, fun h => hr (map_eq_endless_iff.mp h), fun depth hle => ?_⟩
    exact (eq depth).trans (congrArg (Except.map g) (hsame _ (by omega)))
  | @settled r same ends eq start =>
    refine ⟨r, ends, fun depth hle => ?_⟩
    obtain ⟨d, rfl⟩ : ∃ d, depth = d + 1 := ⟨depth - 1, by omega⟩
    exact eq d

private theorem valueOf_endless (hm : m.Sound) {seen : List String} {n : Node}
    (hn : m.root.Contains n) {s : List String × Node}
    (hshown : m.shown? seen (some n) = .ok (some s)) (h : m.Circular s) (depth : Nat) :
    m.valueOf depth seen (some n) = .error .endless := by
  cases valueOf_reads hm seen (some n) with
  | @entries s' lag g same short eq =>
    obtain rfl : s = s' := Option.some.inj ((asked_eq_some.mpr hshown).symm.trans same)
    have hend := endless_of_circular hm (shown?_known hm hn hshown).1.1 h (depth - lag)
    exact (eq depth).trans (map_eq_endless_iff.mpr hend)
  | @settled r same => exact absurd ((asked_eq_some.mpr hshown).symm.trans same) nofun

/-- A path enters another constant or goes further inside, unless it goes through a spread. -/
theorem spread_or_below (hm : m.Sound) (ha : m.root.Contains a.2) (h : TransGen m.Asks a b) :
    (∃ property x y, ReflTransGen m.Asks a x ∧ property.kind = .spread ∧ m.AsksBy property x y ∧
      ReflTransGen m.Asks y b) ∨
      a.1.length < b.1.length ∨ (a.1.length ≤ b.1.length ∧ nodeHeight b.2 < nodeHeight a.2) := by
  have hone {x y : List String × Node} (hx : m.root.Contains x.2) (hstep : m.Asks x y) :
      (∃ property, property.kind = .spread ∧ m.AsksBy property x y) ∨
        x.1.length < y.1.length ∨ (x.1.length ≤ y.1.length ∧ nodeHeight y.2 < nodeHeight x.2) := by
    obtain ⟨property, hstep⟩ := hstep
    have hchild := nodeHeight_child (Node.named_mem hstep.mem)
    obtain ⟨-, (⟨hsame, hin⟩ | ⟨name, -, -, hy⟩) | ⟨hspread, -⟩⟩ := hstep.known hm hx
    · exact .inr (.inr ⟨by rw [hsame], Nat.lt_of_le_of_lt (nodeHeight_le hin) hchild⟩)
    · exact .inr (.inl (by simp [hy]))
    · exact .inl ⟨property, hspread, hstep⟩
  induction h with
  | single hstep =>
    rcases hone ha hstep with ⟨property, hspread, hab⟩ | hab
    · exact .inl ⟨property, _, _, .refl, hspread, hab, .refl⟩
    · exact .inr hab
  | @tail x y hpath hstep ih =>
    rcases ih with ⟨property, u, v, hu, hspread, huv, hv⟩ | ih
    · exact .inl ⟨property, u, v, hu, hspread, huv, hv.tail hstep⟩
    · rcases hone (Asks.contains_of_reflTransGen hm ha hpath.to_reflTransGen) hstep with
        ⟨property, hspread, hxy⟩ | hxy
      · exact .inl ⟨property, x, y, hpath.to_reflTransGen, hspread, hxy, .refl⟩
      · exact .inr (by omega)

end Asks

private theorem exportOf_ne_endless (statement : Node) :
    m.exportOf statement ≠ .error .endless := by
  rw [exportOf]
  split_ifs
  · exact pure_ne_endless _
  · cases statement.named.head? with
    | none => exact pure_ne_endless _
    | some first =>
      simp only [Option.map_some]
      generalize first.unwrap = e
      cases e.child? .left with
      | none =>
        obtain ⟨kind, role, start, stop, text, children⟩ := e
        cases kind <;> exact pure_ne_endless _
      | some left =>
        obtain ⟨kind, role, start, stop, text, children⟩ := e
        cases kind with
        | assignment =>
          refine bind_ne_endless (textOf_ne_endless _ left) fun text => ?_
          split_ifs <;> exact pure_ne_endless _
        | _ => exact pure_ne_endless _
  · exact pure_ne_endless _

/-- What is exported stands in one of the statements. -/
theorem exportOf_contains {statement n : Node} (h : m.exportOf statement = .ok (some (some n))) :
    statement.Contains n := by
  rw [exportOf] at h
  split_ifs at h with hdefault hexpression
  · have hor := Option.some.inj (Except.ok.inj h)
    rcases Option.or_eq_some_iff.mp hor with hvalue | ⟨-, hdeclaration⟩
    · exact Node.contains_child? hvalue
    · exact Node.contains_child? hdeclaration
  · cases hfirst : statement.named.head? with
    | none =>
      rw [hfirst] at h
      cases h
    | some first =>
      rw [hfirst] at h
      simp only [Option.map_some] at h
      refine (below_named hfirst).1.trans ((Node.contains_unwrap first).trans ?_)
      generalize first.unwrap = e at h
      by_cases hk : e.kind = .assignment
      · cases hleft : e.child? .left with
        | none =>
          simp only [hk, hleft] at h
          cases h
        | some left =>
          simp only [hk, hleft] at h
          obtain ⟨text, -, h⟩ := bind_eq_ok.mp h
          split_ifs at h
          · exact Node.contains_child? (Option.some.inj (Except.ok.inj h))
          · cases h
      · obtain ⟨kind, role, start, stop, text, children⟩ := e
        cases kind with
        | assignment => contradiction
        | _ => cases h
  · cases h

private theorem defaultExport_ne_endless (statements : List Node) :
    m.defaultExport statements ≠ .error .endless := by
  induction statements with
  | nil => exact pure_ne_endless _
  | cons statement rest ih =>
    rw [defaultExport]
    refine bind_ne_endless (exportOf_ne_endless statement) fun exported => ?_
    cases exported with
    | none => exact ih
    | some n => exact pure_ne_endless _

private theorem defaultExport_contains {statements : List Node} {n : Node}
    (h : m.defaultExport statements = .ok (some n)) :
    ∃ statement ∈ statements, statement.Contains n := by
  induction statements with
  | nil => cases h
  | cons statement rest ih =>
    rw [defaultExport] at h
    obtain ⟨exported, hexported, h⟩ := bind_eq_ok.mp h
    cases exported with
    | none =>
      obtain ⟨s, hs, hn⟩ := ih h
      exact ⟨s, List.mem_cons_of_mem statement hs, hn⟩
    | some found =>
      obtain rfl := Except.ok.inj h
      exact ⟨statement, List.mem_cons_self, exportOf_contains hexported⟩

def exported? (m : ThemeModule) : Reading (Option Node) := do
  m.object? m.depth [] (← m.defaultExport m.root.named)

theorem defaultExport_root {n : Option Node} (h : m.defaultExport m.root.named = .ok n) :
    ∀ x ∈ n, m.root.Contains x := by
  intro x hx
  obtain rfl : n = some x := hx
  obtain ⟨statement, hs, hin⟩ := defaultExport_contains h
  exact (Node.contains_named hs).trans hin

private theorem exported?_ne_endless (hm : m.Sound) : m.exported? ≠ .error .endless := by
  rw [exported?]
  cases h : m.defaultExport m.root.named with
  | error e =>
    exact fun he => defaultExport_ne_endless m.root.named
      (h.trans (congrArg Except.error (Except.error.inj he)))
  | ok n => exact object?_ne_endless hm [] (defaultExport_root h)

theorem exported?_object (hm : m.Sound) {object : Node} (h : m.exported? = .ok (some object)) :
    m.root.Contains object := by
  obtain ⟨n, hn, h⟩ := bind_eq_ok.mp h
  exact (object?_object hm (defaultExport_root hn) h).1

end ThemeModule

/-- The data of an object as the data of the module. -/
def dataOf (entries : Table String Value) : List (Value × Value) :=
  entries.map fun e => (.text e.1, e.2)

theorem readModule_eq (dialect : Dialect) (source : Bytes) :
    readModule dialect source =
      ThemeModule.ofTree source (parse dialect (decodeMasking source)) >>= fun m => m.exported? >>=
        fun object =>
        object.elim (.error .noObject) fun object =>
          (m.entriesOf m.limit [] object).map dataOf := by
  rw [readModule]
  cases ThemeModule.ofTree source (parse dialect (decodeMasking source)) with
  | error e => rfl
  | ok m =>
    simp only [ThemeModule.exported?, bind, Except.bind]
    cases m.defaultExport m.root.named with
    | error e => rfl
    | ok n =>
      simp only
      cases m.object? m.depth [] n with
      | error e => rfl
      | ok object =>
        cases object with
        | none => rfl
        | some object =>
          simp only [Option.elim]
          cases m.entriesOf m.limit [] object <;> rfl

/-- A module cannot be read exactly if the object it exports comes back to one that is already being
read. -/
theorem readModule_eq_endless_iff (dialect : Dialect) (source : Bytes) :
    readModule dialect source = .error .endless ↔
      ∃ m object, ThemeModule.ofTree source (parse dialect (decodeMasking source)) = .ok m ∧
        m.exported? = .ok (some object) ∧ m.Circular ([], object) := by
  rw [readModule_eq]
  cases hm : ThemeModule.ofTree source (parse dialect (decodeMasking source)) with
  | error e =>
    have he : e ≠ .endless := fun h => ThemeModule.ofTree_ne_endless _ _ (h ▸ hm)
    simp [bind, Except.bind, he]
  | ok m =>
    obtain ⟨-, hsound⟩ := ThemeModule.sound_of_ofTree hm
    cases hobject : m.exported? with
    | error e =>
      have he : e ≠ .endless := fun h => ThemeModule.exported?_ne_endless hsound (h ▸ hobject)
      simp [bind, Except.bind, he, hobject]
    | ok found =>
      cases found with
      | none => simp [bind, Except.bind, hobject]
      | some object =>
        have hin := ThemeModule.exported?_object hsound hobject
        have hread : (m.entriesOf m.limit [] object).map dataOf = .error .endless ↔
            m.Circular ([], object) := by
          rw [map_eq_endless_iff]
          refine ⟨fun h => ?_, fun hc => ThemeModule.endless_of_circular hsound hin hc m.limit⟩
          by_contra hc
          exact ThemeModule.entriesOf_limit hsound hin hc h
        simpa [bind, Except.bind, hobject] using hread

/-- For every expression of a module, whatever constants led to it, the object behind it is found
within `depth`, and its data are read within `limit`, unless an object on the way asks for itself.
Then no depth is enough. All such circles go through a spread: constants that name each other by
aliases, shorthand properties, calls or nested objects do no harm. -/
theorem module_reading_bounded {source : Bytes} {root : Node} {m : ThemeModule}
    (hm : ThemeModule.ofTree source root = .ok m) (seen : List String) {n : Node}
    (hn : root.Contains n) :
    Ends (m.object? · seen (some n)) m.depth ∧
      (¬m.Circular (seen, n) → Ends (m.entriesOf · seen n) m.limit) ∧
      (m.Circular (seen, n) → ∀ depth, m.entriesOf depth seen n = .error .endless) ∧
      ((∀ s, m.shown? seen (some n) = .ok (some s) → ¬m.Circular s) →
        Ends (m.valueOf · seen (some n)) (m.limit + 1)) ∧
      (∀ s, m.shown? seen (some n) = .ok (some s) → m.Circular s →
        ∀ depth, m.valueOf depth seen (some n) = .error .endless) ∧
      ∀ s, ReflTransGen m.Asks (seen, n) s → TransGen m.Asks s s →
      ∃ property x y, property.kind = .spread ∧
        ReflTransGen m.Asks s x ∧ m.AsksBy property x y ∧ ReflTransGen m.Asks y s := by
  obtain ⟨rfl, hsound⟩ := ThemeModule.sound_of_ofTree hm
  refine ⟨?_, ThemeModule.entriesOf_ends hsound (a := (seen, n)) hn,
    ThemeModule.endless_of_circular hsound hn,
    ThemeModule.valueOf_ends hsound hn, fun s => ThemeModule.valueOf_endless hsound hn,
    fun s hs hcircle => ?_⟩
  · have hroot : ∀ x ∈ some n, m.root.Contains x := fun x hx => Option.some.inj hx ▸ hn
    obtain ⟨r, hr, -, hsame⟩ := ThemeModule.object?_ends hsound hroot
    exact ⟨r, hr, fun depth hle =>
      hsame depth (Nat.le_trans (ThemeModule.reach_le_depth hsound seen hroot) hle)⟩
  · have hin := ThemeModule.Asks.contains_of_reflTransGen hsound (a := (seen, n)) hn hs
    rcases ThemeModule.spread_or_below hsound hin hcircle with
      ⟨property, x, y, hx, hspread, hxy, hy⟩ | hbelow
    · exact ⟨property, x, y, hspread, hx, hxy, hy⟩
    · omega

/-- Two constants that name each other, one of them also spread from a third. -/
def namingEachOther : Bytes :=
  encode "const c=\x7bx:'r'\x7d,a=\x7bb\x7d,b=\x7b...c,a\x7d;export default a"

theorem module_reading_bounded_naming :
    ∃ m object, ThemeModule.ofTree namingEachOther (parse .script (decodeMasking namingEachOther)) =
      .ok m ∧ m.exported? = .ok (some object) ∧ m.root.Contains object ∧ ¬m.Circular ([], object) ∧
      Ends (m.object? · [] (some object)) m.depth ∧ Ends (m.entriesOf · [] object) m.limit := by
  have hok : (readModule .script namingEachOther).toOption.isSome = true := by decide +kernel
  cases hread : readModule .script namingEachOther with
  | error e =>
    rw [hread] at hok
    cases hok
  | ok data =>
    rw [readModule_eq] at hread
    obtain ⟨m, hm, hread⟩ := bind_eq_ok.mp hread
    obtain ⟨found, hobject, hread⟩ := bind_eq_ok.mp hread
    cases found with
    | none => cases hread
    | some object =>
      obtain ⟨hroot, hsound⟩ := ThemeModule.sound_of_ofTree hm
      have hin := ThemeModule.exported?_object hsound hobject
      obtain ⟨hfound, hends, hendless, -⟩ := module_reading_bounded hm [] (hroot ▸ hin)
      -- what has been read has no circle
      have hc : ¬m.Circular ([], object) := by
        intro hc
        rw [Option.elim, hendless hc] at hread
        cases hread
      exact ⟨m, object, hm, hobject, hin, hc, hfound, hends hc⟩

/-- An object that is spread into itself. -/
def spreadIntoItself : Bytes :=
  encode "const a=\x7b...a\x7d;export default a"

/-- No depth is enough for it. -/
theorem module_reading_unbounded :
    ∃ m object, ThemeModule.ofTree spreadIntoItself
      (parse .script (decodeMasking spreadIntoItself)) = .ok m ∧
      m.exported? = .ok (some object) ∧ ∀ depth, m.entriesOf depth [] object = .error .endless := by
  have hread : readModule .script spreadIntoItself = .error .endless := by
    have hlength : (readModule .script spreadIntoItself).map List.length = .error .endless := by
      decide +kernel
    exact map_eq_endless_iff.mp hlength
  obtain ⟨m, object, hm, hobject, hc⟩ := (readModule_eq_endless_iff _ _).mp hread
  obtain ⟨-, hsound⟩ := ThemeModule.sound_of_ofTree hm
  exact ⟨m, object, hm, hobject,
    ThemeModule.endless_of_circular hsound (ThemeModule.exported?_object hsound hobject) hc⟩

end ThemedCss.Theme
