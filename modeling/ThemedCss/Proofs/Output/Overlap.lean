import Mathlib.Data.List.Chain
import ThemedCss.Proofs.Output.Edit

/-! When edits can be applied, and what any order of them leads to. -/
namespace ThemedCss.Output
open ThemedCss.Text

def Edit.range (e : Edit) : Int × Int :=
  (e.start, e.stop)

/-- The order of ranges: by the start, and at one start the shorter one first. So an insertion comes
before a replacement that starts at the same place. -/
def Edit.NotAfter (a b : Edit) : Prop :=
  a.start < b.start ∨ a.start = b.start ∧ a.stop ≤ b.stop

/-- Edits in the order of their ranges. Those with the same range come in the reverse of the order
in which they were given. -/
structure Ordered (edits ordered : List Edit) : Prop where
  sorted : ordered.Pairwise Edit.NotAfter
  alike : ∀ range, (ordered.filter fun e => e.range = range) =
    (edits.filter fun e => e.range = range).reverse

def Overlapping (ordered : List Edit) : Prop :=
  ∃ before a b after, ordered = before ++ a :: b :: after ∧ b.start < a.stop

def Edit.Together (a b : Edit) : Prop :=
  a.start = a.stop ∧ b.start = b.stop ∧ a.start = b.start

/-- Where applying edits with these ranges, from the last one to the first, meets an overlap. -/
def overlapAt : Int → List (Int × Int) → Option Int
  | _, [] => none
  | limit, (start, stop) :: rest => if limit < stop then some start else overlapAt start rest

section Order

theorem Edit.notBefore_iff_notAfter {a b : Edit} : a.notBefore b = true ↔ b.NotAfter a :=
  Edit.notBefore_iff

theorem Edit.range_eq_of_notAfter {a b : Edit} (hab : a.NotAfter b) (hba : b.NotAfter a) :
    a.range = b.range := by
  unfold Edit.NotAfter at hab hba
  exact Prod.ext (show a.start = b.start by omega) (show a.stop = b.stop by omega)

theorem Edit.notAfter_of_range_eq {a b : Edit} (h : a.range = b.range) : a.NotAfter b := by
  obtain ⟨hstart, hstop⟩ := Prod.mk.inj h
  exact .inr ⟨hstart, Int.le_of_eq hstop⟩

/-- Sorting does not change the order of edits with the same range. -/
theorem filter_sorted (edits : List Edit) (range : Int × Int) :
    ((edits.mergeSort Edit.notBefore).filter fun e => e.range = range) =
      edits.filter fun e => e.range = range := by
  have hrange : ∀ e ∈ edits.filter (fun e => e.range = range), e.range = range := by
    intro e he
    simpa using (List.mem_filter.mp he).2
  have hpairwise : (edits.filter fun e => e.range = range).Pairwise fun a b =>
      a.notBefore b = true := by
    apply List.pairwise_of_forall_mem_list
    intro a ha b hb
    rw [Edit.notBefore_iff_notAfter]
    exact Edit.notAfter_of_range_eq ((hrange b hb).trans (hrange a ha).symm)
  have hsublist : (edits.filter fun e => e.range = range).Sublist
      (edits.mergeSort Edit.notBefore) := by
    apply List.sublist_mergeSort _ _ hpairwise List.filter_sublist
    · intro a b c hab hbc
      rw [Edit.notBefore_iff] at *
      omega
    · intro a b
      rw [Bool.or_eq_true, Edit.notBefore_iff, Edit.notBefore_iff]
      omega
  have hfilter := hsublist.filter fun e => e.range = range
  rw [List.filter_filter] at hfilter
  simp only [Bool.and_self] at hfilter
  have hperm := (List.mergeSort_perm edits Edit.notBefore).filter fun e => e.range = range
  exact (hfilter.eq_of_length hperm.length_eq.symm).symm

private theorem ordered_reverse_sorted (edits : List Edit) :
    Ordered edits (edits.mergeSort Edit.notBefore).reverse where
  sorted := by
    rw [List.pairwise_reverse]
    exact (pairwise_sorted edits).imp fun hab => Edit.notBefore_iff_notAfter.mp hab
  alike range := by
    rw [List.filter_reverse, filter_sorted]

theorem mem_iff_of_filter_eq {xs ys : List Edit}
    (h : ∀ range, (xs.filter fun e => e.range = range) = ys.filter fun e => e.range = range)
    (e : Edit) : e ∈ xs ↔ e ∈ ys := by
  have hiff : e ∈ (xs.filter fun d => d.range = e.range) ↔
      e ∈ ys.filter fun d => d.range = e.range := by rw [h]
  simpa using hiff

/-- Sorted lists in which the edits of each range are the same are equal. -/
theorem eq_of_filter_eq {xs ys : List Edit} (hxs : xs.Pairwise Edit.NotAfter)
    (hys : ys.Pairwise Edit.NotAfter)
    (h : ∀ range, (xs.filter fun e => e.range = range) = ys.filter fun e => e.range = range) :
    xs = ys := by
  induction xs generalizing ys with
  | nil =>
    cases ys with
    | nil => rfl
    | cons y ys => exact absurd ((mem_iff_of_filter_eq h y).mpr List.mem_cons_self) (by simp)
  | cons x xs ih =>
    have hmem := mem_iff_of_filter_eq h
    cases ys with
    | nil => exact absurd ((hmem x).mp List.mem_cons_self) (by simp)
    | cons y ys =>
      obtain ⟨hx, hxs'⟩ := List.pairwise_cons.mp hxs
      obtain ⟨hy, hys'⟩ := List.pairwise_cons.mp hys
      have hrefl : ∀ e : Edit, e.NotAfter e := fun e => Edit.notAfter_of_range_eq rfl
      have hyx : y.NotAfter x := by
        rcases List.mem_cons.mp ((hmem x).mp List.mem_cons_self) with rfl | hmem
        · exact hrefl x
        · exact hy x hmem
      have hxy : x.NotAfter y := by
        rcases List.mem_cons.mp ((hmem y).mpr List.mem_cons_self) with rfl | hmem
        · exact hrefl y
        · exact hx y hmem
      have hrange : y.range = x.range := Edit.range_eq_of_notAfter hyx hxy
      -- the heads have the same range, so both come first among the edits of that range
      obtain rfl : x = y := by
        have hhead := h x.range
        simp only [List.filter_cons, hrange, decide_true, if_true, List.cons.injEq] at hhead
        exact hhead.1
      have htail : ∀ range, (xs.filter fun e => e.range = range) =
          ys.filter fun e => e.range = range := by
        intro range
        have hall := h range
        by_cases hr : x.range = range
        · simpa [List.filter_cons, hr] using hall
        · simpa [List.filter_cons, hr] using hall
      rw [ih hxs' hys' htail]

/-- There is one way to put edits in order. -/
theorem ordered_iff {edits ordered : List Edit} :
    Ordered edits ordered ↔ ordered = (edits.mergeSort Edit.notBefore).reverse := by
  have hsorted := ordered_reverse_sorted edits
  constructor
  · intro h
    apply eq_of_filter_eq h.sorted hsorted.sorted
    intro range
    rw [h.alike, hsorted.alike]
  · rintro rfl
    exact hsorted

end Order

section Failure

variable {limit : Int} {bytes : Bytes} {edits : List Edit}

theorem not_overlapping_iff {ordered : List Edit} :
    ¬Overlapping ordered ↔ ordered.IsChain fun a b => a.stop ≤ b.start := by
  rw [List.isChain_iff_forall_rel_of_append_cons_cons]
  unfold Overlapping
  constructor
  · intro h a b before after heq
    by_contra hlt
    exact h ⟨before, a, b, after, heq, by omega⟩
  · rintro h ⟨before, a, b, after, heq, hlt⟩
    have hle := h heq
    omega

/-- Only ranges decide where applying edits fails. -/
theorem applySorted_eq_error_iff {pos : Int} :
    applySorted limit bytes edits = .error pos ↔
      overlapAt limit (edits.map Edit.range) = some pos := by
  induction edits generalizing limit bytes with
  | nil => simp [applySorted, overlapAt]
  | cons e rest ih =>
    rw [applySorted, List.map_cons, Edit.range, overlapAt]
    split_ifs with hlimit
    · simp
    · exact ih

theorem overlapAt_eq_none_iff :
    overlapAt limit (edits.map Edit.range) = none ↔
      (∀ e ∈ edits.head?, e.stop ≤ limit) ∧ edits.IsChain fun a b => b.stop ≤ a.start := by
  induction edits generalizing limit with
  | nil => simp [overlapAt]
  | cons e rest ih =>
    rw [List.map_cons, Edit.range, overlapAt]
    split_ifs with hlimit
    · refine iff_of_false (by simp) ?_
      rintro ⟨hhead, -⟩
      have hle := hhead e rfl
      omega
    · rw [ih]
      cases rest with
      | nil => simp; omega
      | cons d rest => simp [List.isChain_cons_cons]; omega

private theorem pairwise_of_isChain (hle : ∀ e ∈ edits, e.start ≤ e.stop)
    (h : edits.IsChain fun a b => b.stop ≤ a.start) :
    edits.Pairwise fun a b => b.stop ≤ a.start := by
  induction edits with
  | nil => exact .nil
  | cons a rest ih =>
    have hrest : rest.Pairwise fun a b => b.stop ≤ a.start := by
      apply ih (fun e he => hle e (List.mem_cons_of_mem _ he))
      exact h.tail
    refine List.pairwise_cons.mpr ⟨?_, hrest⟩
    cases rest with
    | nil => simp
    | cons b rest =>
      have hab : b.stop ≤ a.start := (List.isChain_cons_cons.mp h).1
      have hb : b.start ≤ b.stop := hle b (by simp)
      intro c hc
      rcases List.mem_cons.mp hc with rfl | hc
      · exact hab
      · have hcb := (List.pairwise_cons.mp hrest).1 c hc
        omega

end Failure

section Outcome

variable {source : Bytes} {edits : List Edit}
  (hrange : ∀ e ∈ edits, e.start ≤ e.stop ∧ e.stop ≤ source.length)
include hrange

theorem sorted_within :
    ∀ e ∈ edits.mergeSort Edit.notBefore, e.start ≤ e.stop ∧ e.stop ≤ source.length :=
  fun e he => hrange e ((List.mergeSort_perm edits Edit.notBefore).mem_iff.mp he)

/-- Applying edits of ranges of a text meets no overlap exactly if none ends behind the start of the
next one. -/
theorem overlapAt_sorted :
    overlapAt (source.length + 1) ((edits.mergeSort Edit.notBefore).map Edit.range) = none ↔
      ¬Overlapping (edits.mergeSort Edit.notBefore).reverse := by
  rw [not_overlapping_iff, List.isChain_reverse, overlapAt_eq_none_iff]
  apply and_iff_right
  intro e he
  have hstop := (sorted_within hrange e (List.mem_of_mem_head? he)).2
  omega

theorem apply_eq_error_iff :
    (∃ pos, apply source edits = .error pos) ↔
      Overlapping (edits.mergeSort Edit.notBefore).reverse := by
  unfold apply
  simp only [applySorted_eq_error_iff]
  rw [← Option.isSome_iff_exists, Option.isSome_iff_ne_none, Ne, overlapAt_sorted hrange, not_not]

theorem sorted_pairwise (h : ¬Overlapping (edits.mergeSort Edit.notBefore).reverse) :
    (edits.mergeSort Edit.notBefore).Pairwise fun a b => b.stop ≤ a.start := by
  rw [not_overlapping_iff, List.isChain_reverse] at h
  exact pairwise_of_isChain (fun e he => (sorted_within hrange e he).1) h

theorem apply_eq_splice_of_not_overlapping (hnonneg : ∀ e ∈ edits, 0 ≤ e.start)
    (h : ¬Overlapping (edits.mergeSort Edit.notBefore).reverse) :
    apply source edits = .ok (splice source 0 (edits.mergeSort Edit.notBefore).reverse) := by
  have hfits : ∀ e ∈ edits.mergeSort Edit.notBefore, e.Fits source.length := by
    intro e he
    obtain ⟨hle, hstop⟩ := sorted_within hrange e he
    exact ⟨hnonneg e ((List.mergeSort_perm edits Edit.notBefore).mem_iff.mp he), hle, hstop⟩
  have hlimit : ∀ e ∈ edits.mergeSort Edit.notBefore, e.stop ≤ (source.length : Int) + 1 := by
    intro e he
    have hstop := (hfits e he).bounded
    omega
  have hrun : applySorted _ (splice source 0 []) _ = _ :=
    applySorted_eq_splice hfits (sorted_pairwise hrange h) hlimit (by simp)
  rw [List.append_nil] at hrun
  exact hrun

/-- Where no range comes twice, there is one sorted list. -/
theorem sorted_eq_of_not_overlapping {edits' : List Edit} (hperm : edits'.Perm edits)
    (htogether : edits.Pairwise fun a b => ¬a.Together b)
    (h : ¬Overlapping (edits.mergeSort Edit.notBefore).reverse) :
    edits'.mergeSort Edit.notBefore = edits.mergeSort Edit.notBefore := by
  have hsortedPerm := List.mergeSort_perm edits Edit.notBefore
  have hperm' : (edits'.mergeSort Edit.notBefore).Perm (edits.mergeSort Edit.notBefore) :=
    ((List.mergeSort_perm edits' Edit.notBefore).trans hperm).trans hsortedPerm.symm
  have hapart : (edits.mergeSort Edit.notBefore).Pairwise fun a b => ¬a.Together b := by
    refine (hsortedPerm.pairwise_iff ?_).mpr htogether
    rintro a b hab ⟨hb, ha, hstart⟩
    exact hab ⟨ha, hb, hstart.symm⟩
  have hranges : ((edits.mergeSort Edit.notBefore).map Edit.range).Nodup := by
    refine List.pairwise_map.mpr (((sorted_pairwise hrange h).and hapart).imp_of_mem ?_)
    intro a b ha hb hab heq
    obtain ⟨hstop, hnot⟩ := hab
    obtain ⟨hstartEq, hstopEq⟩ := Prod.mk.inj heq
    have hle := (sorted_within hrange b hb).1
    exact hnot ⟨by omega, by omega, hstartEq⟩
  refine List.Perm.eq_of_pairwise ?_ (pairwise_sorted edits') (pairwise_sorted edits) hperm'
  intro a b ha hb hab hba
  apply List.inj_on_of_nodup_map hranges (hperm'.mem_iff.mp ha) hb
  exact Edit.range_eq_of_notAfter (Edit.notBefore_iff_notAfter.mp hba)
    (Edit.notBefore_iff_notAfter.mp hab)

end Outcome

/-- The ranges of sorted edits do not depend on the order in which the edits were given. -/
theorem map_range_sorted {edits edits' : List Edit} (hperm : edits'.Perm edits) :
    (edits'.mergeSort Edit.notBefore).map Edit.range =
      (edits.mergeSort Edit.notBefore).map Edit.range := by
  have hsorted : ∀ xs : List Edit,
      ((xs.mergeSort Edit.notBefore).map Edit.range).Pairwise fun p q =>
      q.1 < p.1 ∨ q.1 = p.1 ∧ q.2 ≤ p.2 := by
    intro xs
    exact List.pairwise_map.mpr ((pairwise_sorted xs).imp fun hab => Edit.notBefore_iff.mp hab)
  refine List.Perm.eq_of_pairwise ?_ (hsorted edits') (hsorted edits) ?_
  · intro p q _ _ hpq hqp
    exact Prod.ext (by omega) (by omega)
  · apply List.Perm.map
    exact ((List.mergeSort_perm edits' _).trans hperm).trans (List.mergeSort_perm edits _).symm

/-- Without two insertions at one place, the order in which edits are given does not matter. -/
theorem apply_eq_of_perm {source : Bytes} {edits edits' : List Edit}
    (hrange : ∀ e ∈ edits, e.start ≤ e.stop ∧ e.stop ≤ source.length) (hperm : edits'.Perm edits)
    (htogether : edits.Pairwise fun a b => ¬a.Together b) :
    apply source edits' = apply source edits := by
  unfold apply
  cases hoverlap : overlapAt (source.length + 1)
    ((edits.mergeSort Edit.notBefore).map Edit.range) with
  | none =>
    rw [sorted_eq_of_not_overlapping hrange hperm htogether ((overlapAt_sorted hrange).mp hoverlap)]
  | some pos =>
    have herror := hoverlap
    rw [← map_range_sorted hperm] at herror
    rw [applySorted_eq_error_iff.mpr hoverlap, applySorted_eq_error_iff.mpr herror]

/-- Edits of ranges of a text have one order: by their ranges, an insertion before a replacement
that starts at the same place, and equal ranges in the reverse of the given order. Applying them
fails exactly if in this order one ends behind the start of the next. Otherwise the outcome is the
text with their ranges replaced from left to right. The order in which they are given has no
influence on it, unless two insertions are at one place. -/
theorem apply_fails_iff_overlapping (source : Bytes) (edits : List Edit)
    (hrange : ∀ e ∈ edits, e.start ≤ e.stop ∧ e.stop ≤ source.length) :
    ∃ ordered, (∀ other, Ordered edits other ↔ other = ordered) ∧ ordered.Perm edits ∧
      ((∃ pos, apply source edits = .error pos) ↔ Overlapping ordered) ∧
      (¬Overlapping ordered → (∀ e ∈ edits, 0 ≤ e.start) →
        apply source edits = .ok (splice source 0 ordered)) ∧
      ((edits.Pairwise fun a b => ¬a.Together b) →
        ∀ edits' : List Edit, edits'.Perm edits → apply source edits' = apply source edits) := by
  refine ⟨(edits.mergeSort Edit.notBefore).reverse, fun other => ordered_iff, ?_,
    apply_eq_error_iff hrange, ?_, ?_⟩
  · exact (List.reverse_perm _).trans (List.mergeSort_perm edits _)
  · intro hoverlap hnonneg
    exact apply_eq_splice_of_not_overlapping hrange hnonneg hoverlap
  · intro htogether edits' hperm
    exact apply_eq_of_perm hrange hperm htogether

/-- Two insertions in front of a replacement, and two edits of which one ends inside the other. -/
theorem apply_fails_iff_overlapping_tied :
    apply [1, 2, 3] [⟨1, 1, [7]⟩, ⟨1, 2, [8]⟩, ⟨1, 1, [9]⟩] = .ok [1, 9, 7, 8, 3] ∧
      ∃ pos, apply [1, 2, 3] [⟨1, 3, [7]⟩, ⟨0, 2, [8]⟩] = .error pos := by
  constructor
  · obtain ⟨ordered, honly, -, -, hsplice, -⟩ :=
      apply_fails_iff_overlapping [1, 2, 3] [⟨1, 1, [7]⟩, ⟨1, 2, [8]⟩, ⟨1, 1, [9]⟩] (by decide)
    have hordered : Ordered [⟨1, 1, [7]⟩, ⟨1, 2, [8]⟩, ⟨1, 1, [9]⟩]
        [⟨1, 1, [9]⟩, ⟨1, 1, [7]⟩, ⟨1, 2, [8]⟩] := by
      refine ⟨by simp [Edit.NotAfter], fun range => ?_⟩
      by_cases hshort : range = (1, 1)
      · subst hshort
        decide
      · by_cases hlong : range = (1, 2)
        · subst hlong
          decide
        · simp [Edit.range, Ne.symm hshort, Ne.symm hlong]
    obtain rfl := (honly _).mp hordered
    exact hsplice (not_overlapping_iff.mpr (by simp)) (by decide)
  · obtain ⟨ordered, honly, -, hfails, -, -⟩ :=
      apply_fails_iff_overlapping [1, 2, 3] [⟨1, 3, [7]⟩, ⟨0, 2, [8]⟩] (by decide)
    have hordered : Ordered [⟨1, 3, [7]⟩, ⟨0, 2, [8]⟩] [⟨0, 2, [8]⟩, ⟨1, 3, [7]⟩] := by
      refine ⟨by simp [Edit.NotAfter], fun range => ?_⟩
      by_cases hfirst : range = (0, 2)
      · subst hfirst
        decide
      · by_cases hsecond : range = (1, 3)
        · subst hsecond
          decide
        · simp [Edit.range, Ne.symm hfirst, Ne.symm hsecond]
    obtain rfl := (honly _).mp hordered
    exact hfails.mpr ⟨[], _, _, [], rfl, by decide⟩

end ThemedCss.Output
