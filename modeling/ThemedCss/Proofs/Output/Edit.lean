import Mathlib.Data.List.Nodup
import Mathlib.Tactic.SplitIfs
import ThemedCss.Output.Edit

/-! Edits that do not overlap replace their ranges and nothing else. -/
namespace ThemedCss.Output
open ThemedCss.Text

variable {source : Bytes}

/-- The bytes from `cursor` on, with the ranges of the edits replaced from left to right. -/
def splice (source : Bytes) : Nat → List Edit → Bytes
  | cursor, [] => source.drop cursor
  | cursor, e :: rest =>
    slice source cursor e.start.toNat ++ e.text ++ splice source e.stop.toNat rest

structure Edit.Fits (e : Edit) (size : Nat) : Prop where
  nonneg : 0 ≤ e.start
  le : e.start ≤ e.stop
  bounded : e.stop ≤ size

/-- Two edits that do not overlap. -/
def Edit.Apart (a b : Edit) : Prop :=
  a.stop ≤ b.start ∨ b.stop ≤ a.start

theorem Edit.Apart.symm {a b : Edit} (h : a.Apart b) : b.Apart a :=
  Or.symm h

theorem slice_append_slice (bytes : Bytes) {a b c : Nat} (hab : a ≤ b) (hbc : b ≤ c) :
    slice bytes a b ++ slice bytes b c = slice bytes a c := by
  have hdrop : bytes.drop b = (bytes.drop a).drop (b - a) := by
    rw [List.drop_drop, Nat.add_sub_cancel' hab]
  have hlen : c - a = (b - a) + (c - b) := by omega
  rw [slice, slice, slice, hdrop, hlen, List.take_add]

theorem slice_append_drop (bytes : Bytes) {a b : Nat} (hab : a ≤ b) :
    slice bytes a b ++ bytes.drop b = bytes.drop a := by
  have hdrop : bytes.drop b = (bytes.drop a).drop (b - a) := by
    rw [List.drop_drop, Nat.add_sub_cancel' hab]
  rw [slice, hdrop, List.take_append_drop]

theorem length_slice (bytes : Bytes) {a b : Nat} (hb : b ≤ bytes.length) :
    (slice bytes a b).length = b - a := by
  rw [slice, List.length_take, List.length_drop]
  omega

theorem slice_take (bytes : Bytes) {a b p : Nat} (hb : b ≤ p) :
    slice (bytes.take p) a b = slice bytes a b := by
  rw [slice, slice, List.drop_take, List.take_take]
  congr 1
  omega

theorem drop_take_eq_slice (bytes : Bytes) (a p : Nat) :
    (bytes.take p).drop a = slice bytes a p := by
  rw [slice, List.drop_take]

/-- Bytes before the first edit are copied. -/
theorem splice_eq_append {edits : List Edit} {cursor p : Nat} (hp : cursor ≤ p)
    (h : ∀ e ∈ edits, (p : Int) ≤ e.start) :
    splice source cursor edits = slice source cursor p ++ splice source p edits := by
  cases edits with
  | nil => exact (slice_append_drop source hp).symm
  | cons e rest =>
    have he : p ≤ e.start.toNat := by
      have := h e List.mem_cons_self
      omega
    simp only [splice, ← slice_append_slice source hp he, List.append_assoc]

/-- One more edit before the others. -/
theorem splice_insert {e : Edit} {done : List Edit} (he : e.Fits source.length)
    (hdone : ∀ d ∈ done, e.stop ≤ d.start) :
    (splice source 0 done).take (place (splice source 0 done) e.start) ++ e.text ++
      (splice source 0 done).drop (place (splice source 0 done) e.stop) =
        splice source 0 (e :: done) := by
  obtain ⟨hstart, hle, hstop⟩ := he
  have hat : ∀ pos : Int, 0 ≤ pos → pos ≤ e.stop → pos ≤ source.length →
      (splice source 0 done).take pos.toNat = slice source 0 pos.toNat ∧
        (splice source 0 done).drop pos.toNat = splice source pos.toNat done := by
    intro pos hpos hposStop hposLen
    have hlen : (slice source 0 pos.toNat).length = pos.toNat := by
      rw [length_slice source (by omega)]
      omega
    have hsplit : splice source 0 done =
        slice source 0 pos.toNat ++ splice source pos.toNat done := by
      refine splice_eq_append (Nat.zero_le _) fun d hd => ?_
      have := hdone d hd
      omega
    rw [hsplit, List.take_left' hlen, List.drop_left' hlen]
    exact ⟨rfl, rfl⟩
  have hplace : ∀ (bytes : Bytes) (pos : Int), 0 ≤ pos → place bytes pos = pos.toNat := by
    intro bytes pos hpos
    rw [place, if_neg (by omega)]
  rw [hplace _ _ hstart, hplace _ _ (by omega), (hat e.start hstart hle (by omega)).1,
    (hat e.stop (by omega) (Int.le_refl _) hstop).2]
  rfl

/-- Edits from the last one to the first, after the edits that are `done`. -/
theorem applySorted_eq_splice {limit : Int} {rest done : List Edit}
    (hfits : ∀ e ∈ rest, e.Fits source.length) (hrest : rest.Pairwise fun a b => b.stop ≤ a.start)
    (hlimit : ∀ e ∈ rest, e.stop ≤ limit) (hdone : ∀ d ∈ done, limit ≤ d.start) :
    applySorted limit (splice source 0 done) rest =
      .ok (splice source 0 (rest.reverse ++ done)) := by
  induction rest generalizing limit done with
  | nil => simp [applySorted]
  | cons e rest ih =>
    have hfit := hfits e List.mem_cons_self
    have hstop := hlimit e List.mem_cons_self
    have hrest' := List.pairwise_cons.mp hrest
    have hafter : ∀ d ∈ done, e.stop ≤ d.start := fun d hd => Int.le_trans hstop (hdone d hd)
    rw [applySorted, if_neg (by omega), splice_insert hfit hafter, List.reverse_cons,
      List.append_assoc]
    refine ih (fun d hd => hfits d (List.mem_cons_of_mem _ hd)) hrest'.2 hrest'.1 fun d hd => ?_
    rcases List.mem_cons.mp hd with rfl | hd
    · exact Int.le_refl _
    · exact Int.le_trans hfit.le (hafter d hd)

theorem Edit.notBefore_iff {a b : Edit} :
    a.notBefore b = true ↔ b.start < a.start ∨ b.start = a.start ∧ b.stop ≤ a.stop := by
  simp [notBefore]

theorem pairwise_sorted (edits : List Edit) :
    (edits.mergeSort Edit.notBefore).Pairwise fun a b => a.notBefore b := by
  refine List.pairwise_mergeSort (fun a b c hab hbc => ?_) (fun a b => ?_) edits
  · rw [Edit.notBefore_iff] at *
    omega
  · rw [Bool.or_eq_true, Edit.notBefore_iff, Edit.notBefore_iff]
    omega

/-- Edits that do not overlap, sorted. -/
theorem pairwise_sorted_of_apart {edits : List Edit} (hfits : ∀ e ∈ edits, e.Fits source.length)
    (hapart : edits.Pairwise Edit.Apart) :
    (edits.mergeSort Edit.notBefore).Pairwise fun a b => b.stop ≤ a.start := by
  have hperm := List.mergeSort_perm edits Edit.notBefore
  have hapart' : (edits.mergeSort Edit.notBefore).Pairwise Edit.Apart :=
    (hperm.pairwise_iff Edit.Apart.symm).mpr hapart
  refine ((pairwise_sorted edits).and hapart').imp_of_mem fun {a b} ha hb hab => ?_
  -- two ranges that touch on both sides are empty and at one place
  have hfa := (hfits a (hperm.mem_iff.mp ha)).le
  have hfb := (hfits b (hperm.mem_iff.mp hb)).le
  obtain ⟨hle, hab | hba⟩ := hab
  · rw [Edit.notBefore_iff] at hle
    omega
  · exact hba

/-- Edits that do not overlap can be applied in any order. -/
theorem apply_eq_splice {edits : List Edit} (hfits : ∀ e ∈ edits, e.Fits source.length)
    (hapart : edits.Pairwise Edit.Apart) :
    apply source edits = .ok (splice source 0 (edits.mergeSort Edit.notBefore).reverse) := by
  have hfits' : ∀ e ∈ edits.mergeSort Edit.notBefore, e.Fits source.length :=
    fun e he => hfits e ((List.mergeSort_perm edits Edit.notBefore).mem_iff.mp he)
  have hlimit : ∀ e ∈ edits.mergeSort Edit.notBefore, e.stop ≤ (source.length : Int) + 1 :=
    fun e he => Int.le_trans (hfits' e he).bounded (by omega)
  have hrun : applySorted _ (splice source 0 []) _ = _ :=
    applySorted_eq_splice hfits' (pairwise_sorted_of_apart hfits hapart) hlimit (by simp)
  rw [List.append_nil] at hrun
  exact hrun

def Edit.Precedes (a b : Edit) : Prop :=
  a.stop ≤ b.start ∧ (a.start < b.start ∨ a.stop < b.stop)

/-- There is only one way to put ranges in order. -/
theorem sorted_eq_of_perm {edits ordered : List Edit} (hperm : edits.Perm ordered)
    (hordered : ordered.Pairwise Edit.Precedes) (hfits : ∀ e ∈ ordered, e.Fits source.length) :
    (edits.mergeSort Edit.notBefore).reverse = ordered := by
  have hsortedPerm : (edits.mergeSort Edit.notBefore).Perm ordered :=
    (List.mergeSort_perm _ _).trans hperm
  have hranges : (ordered.map fun e => (e.start, e.stop)).Nodup := by
    refine List.pairwise_map.mpr (hordered.imp fun {a b} hab heq => ?_)
    obtain ⟨hstart, hstop⟩ := Prod.mk.inj heq
    have hlt := hab.2
    omega
  have hsorted : edits.mergeSort Edit.notBefore = ordered.reverse := by
    refine (hsortedPerm.trans (List.reverse_perm ordered).symm).eq_of_pairwise
      (fun a b ha hb hab hba => ?_)
      (pairwise_sorted edits) ?_
    · refine List.inj_on_of_nodup_map hranges (hsortedPerm.mem_iff.mp ha)
        (List.mem_reverse.mp hb) ?_
      rw [Edit.notBefore_iff] at hab hba
      exact Prod.ext (by omega) (by omega)
    · refine List.pairwise_reverse.mpr (hordered.imp_of_mem fun {a b} ha _ hab => ?_)
      have hle := (hfits a ha).le
      rw [Edit.notBefore_iff]
      unfold Edit.Precedes at hab
      omega
  rw [hsorted, List.reverse_reverse]

/-- The edits on both sides of a position. -/
theorem splice_append {before after : List Edit} {cursor p : Nat} (hp : cursor ≤ p)
    (hbefore : ∀ e ∈ before, e.start ≤ e.stop ∧ e.stop ≤ p)
    (hafter : ∀ e ∈ after, (p : Int) ≤ e.start) :
    splice source cursor (before ++ after) =
      splice (source.take p) cursor before ++ splice source p after := by
  induction before generalizing cursor with
  | nil => rw [List.nil_append, splice_eq_append hp hafter, splice, drop_take_eq_slice]
  | cons e rest ih =>
    have he := hbefore e List.mem_cons_self
    have hrest : ∀ d ∈ rest, d.start ≤ d.stop ∧ d.stop ≤ p :=
      fun d hd => hbefore d (List.mem_cons_of_mem _ hd)
    simp only [List.cons_append, splice, slice_take source (by omega : e.start.toNat ≤ p),
      List.append_assoc]
    rw [ih (by omega) hrest]

/-- Edits that put back what they replace change nothing. -/
theorem splice_eq_drop {edits : List Edit} {cursor : Nat}
    (hfits : ∀ e ∈ edits, e.Fits source.length)
    (hordered : edits.Pairwise fun a b => a.stop ≤ b.start)
    (hcursor : ∀ e ∈ edits, (cursor : Int) ≤ e.start)
    (hsame : ∀ e ∈ edits, e.text = slice source e.start.toNat e.stop.toNat) :
    splice source cursor edits = source.drop cursor := by
  induction edits generalizing cursor with
  | nil => rfl
  | cons e rest ih =>
    have hfit := hfits e List.mem_cons_self
    have hstart := hcursor e List.mem_cons_self
    have hordered' := List.pairwise_cons.mp hordered
    have hafter : ∀ d ∈ rest, (e.stop.toNat : Int) ≤ d.start := by
      intro d hd
      have hle := hordered'.1 d hd
      have hnonneg := hfit.nonneg
      have hstop := hfit.le
      omega
    have hrest : splice source e.stop.toNat rest = source.drop e.stop.toNat :=
      ih (fun d hd => hfits d (List.mem_cons_of_mem _ hd)) hordered'.2 hafter
        fun d hd => hsame d (List.mem_cons_of_mem _ hd)
    have hrange : e.start.toNat ≤ e.stop.toNat := Int.toNat_le_toNat hfit.le
    rw [splice, hsame e List.mem_cons_self, hrest, List.append_assoc,
      slice_append_drop source hrange, slice_append_drop source (by omega)]

/-- The bytes from `lo` up to `hi` stand unchanged between what the edits before and after them make
of the rest. -/
def Copied (source : Bytes) (edits : List Edit) (lo hi : Nat) (code : Bytes) : Prop :=
  ∃ before after, edits = before ++ after ∧
    code = splice (source.take lo) 0 before ++ slice source lo hi ++ splice source hi after

/-- Bytes that no edit touches are copied. -/
theorem splice_frame {edits : List Edit} {lo hi : Nat} (hle : lo ≤ hi)
    (hfits : ∀ e ∈ edits, e.Fits source.length)
    (hordered : edits.Pairwise fun a b => a.stop ≤ b.start)
    (haway : ∀ e ∈ edits, e.stop ≤ lo ∨ (hi : Int) ≤ e.start) :
    Copied source edits lo hi (splice source 0 edits) := by
  have hsplit : ∃ before after, edits = before ++ after ∧ (∀ e ∈ before, e.stop ≤ lo) ∧
      ∀ e ∈ after, (hi : Int) ≤ e.start := by
    induction edits with
    | nil => exact ⟨[], [], rfl, by simp, by simp⟩
    | cons e rest ih =>
      have hordered' := List.pairwise_cons.mp hordered
      rcases haway e List.mem_cons_self with hbefore | hafter
      · obtain ⟨before, after, rfl, hb, ha⟩ :=
          ih (fun d hd => hfits d (List.mem_cons_of_mem _ hd)) hordered'.2
            (fun d hd => haway d (List.mem_cons_of_mem _ hd))
        exact ⟨e :: before, after, rfl, List.forall_mem_cons.mpr ⟨hbefore, hb⟩, ha⟩
      · refine ⟨[], e :: rest, rfl, by simp, List.forall_mem_cons.mpr ⟨hafter, fun d hd => ?_⟩⟩
        have hd := hordered'.1 d hd
        have hfit := (hfits e List.mem_cons_self).le
        omega
  obtain ⟨before, after, rfl, hb, ha⟩ := hsplit
  refine ⟨before, after, rfl, ?_⟩
  have hb' : ∀ e ∈ before, e.start ≤ e.stop ∧ e.stop ≤ lo :=
    fun e he => ⟨(hfits e (List.mem_append_left _ he)).le, hb e he⟩
  have ha' : ∀ e ∈ after, (lo : Int) ≤ e.start := fun e he => by
    have := ha e he
    omega
  rw [splice_append (Nat.zero_le lo) hb' ha', splice_eq_append hle ha, List.append_assoc]

end ThemedCss.Output
