import ThemedCss.Proofs.Output.Edit
import ThemedCss.Proofs.Style.Alike
import ThemedCss.Proofs.Style.Layout

/-! Sources with the same bytes outside of some ranges. -/
namespace ThemedCss.Output
open ThemedCss.Style ThemedCss.Text

/-- The second source has all bytes of the first one that lie outside of the `holes`, at the places
they are moved to. -/
structure Moves (move : Nat → Nat) (holes : List Span) (source source' : Bytes) : Prop where
  zero : move 0 = 0
  mono : ∀ a b, a ≤ b → move a ≤ move b
  length : move source.length = source'.length
  byte : ∀ p < source.length, (∀ d ∈ holes, p < d.start ∨ d.stop ≤ p) →
    move (p + 1) = move p + 1 ∧ source'[move p]? = source[p]?

variable {move : Nat → Nat} {holes : List Span} {source source' : Bytes}

theorem slice_succ (bytes : Bytes) {a b : Nat} (hab : a ≤ b) :
    slice bytes a (b + 1) = slice bytes a b ++ bytes[b]?.toList := by
  have hlen : b + 1 - a = (b - a) + 1 := by omega
  rw [slice, slice, hlen, List.take_add_one, List.getElem?_drop, Nat.add_sub_cancel' hab]

private theorem slice_self (bytes : Bytes) (a : Nat) : slice bytes a a = [] := by
  simp [slice]

theorem slice_length (bytes : Bytes) (a : Nat) : slice bytes a bytes.length = bytes.drop a := by
  rw [slice, ← List.length_drop, List.take_length]

/-- A range without holes is moved as a whole. -/
theorem Moves.slice (h : Moves move holes source source') {a b : Nat} (hab : a ≤ b)
    (hb : b ≤ source.length) (hout : ∀ d ∈ holes, d.stop ≤ a ∨ b ≤ d.start) :
    move b = move a + (b - a) ∧ Text.slice source' (move a) (move b) = Text.slice source a b := by
  induction hab with
  | refl => simp [slice_self]
  | @step b hab ih =>
    have hab : a ≤ b := hab
    rw [Nat.succ_eq_add_one] at hb hout ⊢
    have hout' : ∀ d ∈ holes, b < d.start ∨ d.stop ≤ b := by
      intro d hd
      have hcases := hout d hd
      omega
    obtain ⟨hmove, hslice⟩ := ih (by omega) fun d hd => by have hcases := hout d hd; omega
    obtain ⟨hnext, hbyte⟩ := h.byte b (by omega) hout'
    refine ⟨by omega, ?_⟩
    rw [hnext, slice_succ source' (h.mono a b hab), hslice, hbyte, slice_succ source hab]

/-- Bytes between holes are moved with them. -/
theorem Moves.gaps (h : Moves move holes source source') {spans : List Span} {cursor stop : Nat}
    (hcursor : cursor ≤ stop) (hstop : stop ≤ source.length) (horder : spans.Pairwise Span.Before)
    (hin : ∀ s ∈ spans, cursor ≤ s.start ∧ s.start ≤ s.stop ∧ s.stop ≤ stop)
    (hout : ∀ d ∈ holes, d.stop ≤ cursor ∨ stop ≤ d.start ∨ d ∈ spans) :
    Style.gaps source' (move stop) (move cursor) (spans.map (Span.move move)) =
      Style.gaps source stop cursor spans := by
  induction spans generalizing cursor with
  | nil =>
    have hall : ∀ d ∈ holes, d.stop ≤ cursor ∨ stop ≤ d.start :=
      fun d hd => by simpa using hout d hd
    rw [List.map_nil, Style.gaps, Style.gaps, (h.slice hcursor hstop hall).2]
  | cons s rest ih =>
    have hs := hin s List.mem_cons_self
    have horder' := List.pairwise_cons.mp horder
    have hgap : ∀ d ∈ holes, d.stop ≤ cursor ∨ s.start ≤ d.start := by
      intro d hd
      rcases hout d hd with hd | hd | hd
      · exact .inl hd
      · exact .inr (by omega)
      · rcases List.mem_cons.mp hd with rfl | hd
        · exact .inr (Nat.le_refl _)
        · have hbefore : s.stop ≤ d.start := horder'.1 d hd
          exact .inr (by omega)
    have hrest : ∀ d ∈ holes, d.stop ≤ s.stop ∨ stop ≤ d.start ∨ d ∈ rest := by
      intro d hd
      rcases hout d hd with hd | hd | hd
      · exact .inl (by omega)
      · exact .inr (.inl hd)
      · rcases List.mem_cons.mp hd with rfl | hd
        · exact .inl (Nat.le_refl _)
        · exact .inr (.inr hd)
    have hin' : ∀ t ∈ rest, s.stop ≤ t.start ∧ t.start ≤ t.stop ∧ t.stop ≤ stop :=
      fun t ht => ⟨horder'.1 t ht, (hin t (List.mem_cons_of_mem _ ht)).2⟩
    rw [List.map_cons, Style.gaps, Style.gaps, Span.move, (h.slice hs.1 (by omega) hgap).2,
      ih hs.2.2 horder'.2 hin' hrest]

/-- The same text for a moved range. -/
structure Edit.Moved (move : Nat → Nat) (e f : Edit) : Prop where
  start : f.start = move e.start.toNat
  stop : f.stop = move e.stop.toNat
  text : f.text = e.text

/-- If every hole is replaced, then what it held leaves no trace. -/
theorem Moves.splice (h : Moves move holes source source') {edits edits' : List Edit} {cursor : Nat}
    (hall : List.Forall₂ (Edit.Moved move) edits edits') (hfits : ∀ e ∈ edits, e.Fits source.length)
    (horder : edits.Pairwise Edit.Precedes) (hcursor : cursor ≤ source.length)
    (hafter : ∀ e ∈ edits, (cursor : Int) ≤ e.start)
    (hcover : ∀ d ∈ holes, d.stop ≤ cursor ∨ ∃ e ∈ edits, e.start = d.start ∧ e.stop = d.stop) :
    Output.splice source' (move cursor) edits' = Output.splice source cursor edits := by
  induction hall generalizing cursor with
  | nil =>
    have hnone : ∀ d ∈ holes, d.stop ≤ cursor ∨ source.length ≤ d.start :=
      fun d hd => .inl (by simpa using hcover d hd)
    rw [Output.splice, Output.splice, ← slice_length source,
      ← (h.slice hcursor (Nat.le_refl _) hnone).2, h.length, slice_length]
  | @cons e f edits edits' hef _ ih =>
    obtain ⟨hstart, hle, hstop⟩ := hfits e List.mem_cons_self
    have horder' := List.pairwise_cons.mp horder
    have hcur := hafter e List.mem_cons_self
    have hgap : ∀ d ∈ holes, d.stop ≤ cursor ∨ e.start.toNat ≤ d.start := by
      intro d hd
      rcases hcover d hd with hd | ⟨e', he', hd, -⟩
      · exact .inl hd
      · rcases List.mem_cons.mp he' with rfl | he'
        · exact .inr (by omega)
        · have hbefore := (horder'.1 e' he').1
          exact .inr (by omega)
    have hrest : ∀ d ∈ holes, d.stop ≤ e.stop.toNat ∨
        ∃ e' ∈ edits, e'.start = d.start ∧ e'.stop = d.stop := by
      intro d hd
      rcases hcover d hd with hd | ⟨e', he', hd⟩
      · exact .inl (by omega)
      · rcases List.mem_cons.mp he' with rfl | he'
        · exact .inl (by omega)
        · exact .inr ⟨e', he', hd⟩
    have hfits' : ∀ d ∈ edits, d.Fits source.length :=
      fun d hd => hfits d (List.mem_cons_of_mem _ hd)
    have hafter' : ∀ d ∈ edits, (e.stop.toNat : Int) ≤ d.start := fun d hd => by
      have hbefore := (horder'.1 d hd).1
      omega
    rw [Output.splice, Output.splice, hef.start, hef.stop, hef.text, Int.toNat_natCast,
      Int.toNat_natCast,
      (h.slice (by omega) (by omega) hgap).2, ih hfits' horder'.2 (by omega) hafter' hrest]

end ThemedCss.Output
