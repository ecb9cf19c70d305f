import ThemedCss.Style.Token

/-! Tokens can be read back from their text. -/
namespace ThemedCss.Style

theorem append_dash_inj {xs xs' ys ys' : List Char} (hx : '-' ∉ xs) (hx' : '-' ∉ xs')
    (h : xs ++ '-' :: ys = xs' ++ '-' :: ys') : xs = xs' ∧ ys = ys' := by
  induction xs generalizing xs' with
  | nil =>
    cases xs' with
    | nil => exact ⟨rfl, (List.cons.inj h).2⟩
    | cons c cs => exact absurd ((List.cons.inj h).1 ▸ List.mem_cons_self) hx'
  | cons c cs ih =>
    cases xs' with
    | nil => exact absurd ((List.cons.inj h).1 ▸ List.mem_cons_self) hx
    | cons c' cs' =>
      obtain ⟨hc, htail⟩ := List.cons.inj h
      obtain ⟨hcs, hys⟩ := ih (fun hmem => hx (List.mem_cons_of_mem _ hmem))
        (fun hmem => hx' (List.mem_cons_of_mem _ hmem)) htail
      exact ⟨by rw [hc, hcs], hys⟩

theorem dash_not_mem_toDigits (n : Nat) : '-' ∉ Nat.toDigits 10 n := fun h => by
  have hdigit := Nat.isDigit_of_mem_toDigits (by decide) (by decide) h
  simp at hdigit

private theorem toList_repr (n : Nat) : (n : Int).repr.toList = Nat.toDigits 10 n := by
  rw [Int.repr_eq_if, if_pos (by omega)]
  simp

theorem toList_padded (n : Nat) :
    ∃ zeros, (padded n).toList = List.replicate zeros '0' ++ Nat.toDigits 10 n := by
  have hsign : ¬ (n : Int) < 0 := by omega
  refine ⟨5 - (toString n).length, ?_⟩
  simp [padded, hsign]

/-- Zeros in front do not change the number, so padded numbers can be read back. -/
theorem padded_inj {a b : Nat} (h : padded a = padded b) : a = b := by
  have hvalue : ∀ n : Nat, Nat.ofDigitChars 10 (padded n).toList 0 = n := by
    intro n
    obtain ⟨zeros, hn⟩ := toList_padded n
    rw [hn, Nat.ofDigitChars_append, Nat.ofDigitChars_replicate_zero, Nat.mul_zero,
      Nat.ofDigitChars_ten_toDigits]
  rw [← hvalue a, h, hvalue b]

theorem dash_not_mem_padded (n : Nat) : '-' ∉ (padded n).toList := by
  obtain ⟨zeros, hn⟩ := toList_padded n
  rw [hn, List.mem_append, not_or]
  exact ⟨fun h => by simp [List.mem_replicate] at h, dash_not_mem_toDigits n⟩

theorem toDigits_inj {a b : Nat} (h : Nat.toDigits 10 a = Nat.toDigits 10 b) : a = b := by
  rw [← Nat.ofDigitChars_ten_toDigits (n := a), h, Nat.ofDigitChars_ten_toDigits]

theorem toList_render (file block : String) (sequence callSite index : Nat) :
    (Token.render ⟨file, sequence, callSite, block, index⟩).toList =
      "--".toList ++ file.toList ++ "--".toList ++
        ((padded sequence).toList ++ '-' :: (Nat.toDigits 10 callSite ++
        '-' :: (block.toList ++ '-' :: Nat.toDigits 10 index))) := by
  have htext : ∀ s : String, toString s = s := fun _ => rfl
  have hnumber : ∀ n : Nat, (toString (n : Int)).toList = Nat.toDigits 10 n := toList_repr
  have hdash : "-".toList = ['-'] := rfl
  unfold Token.render
  simp only [htext, hnumber, hdash, String.toList_append, List.append_assoc, List.cons_append,
    List.nil_append]

/-- Dashes in names do no harm: the numbers before the block end at the first dashes, the index
starts after the last. -/
theorem render_inj {t u : Token} (hfile : t.file = u.file)
    (ht : 0 ≤ t.sequence ∧ 0 ≤ t.callSite ∧ 0 ≤ t.index)
    (hu : 0 ≤ u.sequence ∧ 0 ≤ u.callSite ∧ 0 ≤ u.index) (h : t.render = u.render) : t = u := by
  obtain ⟨file, sequence, callSite, block, index⟩ := t
  obtain ⟨file', sequence', callSite', block', index'⟩ := u
  dsimp only at hfile ht hu
  subst hfile
  obtain ⟨sequence, rfl⟩ := Int.eq_ofNat_of_zero_le ht.1
  obtain ⟨callSite, rfl⟩ := Int.eq_ofNat_of_zero_le ht.2.1
  obtain ⟨index, rfl⟩ := Int.eq_ofNat_of_zero_le ht.2.2
  obtain ⟨sequence', rfl⟩ := Int.eq_ofNat_of_zero_le hu.1
  obtain ⟨callSite', rfl⟩ := Int.eq_ofNat_of_zero_le hu.2.1
  obtain ⟨index', rfl⟩ := Int.eq_ofNat_of_zero_le hu.2.2
  have hchars := congrArg String.toList h
  rw [toList_render, toList_render] at hchars
  obtain ⟨hsequence, hchars⟩ := append_dash_inj (dash_not_mem_padded _) (dash_not_mem_padded _)
    (List.append_cancel_left hchars)
  obtain ⟨hcallSite, hchars⟩ :=
    append_dash_inj (dash_not_mem_toDigits _) (dash_not_mem_toDigits _) hchars
  -- names may hold dashes, so the index is read from the right
  have hback := congrArg List.reverse hchars
  simp only [List.reverse_append, List.reverse_cons, List.append_assoc,
    List.singleton_append] at hback
  obtain ⟨hindex, hblock⟩ := append_dash_inj (by simpa using dash_not_mem_toDigits _)
    (by simpa using dash_not_mem_toDigits _) hback
  rw [padded_inj (String.toList_inj.mp hsequence), toDigits_inj hcallSite,
    toDigits_inj (List.reverse_inj.mp hindex), String.toList_inj.mp (List.reverse_inj.mp hblock)]

end ThemedCss.Style
