import Mathlib.Tactic.SplitIfs
import ThemedCss.Text.Utf8

/-! Text that was written as UTF-8 is read back as it was, and nothing else is read. -/
namespace ThemedCss.Text

section First

variable {b b₁ b₂ b₃ : UInt8} {low high : Nat}

private theorem utf8Lead?_one (h : b.toNat < 0x80) : utf8Lead? b = some ⟨0, 0, 0⟩ := by
  simp [utf8Lead?, h]

private theorem utf8Lead?_two (h : 0xC2 ≤ b.toNat) (h' : b.toNat < 0xE0) :
    utf8Lead? b = some ⟨1, 0x80, 0xBF⟩ := by
  have h1 : ¬b.toNat < 0x80 := by omega
  have h2 : ¬b.toNat < 0xC2 := by omega
  simp [utf8Lead?, h1, h2, h']

private theorem utf8Lead?_three (h : 0xE0 ≤ b.toNat) (h' : b.toNat < 0xF0) :
    utf8Lead? b =
      some ⟨2, if b.toNat = 0xE0 then 0xA0 else 0x80, if b.toNat = 0xED then 0x9F else 0xBF⟩ := by
  have h1 : ¬b.toNat < 0x80 := by omega
  have h2 : ¬b.toNat < 0xC2 := by omega
  have h3 : ¬b.toNat < 0xE0 := by omega
  by_cases hlow : b.toNat = 0xE0
  · simp [utf8Lead?, hlow]
  · by_cases hhigh : b.toNat = 0xED
    · simp [utf8Lead?, hhigh]
    · simp [utf8Lead?, h1, h2, h3, h', hlow, hhigh]

private theorem utf8Lead?_four (h : 0xF0 ≤ b.toNat) (h' : b.toNat ≤ 0xF4) :
    utf8Lead? b =
      some ⟨3, if b.toNat = 0xF0 then 0x90 else 0x80, if b.toNat = 0xF4 then 0x8F else 0xBF⟩ := by
  by_cases hlow : b.toNat = 0xF0
  · simp [utf8Lead?, hlow]
  · by_cases hhigh : b.toNat = 0xF4
    · simp [utf8Lead?, hhigh]
    · have h1 : ¬b.toNat < 0x80 := by omega
      have h2 : ¬b.toNat < 0xC2 := by omega
      have h3 : ¬b.toNat < 0xE0 := by omega
      have h4 : b.toNat ≠ 0xE0 := by omega
      have h5 : b.toNat ≠ 0xED := by omega
      have h6 : ¬b.toNat < 0xF0 := by omega
      have h7 : b.toNat < 0xF4 := by omega
      simp [utf8Lead?, h1, h2, h3, h4, h5, h6, h7, hlow, hhigh]

private theorem decodeFirst_one (h : utf8Lead? b = some ⟨0, low, high⟩) (rest : Bytes) :
    decodeFirst b rest = .ok (Char.ofNat b.toNat, 0) := by
  simp [decodeFirst, h]

private theorem decodeFirst_two (h : utf8Lead? b = some ⟨1, low, high⟩)
    (h₁ : low ≤ b₁.toNat ∧ b₁.toNat ≤ high) (rest : Bytes) :
    decodeFirst b (b₁ :: rest) = .ok (Char.ofNat (b.toNat % 0x20 * 0x40 + b₁.toNat % 0x40), 1) := by
  simp [decodeFirst, h, h₁]

private theorem decodeFirst_three (h : utf8Lead? b = some ⟨2, low, high⟩)
    (h₁ : low ≤ b₁.toNat ∧ b₁.toNat ≤ high) (h₂ : isContinuation b₂) (rest : Bytes) :
    decodeFirst b (b₁ :: b₂ :: rest) =
      .ok (Char.ofNat ((b.toNat % 0x10 * 0x40 + b₁.toNat % 0x40) * 0x40 + b₂.toNat % 0x40), 2) := by
  simp [decodeFirst, h, h₁, h₂]

private theorem decodeFirst_four (h : utf8Lead? b = some ⟨3, low, high⟩)
    (h₁ : low ≤ b₁.toNat ∧ b₁.toNat ≤ high) (h₂ : isContinuation b₂) (h₃ : isContinuation b₃)
    (rest : Bytes) :
    decodeFirst b (b₁ :: b₂ :: b₃ :: rest) =
      .ok
        (Char.ofNat (((b.toNat % 8 * 0x40 + b₁.toNat % 0x40) * 0x40 + b₂.toNat % 0x40) * 0x40 +
          b₃.toNat % 0x40), 3) := by
  simp [decodeFirst, h, h₁, h₂, h₃]

end First

/-- The bytes of a character are read as that character, whatever follows. -/
theorem decodeFirst_utf8EncodeChar (c : Char) (rest : Bytes) :
    ∃ b more, String.utf8EncodeChar c = b :: more ∧
      decodeFirst b (more ++ rest) = .ok (c, more.length) := by
  have hvalid := c.valid
  have hc : Char.ofNat c.val.toNat = c := Char.ofNat_toNat c
  simp only [UInt32.isValidChar, Nat.isValidChar] at hvalid
  simp only [String.utf8EncodeChar]
  generalize c.val.toNat = v at hvalid hc
  have hbyte : ∀ n < 0x100, (UInt8.ofNat n).toNat = n := fun n hn => UInt8.toNat_ofNat_of_lt hn
  have hlast : ∀ n, isContinuation (UInt8.ofNat (n % 64 + 128)) := by
    intro n
    have hn := hbyte (n % 64 + 128) (by omega)
    simp only [isContinuation, hn, Bool.and_eq_true, decide_eq_true_eq]
    omega
  have h₃ := hbyte (v % 64 + 128) (by omega)
  by_cases hone : v ≤ 0x7F
  · refine ⟨_, _, if_pos hone, ?_⟩
    have hb := hbyte v (by omega)
    rw [decodeFirst_one (utf8Lead?_one (by omega)), hb, hc]
    rfl
  rw [if_neg hone]
  by_cases htwo : v ≤ 0x7FF
  · refine ⟨_, _, if_pos htwo, ?_⟩
    have hb := hbyte (v / 64 % 32 + 192) (by omega)
    have hv : (v / 64 % 32 + 192) % 0x20 * 0x40 + (v % 64 + 128) % 0x40 = v := by omega
    rw [List.cons_append, decodeFirst_two (utf8Lead?_two (by omega) (by omega)) (by omega),
      hb, h₃, hv, hc]
    rfl
  rw [if_neg htwo]
  have h₂ := hbyte (v / 64 % 64 + 128) (by omega)
  by_cases hthree : v ≤ 0xFFFF
  · refine ⟨_, _, if_pos hthree, ?_⟩
    have hb := hbyte (v / 4096 % 16 + 224) (by omega)
    have hv : ((v / 4096 % 16 + 224) % 0x10 * 0x40 + (v / 64 % 64 + 128) % 0x40) * 0x40 +
        (v % 64 + 128) % 0x40 = v := by
      omega
    -- the ranges of the second byte leave out what two bytes can say, and the surrogates
    rw [List.cons_append, List.cons_append,
      decodeFirst_three (utf8Lead?_three (by omega) (by omega)) ?_ (hlast v), hb, h₂, h₃, hv, hc]
    · rfl
    · rw [hb, h₂]
      split <;> split <;> omega
  · refine ⟨_, _, if_neg hthree, ?_⟩
    have hb := hbyte (v / 262144 % 8 + 240) (by omega)
    have h₁ := hbyte (v / 4096 % 64 + 128) (by omega)
    have hv : (((v / 262144 % 8 + 240) % 8 * 0x40 + (v / 4096 % 64 + 128) % 0x40) * 0x40 +
        (v / 64 % 64 + 128) % 0x40) * 0x40 + (v % 64 + 128) % 0x40 = v := by
      omega
    rw [List.cons_append, List.cons_append, List.cons_append,
      decodeFirst_four (utf8Lead?_four (by omega) (by omega)) ?_ (hlast (v / 64)) (hlast v), hb, h₁,
      h₂, h₃, hv, hc]
    · rfl
    · rw [hb, h₁]
      split <;> split <;> omega

private theorem decodeFrom_skip (pos : Nat) (more rest : Bytes) :
    decodeFrom pos more.length (more ++ rest) = decodeFrom (pos + more.length) 0 rest := by
  induction more generalizing pos with
  | nil => rfl
  | cons b more ih =>
    rw [List.length_cons, List.cons_append, decodeFrom, ih, Nat.add_assoc, Nat.add_comm 1]

theorem encode_append (s t : String) : encode (s ++ t) = encode s ++ encode t := by
  simp [encode]

/-- The characters of a text come first, then what is read behind its bytes. -/
theorem decodeFrom_encode_append (pos : Nat) (cs : List Char) (rest : Bytes) :
    decodeFrom pos 0 (cs.flatMap String.utf8EncodeChar ++ rest) =
      (decodeFrom (pos + (cs.flatMap String.utf8EncodeChar).length) 0 rest).map (cs ++ ·) := by
  induction cs generalizing pos with
  | nil => cases h : decodeFrom pos 0 rest <;> simp [h, Except.map]
  | cons c cs ih =>
    obtain ⟨b, more, hc, hfirst⟩ :=
      decodeFirst_utf8EncodeChar c (cs.flatMap String.utf8EncodeChar ++ rest)
    rw [List.flatMap_cons, hc, List.cons_append, List.cons_append, List.append_assoc,
      decodeFrom, hfirst]
    dsimp only
    have hpos : pos + (b :: (more ++ cs.flatMap String.utf8EncodeChar)).length =
        pos + 1 + more.length + (cs.flatMap String.utf8EncodeChar).length := by
      simp only [List.length_cons, List.length_append]
      omega
    rw [decodeFrom_skip, ih, hpos]
    cases decodeFrom (pos + 1 + more.length + (cs.flatMap String.utf8EncodeChar).length) 0 rest
      <;> rfl

theorem decode_encode (s : String) : decode (encode s) = .ok s.toList := by
  have hread := decodeFrom_encode_append 0 s.toList []
  rw [List.append_nil] at hread
  rw [decode, encode, hread]
  simp [decodeFrom, Except.map]

theorem toNat_ofNat {v : Nat} (h : v.isValidChar) : (Char.ofNat v).val.toNat = v := by
  have hof : Char.ofNat v = Char.ofNatAux v h := dif_pos h
  rw [hof]
  rfl

/-- What the first byte of a character is, and what it asks of the second. -/
theorem utf8Lead?_eq_some {b : UInt8} {lead : Utf8Lead} (h : utf8Lead? b = some lead) :
    lead.more = 0 ∧ b.toNat < 0x80 ∨
    0x80 ≤ lead.low ∧ lead.high ≤ 0xBF ∧
      (lead.more = 1 ∧ 0xC2 ≤ b.toNat ∧ b.toNat < 0xE0 ∨
        lead.more = 2 ∧ 0xE0 ≤ b.toNat ∧ b.toNat < 0xF0 ∧ (b.toNat = 0xE0 → 0xA0 ≤ lead.low) ∧
          (b.toNat = 0xED → lead.high ≤ 0x9F) ∨
        lead.more = 3 ∧ 0xF0 ≤ b.toNat ∧ b.toNat ≤ 0xF4 ∧ (b.toNat = 0xF0 → 0x90 ≤ lead.low) ∧
          (b.toNat = 0xF4 → lead.high ≤ 0x8F)) := by
  unfold utf8Lead? at h
  simp only [beq_iff_eq] at h
  split_ifs at h <;> obtain rfl := Option.some.inj h <;> dsimp only <;> omega

theorem utf8EncodeChar_one {b : UInt8} (hb : b.toNat < 0x80) :
    String.utf8EncodeChar (Char.ofNat b.toNat) = [b] := by
  have hvalid : b.toNat.isValidChar := .inl (by omega)
  simp only [String.utf8EncodeChar, toNat_ofNat hvalid]
  rw [if_pos (by omega), UInt8.ofNat_toNat]

private theorem utf8EncodeChar_two {b b₁ : UInt8} (hb : 0xC2 ≤ b.toNat ∧ b.toNat < 0xE0)
    (h₁ : 0x80 ≤ b₁.toNat ∧ b₁.toNat ≤ 0xBF) :
    String.utf8EncodeChar (Char.ofNat (b.toNat % 0x20 * 0x40 + b₁.toNat % 0x40)) = [b, b₁] := by
  have hvalid : (b.toNat % 0x20 * 0x40 + b₁.toNat % 0x40).isValidChar := .inl (by omega)
  simp only [String.utf8EncodeChar, toNat_ofNat hvalid]
  rw [if_neg (by omega), if_pos (by omega)]
  have hfirst : (b.toNat % 0x20 * 0x40 + b₁.toNat % 0x40) / 64 % 32 + 192 = b.toNat := by omega
  have hsecond : (b.toNat % 0x20 * 0x40 + b₁.toNat % 0x40) % 64 + 128 = b₁.toNat := by omega
  rw [hfirst, hsecond, UInt8.ofNat_toNat, UInt8.ofNat_toNat]

private theorem utf8EncodeChar_three {b b₁ b₂ : UInt8} (hb : 0xE0 ≤ b.toNat ∧ b.toNat < 0xF0)
    (h₁ : 0x80 ≤ b₁.toNat ∧ b₁.toNat ≤ 0xBF) (hlow : b.toNat = 0xE0 → 0xA0 ≤ b₁.toNat)
    (hhigh : b.toNat = 0xED → b₁.toNat ≤ 0x9F) (h₂ : 0x80 ≤ b₂.toNat ∧ b₂.toNat ≤ 0xBF) :
    String.utf8EncodeChar
      (Char.ofNat ((b.toNat % 0x10 * 0x40 + b₁.toNat % 0x40) * 0x40 + b₂.toNat % 0x40)) =
      [b, b₁, b₂] := by
  generalize hv : (b.toNat % 0x10 * 0x40 + b₁.toNat % 0x40) * 0x40 + b₂.toNat % 0x40 = v
  have hvalid : v.isValidChar := by
    unfold Nat.isValidChar
    omega
  simp only [String.utf8EncodeChar, toNat_ofNat hvalid]
  rw [if_neg (by omega), if_neg (by omega), if_pos (by omega)]
  have hfirst : v / 4096 % 16 + 224 = b.toNat := by omega
  have hsecond : v / 64 % 64 + 128 = b₁.toNat := by omega
  have hthird : v % 64 + 128 = b₂.toNat := by omega
  rw [hfirst, hsecond, hthird, UInt8.ofNat_toNat, UInt8.ofNat_toNat, UInt8.ofNat_toNat]

private theorem utf8EncodeChar_four {b b₁ b₂ b₃ : UInt8} (hb : 0xF0 ≤ b.toNat ∧ b.toNat ≤ 0xF4)
    (h₁ : 0x80 ≤ b₁.toNat ∧ b₁.toNat ≤ 0xBF) (hlow : b.toNat = 0xF0 → 0x90 ≤ b₁.toNat)
    (hhigh : b.toNat = 0xF4 → b₁.toNat ≤ 0x8F) (h₂ : 0x80 ≤ b₂.toNat ∧ b₂.toNat ≤ 0xBF)
    (h₃ : 0x80 ≤ b₃.toNat ∧ b₃.toNat ≤ 0xBF) :
    String.utf8EncodeChar (Char.ofNat
      (((b.toNat % 8 * 0x40 + b₁.toNat % 0x40) * 0x40 + b₂.toNat % 0x40) * 0x40 +
        b₃.toNat % 0x40)) = [b, b₁, b₂, b₃] := by
  generalize hv : ((b.toNat % 8 * 0x40 + b₁.toNat % 0x40) * 0x40 + b₂.toNat % 0x40) * 0x40 +
    b₃.toNat % 0x40 = v
  have hvalid : v.isValidChar := by
    unfold Nat.isValidChar
    omega
  simp only [String.utf8EncodeChar, toNat_ofNat hvalid]
  rw [if_neg (by omega), if_neg (by omega), if_neg (by omega)]
  have hfirst : v / 262144 % 8 + 240 = b.toNat := by omega
  have hsecond : v / 4096 % 64 + 128 = b₁.toNat := by omega
  have hthird : v / 64 % 64 + 128 = b₂.toNat := by omega
  have hfourth : v % 64 + 128 = b₃.toNat := by omega
  rw [hfirst, hsecond, hthird, hfourth, UInt8.ofNat_toNat, UInt8.ofNat_toNat, UInt8.ofNat_toNat,
    UInt8.ofNat_toNat]

theorem isContinuation_iff {b : UInt8} :
    isContinuation b = true ↔ 0x80 ≤ b.toNat ∧ b.toNat ≤ 0xBF := by
  simp [isContinuation]

/-- The bytes that are read as a character are the bytes of that character. -/
theorem utf8EncodeChar_of_decodeFirst {b : UInt8} {rest : Bytes} {c : Char} {width : Nat}
    (h : decodeFirst b rest = .ok (c, width)) :
    width ≤ rest.length ∧ String.utf8EncodeChar c = b :: rest.take width := by
  unfold decodeFirst at h
  dsimp only at h
  split at h
  · simp at h
  · next lead hlead =>
    have hcases := utf8Lead?_eq_some hlead
    split at h
    · next hmore =>
      obtain ⟨rfl, rfl⟩ := Prod.mk.inj (Except.ok.inj h)
      exact ⟨Nat.zero_le _, utf8EncodeChar_one (by omega)⟩
    · next b₁ _ hmore =>
      split_ifs at h with h₁
      obtain ⟨rfl, rfl⟩ := Prod.mk.inj (Except.ok.inj h)
      simp only [Bool.and_eq_true, decide_eq_true_eq] at h₁
      exact ⟨by simp, utf8EncodeChar_two (by omega) (by omega)⟩
    · next b₁ b₂ _ hmore =>
      split_ifs at h with h₁ h₂
      obtain ⟨rfl, rfl⟩ := Prod.mk.inj (Except.ok.inj h)
      simp only [Bool.not_eq_true', Bool.not_eq_false, Bool.and_eq_true, decide_eq_true_eq] at h₁ h₂
      have h₂ := isContinuation_iff.mp h₂
      exact ⟨by simp, utf8EncodeChar_three (by omega) (by omega) (by omega) (by omega) h₂⟩
    · next b₁ b₂ b₃ _ hmore =>
      split_ifs at h with h₁ h₂ h₃
      obtain ⟨rfl, rfl⟩ := Prod.mk.inj (Except.ok.inj h)
      simp only [Bool.not_eq_true', Bool.not_eq_false, Bool.and_eq_true,
        decide_eq_true_eq] at h₁ h₂ h₃
      have h₂ := isContinuation_iff.mp h₂
      have h₃ := isContinuation_iff.mp h₃
      exact ⟨by simp, utf8EncodeChar_four (by omega) (by omega) (by omega) (by omega) h₂ h₃⟩
    · simp at h
    · split_ifs at h
      split at h
      · split_ifs at h
      · simp at h

theorem encode_of_decodeFrom {pos skip : Nat} {bytes : Bytes} {cs : List Char}
    (hskip : skip ≤ bytes.length) (h : decodeFrom pos skip bytes = .ok cs) :
    cs.flatMap String.utf8EncodeChar = bytes.drop skip := by
  induction bytes generalizing pos skip cs with
  | nil =>
    rw [decodeFrom] at h
    obtain rfl := Except.ok.inj h
    simp
  | cons b rest ih =>
    cases skip with
    | succ skip => exact ih (Nat.le_of_succ_le_succ hskip) h
    | zero =>
      rw [decodeFrom] at h
      cases hfirst : decodeFirst b rest with
      | error f => simp [hfirst] at h
      | ok first =>
        obtain ⟨c, width⟩ := first
        obtain ⟨hwidth, hc⟩ := utf8EncodeChar_of_decodeFirst hfirst
        rw [hfirst] at h
        cases hrest : decodeFrom (pos + 1) width rest with
        | error f => simp [hrest, Except.map] at h
        | ok cs' =>
          obtain rfl : c :: cs' = cs := by simpa [hrest, Except.map] using h
          rw [List.flatMap_cons, hc, ih hwidth hrest, List.cons_append, List.take_append_drop,
            List.drop_zero]

/-- Bytes are read as a text exactly if they are the bytes of that text. -/
theorem decode_eq_ok_iff {bytes : Bytes} {cs : List Char} :
    decode bytes = .ok cs ↔ bytes = encode (String.ofList cs) := by
  constructor
  · intro h
    rw [encode, String.toList_ofList]
    exact (encode_of_decodeFrom (Nat.zero_le _) h).symm
  · rintro rfl
    rw [decode_encode, String.toList_ofList]

end ThemedCss.Text
