import Mathlib.Data.List.Nodup
import Mathlib.Tactic.SplitIfs
import ThemedCss.Text.Base64

/-! Decoding undoes encoding, and strict decoding gives no bytes but those a text encodes. -/
namespace ThemedCss.Text.Base64

/-- The characters one by one, so that no proof has to take the text apart again. -/
theorem alphabet_eq : alphabet =
    ['A', 'B', 'C', 'D', 'E', 'F', 'G', 'H', 'I', 'J', 'K', 'L', 'M', 'N', 'O', 'P',
    'Q', 'R', 'S', 'T', 'U', 'V', 'W', 'X', 'Y', 'Z', 'a', 'b', 'c', 'd', 'e', 'f',
    'g', 'h', 'i', 'j', 'k', 'l', 'm', 'n', 'o', 'p', 'q', 'r', 's', 't', 'u', 'v',
    'w', 'x', 'y', 'z', '0', '1', '2', '3', '4', '5', '6', '7', '8', '9', '+', '/'] :=
  String.toList_ofList

theorem length_alphabet : alphabet.length = 64 := by
  rw [alphabet_eq]
  rfl

theorem pad_not_mem_alphabet : '=' ∉ alphabet := by
  rw [alphabet_eq]
  decide +kernel

private theorem nodup_alphabet : alphabet.Nodup := by
  have hcodes : (alphabet.map Char.toNat).Nodup := by
    rw [alphabet_eq]
    decide +kernel
  exact hcodes.of_map

theorem charOf_eq (n : Nat) : ∃ h : n % 64 < alphabet.length, charOf n = alphabet[n % 64] := by
  have hlt : n % 64 < alphabet.length := by
    rw [length_alphabet]
    omega
  refine ⟨hlt, ?_⟩
  rw [charOf, List.drop_eq_getElem_cons hlt, List.headD_cons]

theorem valueOf?_charOf (n : Nat) : valueOf? (charOf n) = some (n % 64) := by
  obtain ⟨hlt, heq⟩ := charOf_eq n
  rw [valueOf?, heq, List.idxOf?_eq_some_iff]
  refine ⟨hlt, rfl, fun j hj hsame => ?_⟩
  have hindex := (List.Nodup.getElem_inj_iff nodup_alphabet).mp hsame
  omega

theorem charOf_mem (n : Nat) : charOf n ∈ alphabet := by
  obtain ⟨hlt, heq⟩ := charOf_eq n
  rw [heq]
  exact List.getElem_mem hlt

theorem charOf_ne_pad (n : Nat) : charOf n ≠ '=' :=
  fun h => pad_not_mem_alphabet (h ▸ charOf_mem n)

/-- Nothing but the alphabet and padding is written. -/
theorem mem_encodeChars {bytes : Bytes} {c : Char} (hc : c ∈ encodeChars bytes) :
    c ∈ alphabet ∨ c = '=' := by
  fun_induction encodeChars bytes with
  | case1 a b d rest n ih =>
    simp only [List.mem_cons, ← or_assoc] at hc
    rcases hc with hc | hc
    · grind [charOf_mem]
    · exact ih hc
  | case2 a b n => grind [charOf_mem]
  | case3 a n => grind [charOf_mem]
  | case4 => simp at hc

theorem length_encodeChars (bytes : Bytes) : (encodeChars bytes).length % 4 = 0 := by
  fun_induction encodeChars bytes with
  | case1 a b c rest n ih =>
    simp only [List.length_cons]
    omega
  | case2 | case3 | case4 => simp

theorem count_pad_encodeChars (bytes : Bytes) : (encodeChars bytes).count '=' ≤ 2 := by
  fun_induction encodeChars bytes with
  | case1 a b c rest n ih => simpa [List.count_cons, charOf_ne_pad] using ih
  | case2 | case3 => simp [charOf_ne_pad]
  | case4 => simp

theorem strictValues?_charOf (count pads n : Nat) (rest : List Char) :
    strictValues? count false pads (charOf n :: rest) =
      (strictValues? (count + 1) false 0 rest).map (n % 64 :: ·) := by
  have hpad : ¬(charOf n == '=') = true := by
    rw [beq_iff_eq]
    exact charOf_ne_pad n
  rw [strictValues?, if_neg hpad, if_neg Bool.false_ne_true, valueOf?_charOf]

/-- The six-bit values of bytes are packed into these bytes again. -/
theorem exists_strictValues?_encodeChars (bytes : Bytes) : ∀ count, count % 4 = 0 →
    ∃ vs, strictValues? count false 0 (encodeChars bytes) = some vs ∧ pack vs = bytes := by
  fun_induction encodeChars bytes with
  | case1 a b c rest n ih =>
    intro count hcount
    obtain ⟨vs, hvs, hpack⟩ := ih (count + 1 + 1 + 1 + 1) (by omega)
    refine ⟨n / 262144 % 64 :: n / 4096 % 64 :: n / 64 % 64 :: n % 64 :: vs, ?_, ?_⟩
    · simp only [strictValues?_charOf, hvs, Option.map_some]
    · have ha := a.toNat_lt
      have hb := b.toNat_lt
      have hc := c.toNat_lt
      have h₁ : n / 262144 % 64 * 4 + n / 4096 % 64 / 16 = a.toNat := by omega
      have h₂ : n / 4096 % 64 % 16 * 16 + n / 64 % 64 / 4 = b.toNat := by omega
      have h₃ : n / 64 % 64 % 4 * 64 + n % 64 = c.toNat := by omega
      simp only [pack, h₁, h₂, h₃, hpack, UInt8.ofNat_toNat]
  | case2 a b n =>
    intro count hcount
    have hend : strictValues? (count + 1 + 1 + 1) false 0 ['='] = some [] := by
      have hthree : (count + 1 + 1 + 1) % 4 = 3 := by omega
      simp [strictValues?, hthree]
    refine ⟨[n / 262144 % 64, n / 4096 % 64, n / 64 % 64], ?_, ?_⟩
    · simp only [strictValues?_charOf, hend, Option.map_some]
    · have ha := a.toNat_lt
      have hb := b.toNat_lt
      have h₁ : n / 262144 % 64 * 4 + n / 4096 % 64 / 16 = a.toNat := by omega
      have h₂ : n / 4096 % 64 % 16 * 16 + n / 64 % 64 / 4 = b.toNat := by omega
      simp only [pack, h₁, h₂, UInt8.ofNat_toNat]
  | case3 a n =>
    intro count hcount
    have hend : strictValues? (count + 1 + 1) false 0 ['=', '='] = some [] := by
      have htwo : (count + 1 + 1) % 4 = 2 := by omega
      simp [strictValues?, htwo]
    refine ⟨[n / 262144 % 64, n / 4096 % 64], ?_, ?_⟩
    · simp only [strictValues?_charOf, hend, Option.map_some]
    · have ha := a.toNat_lt
      have h₁ : n / 262144 % 64 * 4 + n / 4096 % 64 / 16 = a.toNat := by omega
      simp only [pack, h₁, UInt8.ofNat_toNat]
  | case4 =>
    intro count hcount
    exact ⟨[], by simp [strictValues?, hcount], rfl⟩

private theorem head?_encodeChars (bytes : Bytes) : (encodeChars bytes).head? ≠ some '=' := by
  fun_cases encodeChars bytes with
  | case1 | case2 | case3 => simp [charOf_ne_pad]
  | case4 => simp

theorem decodeStrict?_encodeChars (bytes : Bytes) :
    decodeStrict? (encodeChars bytes) = some bytes := by
  obtain ⟨vs, hvs, hpack⟩ := exists_strictValues?_encodeChars bytes 0 rfl
  have hhead : ¬((encodeChars bytes).head? == some '=') = true := by
    rw [beq_iff_eq]
    exact head?_encodeChars bytes
  rw [decodeStrict?, if_neg hhead, hvs, Option.map_some, hpack]

section Strict

def unpadded (bytes : Bytes) : List Char :=
  (encodeChars bytes).filter (· != '=')

/-- How many values of the last of `n` characters stand for the same bytes: its bits behind the last
whole byte do not count. -/
def slack (n : Nat) : Nat :=
  match n % 4 with
  | 2 => 16
  | 3 => 4
  | _ => 1

/-- Two texts that are equal but for bits of their last character that belong to no byte. -/
def AlikeButLast (cs ds : List Char) : Prop :=
  ∃ front c d v w, cs = front ++ [c] ∧ ds = front ++ [d] ∧ valueOf? c = some v ∧
    valueOf? d = some w ∧ v / slack cs.length = w / slack cs.length

/-- The padding that may follow `n` characters: what is missing to the next four, or any after whole
fours. -/
def Fits (n pads : Nat) : Prop :=
  n % 4 = 0 ∨ 2 ≤ n % 4 ∧ n % 4 + pads = 4

instance (n pads : Nat) : Decidable (Fits n pads) :=
  inferInstanceAs (Decidable (_ ∨ _))

private theorem slack_pos (n : Nat) : 0 < slack n := by
  unfold slack
  split <;> decide

theorem slack_add_four (n : Nat) : slack (n + 4) = slack n := by
  simp [slack]

private theorem valueOf?_eq_some {c : Char} {v : Nat} (h : valueOf? c = some v) :
    v < 64 ∧ charOf v = c := by
  rw [valueOf?, List.idxOf?_eq_some_iff] at h
  obtain ⟨hlt, heq, -⟩ := h
  have hv : v < 64 := length_alphabet ▸ hlt
  obtain ⟨hlt', hchar⟩ := charOf_eq v
  refine ⟨hv, ?_⟩
  rw [hchar, ← heq]
  simp only [Nat.mod_eq_of_lt hv]

private theorem valueOf?_pad : valueOf? '=' = none :=
  List.idxOf?_eq_none_iff.mpr pad_not_mem_alphabet

/-- Once padding has begun, only the number of its signs matters. -/
theorem strictValues?_replicate (count k : Nat) :
    ∀ (padding : Bool) (pads : Nat), count % 4 + pads < 4 →
    strictValues? count padding pads (List.replicate k '=') = if Fits count (pads + k) then some []
      else none := by
  induction k with
  | zero =>
    intro padding pads hpads
    have hfits : Fits count (pads + 0) ↔ count % 4 = 0 := by
      unfold Fits
      omega
    simp only [List.replicate_zero, strictValues?, beq_iff_eq, hfits]
  | succ k ih =>
    intro padding pads hpads
    rw [List.replicate_succ, strictValues?]
    simp only [beq_self_eq_true, if_true, List.isEmpty_replicate]
    by_cases hlow : count % 4 < 2
    · have hfits : Fits count (pads + k) ↔ Fits count (pads + (k + 1)) := by
        unfold Fits
        omega
      rw [if_pos hlow, ih true pads hpads, if_congr hfits rfl rfl]
    · rw [if_neg hlow]
      by_cases hmore : count % 4 + pads + 1 < 4
      · rw [if_pos hmore, ih true (pads + 1) (by omega), Nat.add_right_comm, Nat.add_assoc]
      · have hfits : Fits count (pads + (k + 1)) ↔ k = 0 := by
          unfold Fits
          omega
        simp only [if_neg hmore, decide_eq_true_eq, if_congr hfits rfl rfl]

/-- A text of characters and padding is read exactly if the padding fits. -/
theorem strictValues?_append {digits : List Char} {vs : List Nat}
    (h : digits.map valueOf? = vs.map some) (k : Nat) :
    ∀ count, strictValues? count false 0 (digits ++ List.replicate k '=') =
      if Fits (count + digits.length) k then some vs else none := by
  induction digits generalizing vs with
  | nil =>
    intro count
    have hvs : vs = [] := by simpa using h.symm
    have hlt : count % 4 + 0 < 4 := Nat.mod_lt count (by decide)
    rw [List.nil_append, strictValues?_replicate count k false 0 hlt, hvs, Nat.zero_add,
      List.length_nil, Nat.add_zero]
  | cons c rest ih =>
    intro count
    cases vs with
    | nil => simp at h
    | cons v vs =>
      simp only [List.map_cons, List.cons.injEq] at h
      have hc : c ≠ '=' := by
        rintro rfl
        rw [valueOf?_pad] at h
        cases h.1
      have hlength : count + 1 + rest.length = count + (c :: rest).length := by
        rw [List.length_cons]
        omega
      rw [List.cons_append, strictValues?]
      simp only [beq_iff_eq, hc, Bool.false_eq_true, if_false, h.1, ih h.2 (count + 1), hlength]
      split_ifs
      · rfl
      · rfl

theorem eq_replicate_of_strictValues? {count pads : Nat} {cs : List Char} {vs : List Nat}
    (h : strictValues? count true pads cs = some vs) :
    cs = List.replicate cs.length '=' ∧ vs = [] := by
  induction cs generalizing pads with
  | nil =>
    rw [strictValues?] at h
    split_ifs at h
    exact ⟨rfl, (Option.some.inj h).symm⟩
  | cons c rest ih =>
    rw [strictValues?] at h
    by_cases hc : c = '='
    · subst hc
      simp only [beq_self_eq_true, if_true] at h
      have hrest : rest = List.replicate rest.length '=' ∧ vs = [] := by
        split_ifs at h with hlow hmore hlast
        · exact ih h
        · exact ih h
        · rw [List.isEmpty_iff.mp hlast]
          exact ⟨rfl, (Option.some.inj h).symm⟩
      refine ⟨?_, hrest.2⟩
      rw [List.length_cons, List.replicate_succ, ← hrest.1]
    · simp [hc] at h

/-- Whatever is read consists of characters with a value and of padding behind them. -/
theorem exists_of_strictValues? {count : Nat} {cs : List Char} {vs : List Nat}
    (h : strictValues? count false 0 cs = some vs) :
    ∃ digits k, cs = digits ++ List.replicate k '=' ∧ digits.map valueOf? = vs.map some := by
  induction cs generalizing count vs with
  | nil =>
    rw [strictValues?] at h
    split_ifs at h
    exact ⟨[], 0, rfl, by rw [← Option.some.inj h]; rfl⟩
  | cons c rest ih =>
    by_cases hc : c = '='
    · subst hc
      rw [strictValues?] at h
      simp only [beq_self_eq_true, if_true] at h
      have hrest : rest = List.replicate rest.length '=' ∧ vs = [] := by
        split_ifs at h with hlow hmore hlast
        · exact eq_replicate_of_strictValues? h
        · exact eq_replicate_of_strictValues? h
        · rw [List.isEmpty_iff.mp hlast]
          exact ⟨rfl, (Option.some.inj h).symm⟩
      refine ⟨[], rest.length + 1, ?_, ?_⟩
      · rw [List.nil_append, List.replicate_succ, ← hrest.1]
      · rw [hrest.2]
        rfl
    · rw [strictValues?] at h
      simp only [beq_iff_eq, hc, if_false] at h
      cases hv : valueOf? c with
      | none => simp [hv] at h
      | some v =>
        simp only [hv] at h
        obtain ⟨tail, htail, rfl⟩ := Option.map_eq_some_iff.mp h
        obtain ⟨digits, k, rfl, hdigits⟩ := ih htail
        exact ⟨c :: digits, k, rfl, by simp [hv, hdigits]⟩

theorem charOf_congr {m n : Nat} (h : m % 64 = n % 64) : charOf m = charOf n := by
  unfold charOf
  rw [h]

section Groups
variable {a b c d : Nat}

theorem unpadded_four (ha : a < 64) (hb : b < 64) (hc : c < 64) (hd : d < 64) (rest : Bytes) :
    unpadded (UInt8.ofNat (a * 4 + b / 16) :: UInt8.ofNat (b % 16 * 16 + c / 4) ::
      UInt8.ofNat (c % 4 * 64 + d) :: rest) = [a, b, c, d].map charOf ++ unpadded rest := by
  have hfirst : (UInt8.ofNat (a * 4 + b / 16)).toNat = a * 4 + b / 16 :=
    UInt8.toNat_ofNat_of_lt (show _ < 256 by omega)
  have hsecond : (UInt8.ofNat (b % 16 * 16 + c / 4)).toNat = b % 16 * 16 + c / 4 :=
    UInt8.toNat_ofNat_of_lt (show _ < 256 by omega)
  have hthird : (UInt8.ofNat (c % 4 * 64 + d)).toNat = c % 4 * 64 + d :=
    UInt8.toNat_ofNat_of_lt (show _ < 256 by omega)
  have hjoin : ((a * 4 + b / 16) * 256 + (b % 16 * 16 + c / 4)) * 256 + (c % 4 * 64 + d) =
      a * 262144 + b * 4096 + c * 64 + d := by omega
  unfold unpadded
  simp only [encodeChars, hfirst, hsecond, hthird, hjoin]
  generalize hn : a * 262144 + b * 4096 + c * 64 + d = n
  have h₁ : charOf (n / 262144) = charOf a := charOf_congr (by omega)
  have h₂ : charOf (n / 4096) = charOf b := charOf_congr (by omega)
  have h₃ : charOf (n / 64) = charOf c := charOf_congr (by omega)
  have h₄ : charOf n = charOf d := charOf_congr (by omega)
  simp [h₁, h₂, h₃, h₄, charOf_ne_pad]

private theorem unpadded_three (ha : a < 64) (hb : b < 64) (hc : c < 64) :
    unpadded [UInt8.ofNat (a * 4 + b / 16), UInt8.ofNat (b % 16 * 16 + c / 4)] =
      [charOf a, charOf b, charOf (c / 4 * 4)] := by
  have hfirst : (UInt8.ofNat (a * 4 + b / 16)).toNat = a * 4 + b / 16 :=
    UInt8.toNat_ofNat_of_lt (show _ < 256 by omega)
  have hsecond : (UInt8.ofNat (b % 16 * 16 + c / 4)).toNat = b % 16 * 16 + c / 4 :=
    UInt8.toNat_ofNat_of_lt (show _ < 256 by omega)
  have hjoin : ((a * 4 + b / 16) * 256 + (b % 16 * 16 + c / 4)) * 256 =
      a * 262144 + b * 4096 + c / 4 * 256 := by omega
  unfold unpadded
  simp only [encodeChars, hfirst, hsecond, hjoin]
  generalize hn : a * 262144 + b * 4096 + c / 4 * 256 = n
  have h₁ : charOf (n / 262144) = charOf a := charOf_congr (by omega)
  have h₂ : charOf (n / 4096) = charOf b := charOf_congr (by omega)
  have h₃ : charOf (n / 64) = charOf (c / 4 * 4) := charOf_congr (by omega)
  simp [h₁, h₂, h₃, charOf_ne_pad]

private theorem unpadded_two (ha : a < 64) (hb : b < 64) :
    unpadded [UInt8.ofNat (a * 4 + b / 16)] = [charOf a, charOf (b / 16 * 16)] := by
  have hfirst : (UInt8.ofNat (a * 4 + b / 16)).toNat = a * 4 + b / 16 :=
    UInt8.toNat_ofNat_of_lt (show _ < 256 by omega)
  unfold unpadded
  simp only [encodeChars, hfirst]
  generalize hn : (a * 4 + b / 16) * 65536 = n
  have h₁ : charOf (n / 262144) = charOf a := charOf_congr (by omega)
  have h₂ : charOf (n / 4096) = charOf (b / 16 * 16) := charOf_congr (by omega)
  simp [h₁, h₂, charOf_ne_pad]

end Groups

/-- The text of packed values is the text of the values, less the bits that belong to no byte. -/
theorem unpadded_pack (vs : List Nat) (hvs : ∀ v ∈ vs, v < 64) (hlength : vs.length % 4 ≠ 1)
    (hne : vs ≠ []) :
    ∃ front last, vs = front ++ [last] ∧
      unpadded (pack vs) = front.map charOf ++
        [charOf (last / slack vs.length * slack vs.length)] := by
  fun_induction pack vs with
  | case1 a b c d rest ih =>
    simp only [List.forall_mem_cons] at hvs
    obtain ⟨ha, hb, hc, hd, hrest⟩ := hvs
    by_cases hempty : rest = []
    · subst hempty
      refine ⟨[a, b, c], d, rfl, ?_⟩
      rw [unpadded_four ha hb hc hd]
      simp [slack, pack, unpadded, encodeChars]
    · have hmod : rest.length % 4 ≠ 1 := by
        simp only [List.length_cons] at hlength
        omega
      obtain ⟨front, last, hfront, hpack⟩ := ih hrest hmod hempty
      refine ⟨a :: b :: c :: d :: front, last, by rw [hfront]; rfl, ?_⟩
      rw [unpadded_four ha hb hc hd, hpack]
      simp only [List.length_cons, slack_add_four, List.map_cons, List.map_nil, List.cons_append,
        List.nil_append]
  | case2 a b c =>
    simp only [List.forall_mem_cons] at hvs
    obtain ⟨ha, hb, hc, -⟩ := hvs
    exact ⟨[a, b], c, rfl, unpadded_three ha hb hc⟩
  | case3 a b =>
    simp only [List.forall_mem_cons] at hvs
    obtain ⟨ha, hb, -⟩ := hvs
    exact ⟨[a], b, rfl, unpadded_two ha hb⟩
  | case4 vs h₁ h₂ h₃ =>
    match vs, h₁, h₂, h₃ with
    | [], _, _, _ => exact absurd rfl hne
    | [_], _, _, _ => exact absurd rfl hlength
    | [a, b], _, _, h₃ => exact absurd rfl (h₃ a b)
    | [a, b, c], _, h₂, _ => exact absurd rfl (h₂ a b c)
    | a :: b :: c :: d :: rest, h₁, _, _ => exact absurd rfl (h₁ a b c d rest)

/-- Bits of the last value that belong to no byte do not change what is packed. -/
theorem pack_append_congr : ∀ (front : List Nat) {v w : Nat},
    v / slack (front.length + 1) = w / slack (front.length + 1) →
    pack (front ++ [v]) = pack (front ++ [w])
  | [], _, _, _ => rfl
  | [a], v, w, h => by
    have hvw : v / 16 = w / 16 := h
    simp [pack, hvw]
  | [a, b], v, w, h => by
    have hvw : v / 4 = w / 4 := h
    simp [pack, hvw]
  | [a, b, c], v, w, h => by
    have hvw : v = w := by simpa [slack] using h
    rw [hvw]
  | a :: b :: c :: d :: rest, v, w, h => by
    have hrest : v / slack (rest.length + 1) = w / slack (rest.length + 1) := by
      rw [← slack_add_four (rest.length + 1)]
      exact h
    simp only [List.cons_append, pack, pack_append_congr rest hrest]

theorem map_charOf_of_values {digits : List Char} {vs : List Nat}
    (h : digits.map valueOf? = vs.map some) : digits = vs.map charOf ∧ ∀ v ∈ vs, v < 64 := by
  induction digits generalizing vs with
  | nil =>
    have hvs : vs = [] := by simpa using h.symm
    simp [hvs]
  | cons c rest ih =>
    cases vs with
    | nil => simp at h
    | cons v vs =>
      simp only [List.map_cons, List.cons.injEq] at h
      obtain ⟨hv, hc⟩ := valueOf?_eq_some h.1
      obtain ⟨hrest, hvs⟩ := ih h.2
      exact ⟨by rw [List.map_cons, hc, ← hrest], List.forall_mem_cons.mpr ⟨hv, hvs⟩⟩

theorem pad_not_mem_of_values {digits : List Char} {vs : List Nat}
    (h : digits.map valueOf? = vs.map some) : '=' ∉ digits := by
  rw [(map_charOf_of_values h).1]
  intro hmem
  obtain ⟨v, -, hv⟩ := List.mem_map.mp hmem
  exact charOf_ne_pad v hv

/-- The values in the text of some bytes are packed into these bytes. -/
theorem exists_values_unpadded (bytes : Bytes) :
    ∃ vs, (unpadded bytes).map valueOf? = vs.map some ∧ pack vs = bytes ∧
      (unpadded bytes).length % 4 ≠ 1 := by
  obtain ⟨vs, hvs, hpack⟩ := exists_strictValues?_encodeChars bytes 0 rfl
  obtain ⟨digits, k, htext, hdigits⟩ := exists_of_strictValues? hvs
  have hunpadded : unpadded bytes = digits := by
    have hkeep : digits.filter (· != '=') = digits :=
      List.filter_eq_self.mpr fun c hc => bne_iff_ne.mpr fun heq =>
        pad_not_mem_of_values hdigits (heq ▸ hc)
    rw [unpadded, htext, List.filter_append, hkeep]
    simp
  have hlength : digits.length % 4 ≠ 1 := by
    rw [htext, strictValues?_append hdigits k 0, Nat.zero_add] at hvs
    split_ifs at hvs with hfits
    unfold Fits at hfits
    omega
  rw [hunpadded]
  exact ⟨vs, hdigits, hpack, hlength⟩

private theorem alikeButLast_of_values {digits : List Char} {vs : List Nat}
    (h : digits.map valueOf? = vs.map some) (hlength : digits.length % 4 ≠ 1) (hne : digits ≠ []) :
    AlikeButLast digits (unpadded (pack vs)) := by
  obtain ⟨rfl, hvs⟩ := map_charOf_of_values h
  rw [List.length_map] at hlength
  obtain ⟨front, last, rfl, hpack⟩ := unpadded_pack vs hvs hlength (by simpa using hne)
  have hlast : last < 64 := hvs last (by simp)
  generalize hs : slack (front ++ [last]).length = s at hpack
  have hspos : 0 < s := hs ▸ slack_pos _
  have hle : last / s * s ≤ last := Nat.div_mul_le_self last s
  refine ⟨front.map charOf, charOf last, charOf (last / s * s), last,
    last / s * s, by simp, hpack, ?_, ?_, ?_⟩
  · rw [valueOf?_charOf, Nat.mod_eq_of_lt hlast]
  · rw [valueOf?_charOf, Nat.mod_eq_of_lt (by omega)]
  · rw [List.length_map, hs, Nat.mul_div_cancel _ hspos]

theorem values_of_alikeButLast {digits : List Char} {bytes : Bytes}
    (h : AlikeButLast digits (unpadded bytes)) :
    ∃ vs, digits.map valueOf? = vs.map some ∧ pack vs = bytes ∧ digits.length % 4 ≠ 1 := by
  obtain ⟨front, c, d, v, w, rfl, hd, hv, hw, hvw⟩ := h
  obtain ⟨ws, hws, hpack, hmod⟩ := exists_values_unpadded bytes
  rw [hd] at hws hmod
  rw [List.map_append] at hws
  obtain ⟨fs, last, rfl, hfs, hlast⟩ := List.append_eq_map_iff.mp hws
  have hlast' : last = [w] := by
    cases last with
    | nil => simp at hlast
    | cons x xs =>
      simp only [List.map_cons, List.map_nil, hw, List.cons.injEq, Option.some.injEq,
        List.map_eq_nil_iff] at hlast
      rw [hlast.1, hlast.2]
  subst hlast'
  have hlength : (front ++ [c]).length = fs.length + 1 := by
    have := congrArg List.length hfs
    simp only [List.length_map] at this
    simp [this]
  rw [hlength] at hvw
  refine ⟨fs ++ [v], by simp [hfs, hv], ?_, by simpa using hmod⟩
  rw [pack_append_congr fs hvw, hpack]

theorem AlikeButLast.mem_alphabet {digits : List Char} {bytes : Bytes}
    (h : AlikeButLast digits (unpadded bytes)) {c : Char} (hc : c ∈ digits) : c ∈ alphabet := by
  obtain ⟨vs, hvs, -⟩ := values_of_alikeButLast h
  rw [(map_charOf_of_values hvs).1] at hc
  obtain ⟨v, -, rfl⟩ := List.mem_map.mp hc
  exact charOf_mem v

/-- What strict decoding accepts, and what it gives: characters of the alphabet with padding that
fits behind them, and the bytes whose text they are but for bits that belong to no byte. -/
theorem decodeStrict?_eq_some_iff {cs : List Char} {bytes : Bytes} (hne : bytes ≠ []) :
    decodeStrict? cs = some bytes ↔ ∃ digits k, cs = digits ++ List.replicate k '=' ∧
      AlikeButLast digits (unpadded bytes) ∧ Fits digits.length k := by
  constructor
  · intro h
    unfold decodeStrict? at h
    split_ifs at h with hhead
    obtain ⟨vs, hvs, rfl⟩ := Option.map_eq_some_iff.mp h
    obtain ⟨digits, k, rfl, hdigits⟩ := exists_of_strictValues? hvs
    have hfits : Fits digits.length k := by
      rw [strictValues?_append hdigits k 0, Nat.zero_add] at hvs
      split_ifs at hvs with hfits
      exact hfits
    have hempty : digits ≠ [] := by
      rintro rfl
      have : vs = [] := by simpa using hdigits.symm
      exact hne (by rw [this]; rfl)
    have hlength : digits.length % 4 ≠ 1 := by
      unfold Fits at hfits
      omega
    exact ⟨digits, k, rfl, alikeButLast_of_values hdigits hlength hempty, hfits⟩
  · rintro ⟨digits, k, rfl, halike, hfits⟩
    obtain ⟨vs, hdigits, hpack, -⟩ := values_of_alikeButLast halike
    have hhead : ¬((digits ++ List.replicate k '=').head? == some '=') = true := by
      obtain ⟨front, c, -, -, -, rfl, -⟩ := halike
      have hpad := pad_not_mem_of_values hdigits
      rw [beq_iff_eq]
      intro heq
      cases front with
      | nil =>
        have hc : c = '=' := by simpa using heq
        exact hpad (by simp [hc])
      | cons x xs =>
        have hx : x = '=' := by simpa using heq
        exact hpad (by simp [hx])
    rw [decodeStrict?, if_neg hhead, strictValues?_append hdigits k 0, Nat.zero_add, if_pos hfits,
      Option.map_some, hpack]

end Strict

end ThemedCss.Text.Base64
