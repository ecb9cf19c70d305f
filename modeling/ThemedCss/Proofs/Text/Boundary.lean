import ThemedCss.Proofs.Text.Utf8

/-! Places where the bytes of a text can be cut without cutting a character. -/
namespace ThemedCss.Text

variable {source : Bytes} {p q : Nat}

/-- What follows a text in the bytes of a text is text. -/
theorem exists_of_encode_append {s t : String} {rest : Bytes} (h : encode s ++ rest = encode t) :
    ∃ r, rest = encode r := by
  have hread : decode (encode s ++ rest) = .ok t.toList := by rw [h, decode_encode]
  rw [decode, encode, decodeFrom_encode_append] at hread
  cases hrest : decodeFrom (0 + (s.toList.flatMap String.utf8EncodeChar).length) 0 rest with
  | error f =>
    rw [hrest] at hread
    cases hread
  | ok cs =>
    have hbytes := encode_of_decodeFrom (Nat.zero_le _) hrest
    exact ⟨String.ofList cs, by rw [encode, String.toList_ofList, hbytes, List.drop_zero]⟩

/-- The last byte of a character of several bytes is not that of a character of one byte. -/
theorem eq_nil_of_utf8EncodeChar {c : Char} {front : Bytes} {b : UInt8} (hb : b.toNat < 0x80)
    (h : String.utf8EncodeChar c = front ++ [b]) : front = [] := by
  have hlast : (String.utf8EncodeChar c).getLast? = some b := by rw [h, List.getLast?_concat]
  have hbyte : ∀ n, 0x80 ≤ (UInt8.ofNat (n % 64 + 128)).toNat := by
    intro n
    have hsmall : n % 64 + 128 < 0x100 := by omega
    have hn : (UInt8.ofNat (n % 64 + 128)).toNat = n % 64 + 128 := UInt8.toNat_ofNat_of_lt hsmall
    omega
  simp only [String.utf8EncodeChar] at h hlast
  split_ifs at h hlast
  · simpa using congrArg List.length h
  all_goals
    simp only [List.getLast?_cons_cons, List.getLast?_singleton, Option.some.injEq] at hlast
    have hgreat := hbyte c.val.toNat
    rw [hlast] at hgreat
    omega

/-- What stands before a character of one byte in the bytes of a text is text. -/
theorem exists_of_encode_eq_append {t : String} {front : Bytes} {b : UInt8} (hb : b.toNat < 0x80)
    (h : encode t = front ++ [b]) : ∃ r, front = encode r := by
  rcases List.eq_nil_or_concat t.toList with hnil | ⟨cs, c, hcs⟩
  · simp [encode, hnil] at h
  · obtain ⟨first, more, hc, -⟩ := decodeFirst_utf8EncodeChar c []
    obtain ⟨init, last, hsplit⟩ :=
      (List.eq_nil_or_concat (String.utf8EncodeChar c)).resolve_left (by simp [hc])
    have hbytes : cs.flatMap String.utf8EncodeChar ++ init ++ [last] = front ++ [b] := by
      rw [← h, encode, hcs, List.concat_eq_append, List.flatMap_append,
        List.flatMap_singleton, hsplit, List.concat_eq_append, List.append_assoc]
    obtain ⟨hfront, hlast⟩ := List.append_inj' hbytes rfl
    obtain rfl : last = b := by simpa using hlast
    obtain rfl := eq_nil_of_utf8EncodeChar hb (hsplit.trans List.concat_eq_append)
    exact ⟨String.ofList cs, by rw [← hfront, encode, String.toList_ofList, List.append_nil]⟩

/-- The text can be cut at byte `p`. -/
def Boundary (source : Bytes) (p : Nat) : Prop :=
  ∃ before after : String, source = encode before ++ encode after ∧ (encode before).length = p

theorem boundary_iff :
    Boundary source p ↔ p ≤ source.length ∧ (decode (source.take p)).toOption.isSome ∧
    (decode (source.drop p)).toOption.isSome := by
  constructor
  · rintro ⟨before, after, rfl, rfl⟩
    rw [List.take_left, List.drop_left, decode_encode, decode_encode, List.length_append]
    exact ⟨Nat.le_add_right _ _, rfl, rfl⟩
  · rintro ⟨hp, hbefore, hafter⟩
    cases hb : decode (source.take p) with
    | error f =>
      rw [hb] at hbefore
      cases hbefore
    | ok before =>
      cases ha : decode (source.drop p) with
      | error f =>
        rw [ha] at hafter
        cases hafter
      | ok after =>
        rw [decode_eq_ok_iff] at ha hb
        refine ⟨String.ofList before, String.ofList after, ?_, ?_⟩
        · rw [← ha, ← hb, List.take_append_drop]
        · rw [← hb, List.length_take, Nat.min_eq_left hp]

instance (source : Bytes) (p : Nat) : Decidable (Boundary source p) :=
  decidable_of_iff _ boundary_iff.symm

namespace Boundary

/-- Between two cuts there is text. -/
theorem exists_slice (hp : Boundary source p) (hq : Boundary source q) (h : p ≤ q) :
    ∃ t, slice source p q = encode t := by
  obtain ⟨before, after, hsource, rfl⟩ := hp
  obtain ⟨before', after', hsource', rfl⟩ := hq
  obtain ⟨inner, hinner⟩ := List.prefix_of_prefix_length_le ⟨_, hsource.symm⟩ ⟨_, hsource'.symm⟩ h
  obtain ⟨t, rfl⟩ := exists_of_encode_append hinner
  refine ⟨t, ?_⟩
  rw [slice, hsource', ← hinner, List.append_assoc, List.drop_left, List.length_append,
    Nat.add_sub_cancel_left, List.take_left]

/-- Behind a text that starts at a cut there is another cut. -/
theorem add (h : Boundary source p) (s : String)
    (hs : slice source p (p + (encode s).length) = encode s) :
    Boundary source (p + (encode s).length) := by
  obtain ⟨before, after, rfl, rfl⟩ := h
  rw [slice, List.drop_left, Nat.add_sub_cancel_left] at hs
  have hsplit := List.take_append_drop (encode s).length (encode after)
  rw [hs] at hsplit
  obtain ⟨r, hr⟩ := exists_of_encode_append hsplit
  refine ⟨before ++ s, r, ?_, ?_⟩
  · rw [encode_append, List.append_assoc, ← hr, hsplit]
  · rw [encode_append, List.length_append]

/-- Before a character of one byte that ends at a cut there is another cut. -/
theorem sub_one {b : UInt8} (h : Boundary source p) (hb : b.toNat < 0x80)
    (hslice : slice source (p - 1) p = [b]) : Boundary source (p - 1) := by
  obtain ⟨before, after, rfl, rfl⟩ := h
  rcases List.eq_nil_or_concat (encode before) with hnil | ⟨front, last, hfront⟩
  · simp [hnil, slice] at hslice
  rw [List.concat_eq_append] at hfront
  have hlen : (encode before).length - 1 = front.length := by simp [hfront]
  obtain rfl : last = b := by
    rw [hlen, slice, hfront, List.append_assoc, List.drop_left] at hslice
    simpa using hslice
  obtain ⟨r, rfl⟩ := exists_of_encode_eq_append hb hfront
  have hchar : encode (String.ofList [Char.ofNat last.toNat]) = [last] := by
    simp [encode, utf8EncodeChar_one hb]
  refine ⟨r, String.ofList [Char.ofNat last.toNat] ++ after, ?_, hlen.symm⟩
  rw [encode_append, hchar, hfront, List.append_assoc]

end Boundary
end ThemedCss.Text
