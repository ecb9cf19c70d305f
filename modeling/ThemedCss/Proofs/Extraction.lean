import ThemedCss.Extraction
import ThemedCss.Proofs.Text.Base64
import ThemedCss.Proofs.Text.Query

/-! Styles in a resource request are read back, however they were written. -/
namespace ThemedCss.Extraction
open ThemedCss.Text

inductive Alphabet where
  | standard
  /-- For addresses: no plus signs and no slashes. -/
  | urlSafe
deriving DecidableEq, Repr

/-- A character of the standard alphabet as it is written in an alphabet. -/
def Alphabet.write : Alphabet → Char → Char
  | standard, c => c
  | urlSafe, c => if c = '+' then '-' else if c = '/' then '_' else c

/-- The payload of some bytes in an alphabet. Any part of its padding may be missing. -/
def IsPayload (alphabet : Alphabet) (bytes : Bytes) (payload : List Char) : Prop :=
  ∃ missing, payload ++ List.replicate missing '=' = (Base64.encodeChars bytes).map alphabet.write

/-- A parameter whose name does not read as the one of styles. -/
def IsOther (part : List Char) : Prop :=
  '&' ∉ part ∧ Query.decodePart (part.takeWhile (· != '=')) ≠ parameterName

/-- A resource that is a query, or has one after its first question mark. -/
def HasQuery (resource : String) (query : List Char) : Prop :=
  (resource.toList = query ∧ '?' ∉ query) ∨
    ∃ start, resource.toList = start ++ '?' :: query ∧ '?' ∉ start

theorem Alphabet.write_plain (alphabet : Alphabet) {c : Char} (hc : c ∈ Base64.alphabet ∨ c = '=') :
    Query.Plain (alphabet.write c) := by
  have hall : (('=' :: Base64.alphabet).all fun c =>
      decide (Query.Plain (standard.write c) ∧ Query.Plain (urlSafe.write c))) = true := by
    decide +kernel
  have hplain := of_decide_eq_true (List.all_eq_true.mp hall c (List.mem_cons.mpr hc.symm))
  cases alphabet with
  | standard => exact hplain.1
  | urlSafe => exact hplain.2

/-- The two alphabets differ in two characters, and in these both ways. -/
theorem Alphabet.write_spec {c : Char} (hc : c ∈ Base64.alphabet ∨ c = '=') :
    (standard.write c ≠ '-' ∧ standard.write c ≠ '_') ∧
      (urlSafe.write c ≠ '+' ∧ urlSafe.write c ≠ '/') ∧
      toStandard (standard.write c) = c ∧ toStandard (urlSafe.write c) = c := by
  have hall :
      (('=' :: Base64.alphabet).all fun c =>
        decide ((standard.write c ≠ '-' ∧ standard.write c ≠ '_') ∧
      (urlSafe.write c ≠ '+' ∧ urlSafe.write c ≠ '/') ∧
      toStandard (standard.write c) = c ∧ toStandard (urlSafe.write c) = c)) = true := by
    decide +kernel
  exact of_decide_eq_true (List.all_eq_true.mp hall c (List.mem_cons.mpr hc.symm))

theorem Alphabet.write_pad (alphabet : Alphabet) : alphabet.write '=' = '=' := by
  cases alphabet with
  | standard => rfl
  | urlSafe => rfl

theorem Alphabet.write_toStandard {c : Char} (hplus : c ≠ '+') (hslash : c ≠ '/') :
    urlSafe.write (toStandard c) = c := by
  simp only [toStandard, write, beq_iff_eq]
  split_ifs <;> simp_all

/-- Filling up gives back the padding that is missing: there are at most two signs of it. -/
theorem fill_eq {bytes : Bytes} {payload : List Char} {missing : Nat}
    (h : payload ++ List.replicate missing '=' = Base64.encodeChars bytes) :
    fill payload = Base64.encodeChars bytes := by
  have hlen := congrArg List.length h
  have hcount := congrArg (List.count '=') h
  rw [List.length_append, List.length_replicate] at hlen
  rw [List.count_append, List.count_replicate_self] at hcount
  have hfour := Base64.length_encodeChars bytes
  have htwo := Base64.count_pad_encodeChars bytes
  have hmissing : (4 - payload.length % 4) % 4 = missing := by omega
  rw [fill, hmissing, h]

section Text
variable {alphabet : Alphabet} {text : List Char}
  (htext : ∀ c ∈ text, c ∈ Base64.alphabet ∨ c = '=')
include htext

theorem map_toStandard_write (alphabet : Alphabet) :
    (text.map alphabet.write).map toStandard = text := by
  rw [List.map_map]
  refine (List.map_congr_left fun c hc => ?_).trans (List.map_id _)
  have hspec := Alphabet.write_spec (htext c hc)
  cases alphabet with
  | standard => exact hspec.2.2.1
  | urlSafe => exact hspec.2.2.2

theorem not_mem_map_write {mark : Char}
    (h : ∀ c, c ∈ Base64.alphabet ∨ c = '=' → alphabet.write c ≠ mark) :
    mark ∉ text.map alphabet.write := by
  intro hmem
  obtain ⟨c, hc, heq⟩ := List.mem_map.mp hmem
  exact h c (htext c hc) heq

/-- Text of one alphabet does not mix the two. -/
theorem unmixed (hmark : '-' ∈ text.map alphabet.write ∨ '_' ∈ text.map alphabet.write) :
    '+' ∉ text.map alphabet.write ∧ '/' ∉ text.map alphabet.write := by
  cases alphabet with
  | standard =>
    have hminus := not_mem_map_write htext fun c hc => (Alphabet.write_spec hc).1.1
    have hunder := not_mem_map_write htext fun c hc => (Alphabet.write_spec hc).1.2
    exact absurd hmark (not_or.mpr ⟨hminus, hunder⟩)
  | urlSafe =>
    have hplus := not_mem_map_write htext fun c hc => (Alphabet.write_spec hc).2.1.1
    have hslash := not_mem_map_write htext fun c hc => (Alphabet.write_spec hc).2.1.2
    exact ⟨hplus, hslash⟩

end Text

private theorem map_toStandard_of_unmarked {payload : List Char}
    (h : ¬('-' ∈ payload ∨ '_' ∈ payload)) : payload.map toStandard = payload := by
  refine (List.map_congr_left fun c hc => ?_).trans (List.map_id _)
  have hminus : c ≠ '-' := fun heq => h (.inl (heq ▸ hc))
  have hunder : c ≠ '_' := fun heq => h (.inr (heq ▸ hc))
  simp [toStandard, hminus, hunder]

theorem decodePayload?_eq {value payload : List Char}
    (hvalue : value.map Query.blankAsPlus = payload) :
    decodePayload? value =
      if '-' ∈ payload ∨ '_' ∈ payload then
        if '+' ∈ payload ∨ '/' ∈ payload then none
        else Base64.decodeStrict? (fill (payload.map toStandard))
      else Base64.decodeStrict? (fill payload) := by
  have hdef : decodePayload? value =
      if payload.contains '-' || payload.contains '_' then
        if payload.contains '+' || payload.contains '/' then none
        else Base64.decodeStrict? (fill (payload.map toStandard))
      else Base64.decodeStrict? (fill payload) := by
    rw [← hvalue]
    rfl
  simpa only [Bool.or_eq_true, List.contains_iff_mem] using hdef

/-- Text of one alphabet is decoded as if it were written in the standard one. -/
theorem decodePayload?_of_write {alphabet : Alphabet} {value text : List Char}
    (htext : ∀ c ∈ text, c ∈ Base64.alphabet ∨ c = '=')
    (hvalue : value.map Query.blankAsPlus = text.map alphabet.write) :
    decodePayload? value = Base64.decodeStrict? (fill text) := by
  have hback := map_toStandard_write htext alphabet
  rw [decodePayload?_eq hvalue]
  by_cases hmark : '-' ∈ text.map alphabet.write ∨ '_' ∈ text.map alphabet.write
  · obtain ⟨hplus, hslash⟩ := unmixed htext hmark
    rw [if_pos hmark, if_neg (not_or.mpr ⟨hplus, hslash⟩), hback]
  · rw [if_neg hmark, ← map_toStandard_of_unmarked hmark, hback]

section Payload
variable {alphabet : Alphabet} {bytes : Bytes} {payload : List Char}
  (h : IsPayload alphabet bytes payload)
include h

/-- A payload is some text in its alphabet. Filled up, it is the text of the bytes. -/
theorem IsPayload.exists_text :
    ∃ text, payload = text.map alphabet.write ∧ (∀ c ∈ text, c ∈ Base64.alphabet ∨ c = '=') ∧
      fill text = Base64.encodeChars bytes := by
  obtain ⟨missing, heq⟩ := h
  obtain ⟨text, pads, htext, hpayload, hpads⟩ := List.append_eq_map_iff.mp heq
  have hmem : ∀ c ∈ text ++ pads, c ∈ Base64.alphabet ∨ c = '=' :=
    fun c hc => Base64.mem_encodeChars (htext ▸ hc)
  have hback := map_toStandard_write (List.forall_mem_append.mp hmem).2 alphabet
  rw [hpads, List.map_replicate] at hback
  have hfull : text ++ List.replicate missing '=' = Base64.encodeChars bytes := by
    rw [htext, ← hback]
    rfl
  exact ⟨text, hpayload.symm, (List.forall_mem_append.mp hmem).1, fill_eq hfull⟩

theorem IsPayload.plain {c : Char} (hc : c ∈ payload) : Query.Plain c := by
  obtain ⟨text, rfl, htext, -⟩ := h.exists_text
  obtain ⟨d, hd, rfl⟩ := List.mem_map.mp hc
  exact alphabet.write_plain (htext d hd)

theorem IsPayload.decodePayload? {value : List Char}
    (hvalue : value.map Query.blankAsPlus = payload) : decodePayload? value = some bytes := by
  obtain ⟨text, rfl, htext, hfill⟩ := h.exists_text
  rw [decodePayload?_of_write htext hvalue, hfill, Base64.decodeStrict?_encodeChars]

end Payload

private theorem ofResource_eq {resource : String} {query : List Char}
    (h : HasQuery resource query) : Query.ofResource resource.toList = query := by
  rcases h with ⟨heq, hmark⟩ | ⟨start, heq, hmark⟩
  · rw [heq, Query.ofResource_of_not_mem hmark]
  · rw [heq, Query.ofResource_append hmark]

theorem lookup_others {parts : List (List Char)} (h : ∀ p ∈ parts, IsOther p) :
    (parts.filterMap Query.parameter?).lookup parameterName = none := by
  refine List.lookup_eq_none_iff.mpr fun ⟨name, value⟩ hmem => ?_
  obtain ⟨part, hpart, heq⟩ := List.mem_filterMap.mp hmem
  have hname := Query.parameter?_eq_some heq
  exact bne_iff_ne.mpr fun hsame => (h part hpart).2 (hname ▸ hsame.symm)

/-- Of the parameters of a query, the one for styles is found among others. -/
theorem lookup_parameters {before after : List (List Char)} {written : List Char}
    (hothers : ∀ p ∈ before ++ after, IsOther p) (hwritten : '&' ∉ written) :
    (Query.parameters
      (['&'].intercalate (before ++ [parameterName ++ '=' :: written] ++ after))).lookup
        parameterName =
      if written = [] then none else some (Query.decodePart written) := by
  obtain ⟨hbefore, hafter⟩ := List.forall_mem_append.mp hothers
  have hmine : '&' ∉ parameterName ++ '=' :: written := by
    have hname : '&' ∉ parameterName := by decide
    simp [hname, hwritten]
  have hparts : ∀ p ∈ before ++ [parameterName ++ '=' :: written] ++ after, '&' ∉ p := by
    simp only [List.forall_mem_append, List.forall_mem_singleton]
    exact ⟨⟨fun p hp => (hbefore p hp).1, hmine⟩, fun p hp => (hafter p hp).1⟩
  have hname : Query.decodePart parameterName = parameterName := by decide +kernel
  rw [Query.parameters, Query.splitAt_intercalate (by simp) hparts, List.filterMap_append,
    List.filterMap_append,
    List.lookup_append, List.lookup_append, lookup_others hbefore, lookup_others hafter,
    Option.none_or, Option.or_none, List.filterMap_cons, Query.parameter?_append (by decide), hname]
  split_ifs
  · rfl
  · simp

/-- Whatever bytes are sent, in whatever alphabet, with or without padding, however its characters
are spelled and whatever other parameters there are, these bytes are loaded. -/
theorem load_undoes_encoding (alphabet : Alphabet) (bytes : Bytes) (payload written : List Char)
    (before after : List (List Char)) (resource : String)
    (hpayload : IsPayload alphabet bytes payload) (hwritten : Query.Spelled payload written)
    (hothers : ∀ p ∈ before ++ after, IsOther p)
    (hresource : HasQuery resource
      (['&'].intercalate (before ++ [parameterName ++ '=' :: written] ++ after))) :
    load resource = bytes := by
  have hplain : ∀ c ∈ payload, Query.Plain c := fun c hc => hpayload.plain hc
  have hlookup := lookup_parameters hothers fun hmem => (hwritten.ascii hplain _ hmem).2 rfl
  rw [load, ofResource_eq hresource, hlookup]
  by_cases hempty : written = []
  · subst hempty
    cases hwritten
    have hdecode : decodePayload? [] = some bytes := hpayload.decodePayload? rfl
    rw [if_pos rfl]
    exact Option.some.inj hdecode
  · rw [if_neg hempty]
    simp [hpayload.decodePayload? (hwritten.decodePart hplain)]

/-- A payload in the alphabet for addresses, with half of its padding and some characters behind
percent signs, between other parameters of a longer resource. -/
theorem load_undoes_encoding_mixed :
    let payload := "----_w=".toList
    let written := "-%2d--%5F%77=".toList
    IsPayload .urlSafe [251, 239, 190, 255] payload ∧ Query.Spelled payload written ∧
      (∀ p ∈ ["cs+s=x".toList, "q".toList] ++ ["?css".toList], IsOther p) ∧
      load "/a.css?cs+s=x&q&css=-%2d--%5F%77=&?css" = [251, 239, 190, 255] := by
  intro payload written
  have hpayload : IsPayload .urlSafe [251, 239, 190, 255] payload := ⟨1, by decide +kernel⟩
  have hwritten : Query.Spelled payload written :=
    .literal _ (.percent rfl rfl rfl
      (.literal _ (.literal _ (.percent rfl rfl rfl (.percent rfl rfl rfl
      (.literal _ .nil))))))
  have hothers : ∀ p ∈ ["cs+s=x".toList, "q".toList] ++ ["?css".toList], IsOther p := by
    unfold IsOther
    decide +kernel
  exact ⟨hpayload, hwritten, hothers,
    load_undoes_encoding .urlSafe _ payload written _ _ _ hpayload hwritten hothers
    (.inr ⟨"/a.css".toList, by decide +kernel, by decide⟩)⟩

section Value

/-- The first value that a resource gives the parameter of styles. -/
def FirstValue (resource : String) (value : List Char) : Prop :=
  ∃ before part after, Query.splitAt '&' (Query.ofResource resource.toList) =
    before ++ part :: after ∧
    Query.Says part parameterName value ∧ ∀ p ∈ before, ∀ other, ¬Query.Says p parameterName other

/-- A value that encodes some bytes. With plus signs for blanks it is their text in one alphabet,
but for bits of the last character that belong to no byte. The padding is no more than the text
needs, or any if it needs none. -/
def Encodes (value : List Char) (bytes : Bytes) : Prop :=
  ∃ alphabet digits pads,
    value.map Query.blankAsPlus = digits.map (Alphabet.write alphabet) ++ List.replicate pads '=' ∧
      (∀ c ∈ digits, c ∈ Base64.alphabet) ∧ Base64.AlikeButLast digits (Base64.unpadded bytes) ∧
      (digits.length % 4 = 0 ∨ digits.length % 4 + pads ≤ 4)

theorem firstValue_iff {resource : String} {value : List Char} : FirstValue resource value ↔
    (Query.parameters (Query.ofResource resource.toList)).lookup parameterName = some value :=
  Query.lookup_filterMap_parameter?.symm

theorem fill_append (digits : List Char) (pads : Nat) :
    fill (digits ++ List.replicate pads '=') =
      digits ++ List.replicate (pads + (4 - (digits.length + pads) % 4) % 4) '=' := by
  simp [fill]

/-- Filling up adds nothing but padding at the end. -/
theorem exists_of_fill {text digits : List Char} {k : Nat} (hpad : '=' ∉ digits)
    (h : fill text = digits ++ List.replicate k '=') :
    ∃ pads, text = digits ++ List.replicate pads '=' := by
  unfold fill at h
  rcases List.append_eq_append_iff.mp h with ⟨more, hdigits, hmore⟩ | ⟨more, htext, hmore⟩
  · have hnil : more = [] := by
      refine List.eq_nil_iff_forall_not_mem.mpr fun c hc => ?_
      have hc' : c = '=' := List.eq_of_mem_replicate (hmore ▸ List.mem_append_left _ hc)
      exact hpad (hdigits ▸ List.mem_append_right _ (hc' ▸ hc))
    exact ⟨0, by simp [hdigits, hnil]⟩
  · have hmore' := (List.append_eq_replicate_iff.mp hmore.symm).2.1
    exact ⟨more.length, by rw [htext, ← hmore']⟩

private theorem exists_write_of_decodePayload? {value : List Char} {bytes : Bytes}
    (h : decodePayload? value = some bytes) :
    ∃ alphabet text, value.map Query.blankAsPlus = text.map (Alphabet.write alphabet) ∧
      Base64.decodeStrict? (fill text) = some bytes := by
  generalize hpayload : value.map Query.blankAsPlus = payload
  rw [decodePayload?_eq hpayload] at h
  split_ifs at h with hmark hmixed
  · refine ⟨.urlSafe, payload.map toStandard, ?_, h⟩
    rw [List.map_map]
    refine ((List.map_congr_left fun c hc => ?_).trans (List.map_id _)).symm
    have hplus : c ≠ '+' := fun heq => hmixed (.inl (heq ▸ hc))
    have hslash : c ≠ '/' := fun heq => hmixed (.inr (heq ▸ hc))
    exact Alphabet.write_toStandard hplus hslash
  · exact ⟨.standard, payload, (List.map_id _).symm, h⟩

/-- A payload is decoded exactly to the bytes that it encodes. -/
theorem decodePayload?_eq_some_iff {value : List Char} {bytes : Bytes} (hne : bytes ≠ []) :
    decodePayload? value = some bytes ↔ Encodes value bytes := by
  constructor
  · intro h
    obtain ⟨alphabet, text, hvalue, hdecode⟩ := exists_write_of_decodePayload? h
    obtain ⟨digits, k, hfill, halike, hfits⟩ := (Base64.decodeStrict?_eq_some_iff hne).mp hdecode
    have hmem : ∀ c ∈ digits, c ∈ Base64.alphabet := fun c hc => halike.mem_alphabet hc
    obtain ⟨pads, rfl⟩ :=
      exists_of_fill (fun hpad => Base64.pad_not_mem_alphabet (hmem _ hpad)) hfill
    rw [fill_append, List.append_cancel_left_eq, List.replicate_inj] at hfill
    refine ⟨alphabet, digits, pads, ?_, hmem, halike, ?_⟩
    · rw [hvalue, List.map_append, List.map_replicate, Alphabet.write_pad]
    · have hk := hfill.1
      unfold Base64.Fits at hfits
      omega
  · rintro ⟨alphabet, digits, pads, hvalue, hmem, halike, hpads⟩
    have htext : ∀ c ∈ digits ++ List.replicate pads '=', c ∈ Base64.alphabet ∨ c = '=' := by
      refine List.forall_mem_append.mpr
        ⟨fun c hc => .inl (hmem c hc), fun c hc => .inr (List.eq_of_mem_replicate hc)⟩
    have hwrite : value.map Query.blankAsPlus =
        (digits ++ List.replicate pads '=').map alphabet.write := by
      rw [hvalue, List.map_append, List.map_replicate, Alphabet.write_pad]
    have hlength : digits.length % 4 ≠ 1 := by
      obtain ⟨-, -, -, hlength⟩ := Base64.values_of_alikeButLast halike
      exact hlength
    rw [decodePayload?_of_write htext hwrite, fill_append]
    refine (Base64.decodeStrict?_eq_some_iff hne).mpr ⟨digits, _, rfl, halike, ?_⟩
    unfold Base64.Fits
    omega

theorem Encodes.ne_nil {value : List Char} {bytes : Bytes} (h : Encodes value bytes) :
    bytes ≠ [] := by
  rintro rfl
  obtain ⟨-, -, -, -, -, ⟨front, -, d, -, -, -, hd, -⟩, -⟩ := h
  simp [Base64.unpadded, Base64.encodeChars] at hd

theorem load_eq_iff {resource : String} {bytes : Bytes} (hne : bytes ≠ []) :
    load resource = bytes ↔ ∃ value, FirstValue resource value ∧
      decodePayload? value = some bytes := by
  simp only [firstValue_iff]
  unfold load
  cases hlookup : (Query.parameters (Query.ofResource resource.toList)).lookup parameterName with
  | none => simp [hne.symm]
  | some value =>
    cases hdecode : decodePayload? value with
    | none => simp [hdecode, hne.symm]
    | some found => simp [hdecode]

/-- A resource gives bytes exactly if its first value for styles encodes them, and otherwise none:
nothing that is malformed, cut off or mixed from two alphabets is read as bytes. -/
theorem load_gives_encoded_bytes (resource : String) :
    (∀ bytes, load resource = bytes ∧ bytes ≠ [] ↔
      ∃ value, FirstValue resource value ∧ Encodes value bytes) ∧
      (load resource = [] ↔ ¬∃ value bytes, FirstValue resource value ∧ Encodes value bytes) := by
  have hgives : ∀ bytes, load resource = bytes ∧ bytes ≠ [] ↔
      ∃ value, FirstValue resource value ∧ Encodes value bytes := by
    intro bytes
    constructor
    · rintro ⟨hload, hne⟩
      obtain ⟨value, hvalue, hdecode⟩ := (load_eq_iff hne).mp hload
      exact ⟨value, hvalue, (decodePayload?_eq_some_iff hne).mp hdecode⟩
    · rintro ⟨value, hvalue, hencodes⟩
      have hne := hencodes.ne_nil
      have hdecode := (decodePayload?_eq_some_iff hne).mpr hencodes
      exact ⟨(load_eq_iff hne).mpr ⟨value, hvalue, hdecode⟩, hne⟩
  refine ⟨hgives, ?_⟩
  constructor
  · rintro hempty ⟨value, bytes, hvalue⟩
    obtain ⟨hload, hne⟩ := (hgives bytes).mpr ⟨value, hvalue⟩
    exact hne (hload.symm.trans hempty)
  · intro hnone
    by_contra hne
    obtain ⟨value, hvalue⟩ := (hgives (load resource)).mp ⟨rfl, hne⟩
    exact hnone ⟨value, load resource, hvalue⟩

end Value

end ThemedCss.Extraction
