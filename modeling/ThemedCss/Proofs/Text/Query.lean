import Mathlib.Data.List.Basic
import Mathlib.Data.List.TakeWhile
import Mathlib.Tactic.SplitIfs
import ThemedCss.Text.Query

/-! Reading a query gives back what was written into it. -/
namespace ThemedCss.Text.Query

/-- A text as it may be written in a query: each character as it is, or as a percent sign and the
two hexadecimal digits of its code. -/
inductive Spelled : List Char → List Char → Prop
  | nil : Spelled [] []
  | literal {cs ws : List Char} (c : Char) : Spelled cs ws → Spelled (c :: cs) (c :: ws)
  | percent {cs ws : List Char} {c high low : Char} {h l : Nat} :
      hexValue? high = some h → hexValue? low = some l →
      c.toNat = 16 * h + l → Spelled cs ws → Spelled (c :: cs) ('%' :: high :: low :: ws)

/-- A character that no rule of queries changes, except that plus signs are read as blanks. -/
structure Plain (c : Char) : Prop where
  ascii : c.toNat < 128
  percent : c ≠ '%'
  separator : c ≠ '&'
  blank : c ≠ ' '

instance (c : Char) : Decidable (Plain c) :=
  decidable_of_iff (c.toNat < 128 ∧ c ≠ '%' ∧ c ≠ '&' ∧ c ≠ ' ')
    ⟨fun ⟨h₁, h₂, h₃, h₄⟩ => ⟨h₁, h₂, h₃, h₄⟩, fun ⟨h₁, h₂, h₃, h₄⟩ => ⟨h₁, h₂, h₃, h₄⟩⟩

def plusAsBlank (c : Char) : Char :=
  if c == '+' then ' ' else c

def blankAsPlus (c : Char) : Char :=
  if c == ' ' then '+' else c

theorem hexValue?_eq_some {c : Char} {h : Nat} (hc : hexValue? c = some h) :
    c.toNat < 128 ∧ c ≠ '&' ∧ plusAsBlank c = c ∧ h < 16 := by
  have hbounds : (48 ≤ c.toNat ∧ c.toNat ≤ 57 ∧ h = c.toNat - 48) ∨
      (97 ≤ c.toNat ∧ c.toNat ≤ 102 ∧ h = c.toNat - 87) ∨
      (65 ≤ c.toNat ∧ c.toNat ≤ 70 ∧ h = c.toNat - 55) := by
    unfold hexValue? at hc
    split_ifs at hc with h₁ h₂ h₃
    · exact .inl ⟨h₁.1, h₁.2, (Option.some.inj hc).symm⟩
    · exact .inr (.inl ⟨h₂.1, h₂.2, (Option.some.inj hc).symm⟩)
    · exact .inr (.inr ⟨h₃.1, h₃.2, (Option.some.inj hc).symm⟩)
  have hne : ∀ d : Char, d.toNat < 48 → c ≠ d := by
    rintro d hd rfl
    omega
  refine ⟨by omega, hne '&' (by decide), ?_, by omega⟩
  simp [plusAsBlank, hne '+' (by decide)]

theorem Spelled.ascii {cs ws : List Char} (h : Spelled cs ws) (hcs : ∀ c ∈ cs, Plain c) :
    ∀ w ∈ ws, w.toNat < 128 ∧ w ≠ '&' := by
  induction h with
  | nil => simp
  | literal c _ ih =>
    obtain ⟨hc, hcs⟩ := List.forall_mem_cons.mp hcs
    exact List.forall_mem_cons.mpr ⟨⟨hc.ascii, hc.separator⟩, ih hcs⟩
  | percent hhigh hlow _ _ ih =>
    have hh := hexValue?_eq_some hhigh
    have hl := hexValue?_eq_some hlow
    simp only [List.forall_mem_cons]
    exact ⟨by decide, ⟨hh.1, hh.2.1⟩, ⟨hl.1, hl.2.1⟩, ih (List.forall_mem_cons.mp hcs).2⟩

/-- The bytes of a spelled text are its characters, with some plus signs as blanks. -/
theorem Spelled.exists_runBytes {cs ws : List Char} (h : Spelled cs ws) (hcs : ∀ c ∈ cs, Plain c) :
    ∃ ds : List Char, runBytes 0 (ws.map plusAsBlank) = ds.map (fun d => UInt8.ofNat d.toNat) ∧
      (∀ d ∈ ds, d.toNat < 128) ∧ ds.map blankAsPlus = cs := by
  induction h with
  | nil => exact ⟨[], rfl, by simp, rfl⟩
  | literal c _ ih =>
    obtain ⟨hc, hcs⟩ := List.forall_mem_cons.mp hcs
    obtain ⟨ds, hbytes, hascii, hback⟩ := ih hcs
    refine ⟨plusAsBlank c :: ds, ?_, ?_, ?_⟩
    · have hne : plusAsBlank c ≠ '%' := by
        unfold plusAsBlank
        split_ifs
        · decide
        · exact hc.percent
      simp [runBytes, hne, hbytes]
    · refine List.forall_mem_cons.mpr ⟨?_, hascii⟩
      unfold plusAsBlank
      split_ifs
      · decide
      · exact hc.ascii
    · have hid : blankAsPlus (plusAsBlank c) = c := by
        by_cases hplus : c = '+'
        · simp [plusAsBlank, blankAsPlus, hplus]
        · simp [plusAsBlank, blankAsPlus, hplus, hc.blank]
      rw [List.map_cons, hid, hback]
  | @percent _ _ c high low h l hhigh hlow hcode _ ih =>
    obtain ⟨hc, hcs⟩ := List.forall_mem_cons.mp hcs
    obtain ⟨ds, hbytes, hascii, hback⟩ := ih hcs
    refine ⟨c :: ds, ?_, List.forall_mem_cons.mpr ⟨hc.ascii, hascii⟩, ?_⟩
    · have hpercent : plusAsBlank '%' = '%' := rfl
      simp [runBytes, hpercent, (hexValue?_eq_some hhigh).2.2.1, (hexValue?_eq_some hlow).2.2.1,
        hhigh, hlow, hcode, hbytes]
    · simp [blankAsPlus, hc.blank, hback]

private theorem unescape_ascii {run cs : List Char} (h : ∀ c ∈ cs, c.toNat < 128) :
    unescape run cs = runText (run.reverse ++ cs) := by
  induction cs generalizing run with
  | nil => simp [unescape]
  | cons c rest ih =>
    obtain ⟨hc, hrest⟩ := List.forall_mem_cons.mp h
    simp [unescape, hc, ih hrest]

private theorem decodeFirst_ascii {c : Char} (hc : c.toNat < 128) (rest : Bytes) :
    decodeFirst (UInt8.ofNat c.toNat) rest = .ok (c, 0) := by
  have hbyte : (UInt8.ofNat c.toNat).toNat = c.toNat := by
    rw [UInt8.toNat_ofNat']
    omega
  simp [decodeFirst, utf8Lead?, hbyte, hc]

private theorem decodeWith_ascii {ds : List Char} (faulty : Nat → List Char)
    (h : ∀ d ∈ ds, d.toNat < 128) :
    decodeWith faulty 0 (ds.map fun d => UInt8.ofNat d.toNat) = ds := by
  induction ds with
  | nil => rfl
  | cons d rest ih =>
    obtain ⟨hd, hrest⟩ := List.forall_mem_cons.mp h
    simp [decodeWith, decodeFirst_ascii hd, ih hrest]

/-- However a text is spelled, it is read back up to blanks that were plus signs. -/
theorem Spelled.decodePart {cs ws : List Char} (h : Spelled cs ws) (hcs : ∀ c ∈ cs, Plain c) :
    (decodePart ws).map blankAsPlus = cs := by
  obtain ⟨ds, hbytes, hascii, hback⟩ := h.exists_runBytes hcs
  have hwritten : ∀ w ∈ ws.map plusAsBlank, w.toNat < 128 := by
    intro w hw
    obtain ⟨v, hv, rfl⟩ := List.mem_map.mp hw
    unfold plusAsBlank
    split_ifs
    · decide
    · exact (h.ascii hcs v hv).1
  have hread : Query.decodePart ws = ds := by
    change unescape [] (ws.map plusAsBlank) = ds
    rw [unescape_ascii hwritten, List.reverse_nil, List.nil_append, runText, hbytes,
      decodeReplacing, decodeWith_ascii _ hascii]
  rw [hread, hback]

section Split
variable {separator : Char}

private theorem splitAt_ne_nil (separator : Char) (cs : List Char) : splitAt separator cs ≠ [] := by
  cases cs with
  | nil => simp [splitAt]
  | cons c rest =>
    rw [splitAt]
    split
    · simp
    · split_ifs <;> simp

private theorem splitAt_of_not_mem {part : List Char} (h : separator ∉ part) :
    splitAt separator part = [part] := by
  induction part with
  | nil => rfl
  | cons c rest ih =>
    simp only [List.mem_cons, not_or] at h
    simp [splitAt, ih h.2, Ne.symm h.1]

private theorem splitAt_append {part : List Char} (h : separator ∉ part) (rest : List Char) :
    splitAt separator (part ++ separator :: rest) = part :: splitAt separator rest := by
  induction part with
  | nil =>
    rw [List.nil_append, splitAt]
    cases hs : splitAt separator rest with
    | nil => exact absurd hs (splitAt_ne_nil _ _)
    | cons first more => simp
  | cons c part ih =>
    simp only [List.mem_cons, not_or] at h
    simp [splitAt, ih h.2, Ne.symm h.1]

theorem splitAt_intercalate {parts : List (List Char)} (hne : parts ≠ [])
    (h : ∀ p ∈ parts, separator ∉ p) :
    splitAt separator ([separator].intercalate parts) = parts := by
  induction parts with
  | nil => exact absurd rfl hne
  | cons part rest ih =>
    obtain ⟨hpart, hrest⟩ := List.forall_mem_cons.mp h
    cases rest with
    | nil => simpa using splitAt_of_not_mem hpart
    | cons next more =>
      rw [List.intercalate_cons_cons, List.append_assoc, List.singleton_append,
        splitAt_append hpart, ih (List.cons_ne_nil _ _) hrest]

end Split

theorem ofResource_of_not_mem {query : List Char} (h : '?' ∉ query) : ofResource query = query := by
  simp [ofResource, h]

theorem ofResource_append {start : List Char} (h : '?' ∉ start) (query : List Char) :
    ofResource (start ++ '?' :: query) = query := by
  have hstart : ∀ c ∈ start, (c != '?') = true := fun c hc => bne_iff_ne.mpr fun heq => h (heq ▸ hc)
  simp [ofResource, List.dropWhile_append_of_pos hstart]

/-- The name of a parameter is what stands before its first equals sign. -/
theorem parameter?_eq_some {part name value : List Char}
    (h : parameter? part = some (name, value)) : name = decodePart (part.takeWhile (· != '=')) := by
  unfold parameter? at h
  dsimp only at h
  split at h
  · exact (Prod.mk.inj (Option.some.inj h)).1.symm
  · simp at h

theorem parameter?_append {name : List Char} (h : '=' ∉ name) (value : List Char) :
    parameter? (name ++ '=' :: value) =
      if value = [] then none else some (decodePart name, decodePart value) := by
  have hname : (name ++ '=' :: value).takeWhile (· != '=') = name := by
    have hall : ∀ c ∈ name, (c != '=') = true := fun c hc => bne_iff_ne.mpr fun heq => h (heq ▸ hc)
    simp [List.takeWhile_append_of_pos hall]
  cases value with
  | nil => simp [parameter?, hname]
  | cons c rest => simp [parameter?, hname]

/-- A part of a query that gives a parameter a value. An empty value does not count. -/
def Says (part name value : List Char) : Prop :=
  ∃ key written, part = key ++ '=' :: written ∧ '=' ∉ key ∧ written ≠ [] ∧ decodePart key = name ∧
    decodePart written = value

private theorem parameter?_of_not_mem {part : List Char} (h : '=' ∉ part) :
    parameter? part = none := by
  have hall : ∀ c ∈ part, (c != '=') = true := fun c hc => bne_iff_ne.mpr fun heq => h (heq ▸ hc)
  have hname : part.takeWhile (· != '=') = part := by
    rw [List.takeWhile_eq_self_iff]
    exact hall
  simp [parameter?, hname]

theorem parameter?_eq_some_iff {part name value : List Char} :
    parameter? part = some (name, value) ↔ Says part name value := by
  constructor
  · intro h
    by_cases hmem : '=' ∈ part
    · obtain ⟨key, written, rfl, hkey⟩ := List.eq_append_cons_of_mem hmem
      rw [parameter?_append hkey] at h
      split_ifs at h with hwritten
      obtain ⟨hname, hvalue⟩ := Prod.mk.inj (Option.some.inj h)
      exact ⟨key, written, rfl, hkey, hwritten, hname, hvalue⟩
    · rw [parameter?_of_not_mem hmem] at h
      cases h
  · rintro ⟨key, written, rfl, hkey, hwritten, rfl, rfl⟩
    rw [parameter?_append hkey, if_neg hwritten]

section Lookup
variable {p name value other : List Char}

theorem Says.unique (h : Says p name value) (h' : Says p name other) : other = value := by
  have hpair := (parameter?_eq_some_iff.mpr h').symm.trans (parameter?_eq_some_iff.mpr h)
  exact (Prod.mk.inj (Option.some.inj hpair)).2

theorem Says.lookup_cons (h : Says p name value) (rest : List (List Char)) :
    ((p :: rest).filterMap parameter?).lookup name = some value := by
  rw [List.filterMap_cons, parameter?_eq_some_iff.mpr h]
  simp

private theorem lookup_cons_of_forall_not (h : ∀ value, ¬Says p name value)
    (rest : List (List Char)) :
    ((p :: rest).filterMap parameter?).lookup name = (rest.filterMap parameter?).lookup name := by
  rw [List.filterMap_cons]
  cases hparam : parameter? p with
  | none => rfl
  | some pair =>
    obtain ⟨key, value⟩ := pair
    have hkey : name ≠ key := by
      rintro rfl
      exact h value (parameter?_eq_some_iff.mp hparam)
    simp [List.lookup_cons, beq_false_of_ne hkey]

/-- A parameter is looked up by the first part that gives it a value. -/
theorem lookup_filterMap_parameter? {parts : List (List Char)} :
    (parts.filterMap parameter?).lookup name = some value ↔
      ∃ before part after, parts = before ++ part :: after ∧ Says part name value ∧
        ∀ p ∈ before, ∀ other, ¬Says p name other := by
  induction parts with
  | nil => simp
  | cons p rest ih =>
    by_cases hp : ∃ other, Says p name other
    · obtain ⟨other, hother⟩ := hp
      rw [hother.lookup_cons]
      constructor
      · intro heq
        exact ⟨[], p, rest, rfl, Option.some.inj heq ▸ hother, by simp⟩
      · rintro ⟨before, part, after, hparts, hpart, hbefore⟩
        cases before with
        | nil =>
          obtain ⟨rfl, -⟩ := List.cons.inj hparts
          exact congrArg some (hpart.unique hother)
        | cons q before =>
          obtain ⟨rfl, -⟩ := List.cons.inj hparts
          exact absurd hother (hbefore p List.mem_cons_self other)
    · rw [lookup_cons_of_forall_not (not_exists.mp hp), ih]
      constructor
      · rintro ⟨before, part, after, rfl, hpart, hbefore⟩
        exact ⟨p :: before, part, after, rfl, hpart,
          List.forall_mem_cons.mpr ⟨not_exists.mp hp, hbefore⟩⟩
      · rintro ⟨before, part, after, hparts, hpart, hbefore⟩
        cases before with
        | nil =>
          obtain ⟨rfl, -⟩ := List.cons.inj hparts
          exact absurd ⟨value, hpart⟩ hp
        | cons q before =>
          obtain ⟨-, rfl⟩ := List.cons.inj hparts
          exact ⟨before, part, after, rfl, hpart, (List.forall_mem_cons.mp hbefore).2⟩

end Lookup

end ThemedCss.Text.Query
