import Mathlib.Data.List.TakeWhile
import Mathlib.Tactic.SplitIfs
import Mathlib.Tactic.Tauto
import ThemedCss.Proofs.Output.Layout
import ThemedCss.Syntax.Parser

/-! Template literals as a program reads them, and what the reference in place of an interpolation
says there. -/
namespace ThemedCss.Output
open ThemedCss.Syntax ThemedCss.Style ThemedCss.Text

def pointUnits (n : Nat) : List Nat :=
  if n < 0x10000 then [n] else [0xD800 + (n - 0x10000) / 0x400, 0xDC00 + (n - 0x10000) % 0x400]

def unitsOf (cs : List Char) : List Nat :=
  cs.flatMap fun c => pointUnits c.toNat

def hexValue (digits : List Char) : Nat :=
  digits.foldl (fun n c => 16 * n + if c.isDigit then c.toNat - 48 else c.toLower.toNat - 87) 0

/-- One code unit from exactly `width` digits, which follow a letter. -/
def fixedEscape? (width : Nat) (rest : List Char) : Option (List Nat × Nat) :=
  let digits := rest.take width
  if digits.length = width ∧ digits.all Char.isHexDigit then
    some ([hexValue digits], width + 1)
  else none

/-- A code point from the digits before a closing brace, which follow a letter and the opening
brace. -/
def bracedEscape? (rest : List Char) : Option (List Nat × Nat) :=
  let digits := rest.takeWhile Char.isHexDigit
  if digits ≠ [] ∧ hexValue digits ≤ 0x10FFFF ∧ (rest.drop digits.length).head? = some '}' then
    some (pointUnits (hexValue digits), digits.length + 3)
  else none

def controlEscapes : List (Char × Nat) :=
  [('b', 8), ('t', 9), ('n', 10), ('v', 11), ('f', 12), ('r', 13)]

/-- What an escape says, and how many characters after the backslash belong to it. An escaped line
end says nothing. -/
def escape? : List Char → Option (List Nat × Nat)
  | [] => none
  | c :: rest =>
    if Lexeme.endsComment c then some ([], if c = '\r' ∧ rest.head? = some '\n' then 2 else 1)
    else if c = 'x' then fixedEscape? 2 rest
    else if c = 'u' then if rest.head? = some '{' then bracedEscape? rest.tail
    else fixedEscape? 4 rest
    else if c.isDigit then if c = '0' ∧ ¬rest.head?.any Char.isDigit then some ([0], 1) else none
    else some (((controlEscapes.lookup c).map ([·])).getD (pointUnits c.toNat), 1)

/-- How the text of a template goes on: it is still `inside`, a backslash is left over, or a mark
has closed it or has opened a hole before `rest`. -/
inductive Ending where
  | inside
  | dangling
  | closed (rest : List Char)
  | hole (rest : List Char)
deriving DecidableEq, Repr

/-- What the text up to its ending says; text with a malformed escape says nothing. -/
structure Reading where
  value : Option (List Nat)
  ending : Ending
deriving DecidableEq, Repr

def Reading.after (value : Option (List Nat)) (r : Reading) : Reading :=
  { r with value := value.bind fun units => r.value.map (units ++ ·) }

/-- Read the text of a template after the next `skip` characters, which belong to an escape or to a
line end. A carriage return is read as a line feed, together with the line feed behind it. -/
def readFrom : Nat → List Char → Reading
  | _, [] => ⟨some [], .inside⟩
  | skip + 1, _ :: rest => readFrom skip rest
  | 0, c :: rest =>
    if c = '\\' then
      match escape? rest with
      | some (value, taken) => .after (some value) (readFrom taken rest)
      | none => if rest = [] then ⟨none, .dangling⟩ else .after none (readFrom 1 rest)
    else if c = '\x60' then ⟨some [], .closed rest⟩
    else if c = '$' ∧ rest.head? = some '{' then ⟨some [], .hole rest⟩
    else if c = '\r' then .after (some [10])
      (readFrom (if rest.head? = some '\n' then 1 else 0) rest)
    else .after (some (pointUnits c.toNat)) (readFrom 0 rest)

def readTemplate (cs : List Char) : Reading :=
  readFrom 0 cs

def lineFeeds : List Char → List Char
  | [] => []
  | '\r' :: '\n' :: rest => '\n' :: lineFeeds rest
  | '\r' :: rest => '\n' :: lineFeeds rest
  | c :: rest => c :: lineFeeds rest

section Escapes
variable (rest after : List Char)

theorem head?_append_v {d : Char} (hd : d ≠ 'v') :
    (rest ++ 'v' :: after).head? = some d ↔ rest.head? = some d := by
  cases rest <;> simp [hd.symm]

theorem fixedEscape?_append_v (width : Nat) :
    fixedEscape? width (rest ++ 'v' :: after) = fixedEscape? width rest := by
  unfold fixedEscape?
  by_cases h : width ≤ rest.length
  · rw [List.take_append_of_le_length h]
  · have hmem : 'v' ∈ (rest ++ 'v' :: after).take width := by
      have hpos : width - rest.length = (width - rest.length - 1) + 1 := by omega
      rw [List.take_append, hpos, List.take_succ_cons]
      simp
    have hall : ¬((rest ++ 'v' :: after).take width).all Char.isHexDigit := by
      intro hall
      exact absurd (List.all_eq_true.mp hall 'v' hmem) (by decide)
    have hlength : (rest.take width).length ≠ width := by
      rw [List.length_take]
      omega
    dsimp only
    rw [if_neg fun hlong => hall hlong.2, if_neg fun hshort => hlength hshort.1]

private theorem takeWhile_append_v :
    (rest ++ 'v' :: after).takeWhile Char.isHexDigit = rest.takeWhile Char.isHexDigit := by
  have hv : Char.isHexDigit 'v' = false := by decide
  induction rest with
  | nil => simp [hv]
  | cons c rest ih => simp [List.takeWhile_cons, ih]

private theorem bracedEscape?_append_v :
    bracedEscape? (rest ++ 'v' :: after) = bracedEscape? rest := by
  have hle : (rest.takeWhile Char.isHexDigit).length ≤ rest.length :=
    (List.takeWhile_prefix _).length_le
  unfold bracedEscape?
  simp only [takeWhile_append_v, List.drop_append_of_le_length hle,
    head?_append_v _ _ (show '}' ≠ 'v' by decide)]

/-- A letter that is no hexadecimal digit does not change the escape before it. -/
theorem escape?_append_v (h : rest ≠ []) : escape? (rest ++ 'v' :: after) = escape? rest := by
  cases rest with
  | nil => exact absurd rfl h
  | cons c rest =>
    have hbrace : (rest ++ 'v' :: after).head? = some '{' ↔ rest.head? = some '{' :=
      head?_append_v _ _ (by decide)
    have hfeed : (rest ++ 'v' :: after).head? = some '\n' ↔ rest.head? = some '\n' :=
      head?_append_v _ _ (by decide)
    have hdigit : (rest ++ 'v' :: after).head?.any Char.isDigit = rest.head?.any Char.isDigit := by
      cases rest <;> simp
    have hcode :
        (if (rest ++ 'v' :: after).head? = some '{' then bracedEscape? (rest ++ 'v' :: after).tail
        else fixedEscape? 4 (rest ++ 'v' :: after)) =
        if rest.head? = some '{' then bracedEscape? rest.tail else fixedEscape? 4 rest := by
      simp only [hbrace, fixedEscape?_append_v]
      split_ifs with hopen
      · cases rest with
        | nil => cases hopen
        | cons d rest => exact bracedEscape?_append_v rest after
      · rfl
    rw [List.cons_append, escape?, escape?, hcode]
    simp only [hfeed, hdigit, fixedEscape?_append_v]

variable {rest} {value : List Nat} {taken : Nat}

theorem taken_le_of_fixedEscape? {width : Nat} (h : fixedEscape? width rest = some (value, taken)) :
    taken ≤ rest.length + 1 := by
  unfold fixedEscape? at h
  dsimp only at h
  split_ifs at h with hdigits
  have hlength := hdigits.1
  rw [List.length_take] at hlength
  obtain ⟨-, rfl⟩ := Prod.mk.inj (Option.some.inj h)
  omega

private theorem taken_le_of_bracedEscape? (h : bracedEscape? rest = some (value, taken)) :
    taken ≤ rest.length + 2 := by
  unfold bracedEscape? at h
  dsimp only at h
  split_ifs at h with hdigits
  have hlt : (rest.takeWhile Char.isHexDigit).length < rest.length := by
    by_contra hge
    have hend := hdigits.2.2
    rw [List.drop_eq_nil_of_le (by omega)] at hend
    cases hend
  obtain ⟨-, rfl⟩ := Prod.mk.inj (Option.some.inj h)
  omega

/-- An escape ends within the text. -/
theorem taken_le_of_escape? (h : escape? rest = some (value, taken)) : taken ≤ rest.length := by
  cases rest with
  | nil => cases h
  | cons c rest =>
    rw [List.length_cons]
    rw [escape?] at h
    split_ifs at h with hend hfeed hx hu hopen hdigit hzero
    · obtain ⟨-, rfl⟩ := Prod.mk.inj (Option.some.inj h)
      cases rest with
      | nil => cases hfeed.2
      | cons d rest => simp
    · obtain ⟨-, rfl⟩ := Prod.mk.inj (Option.some.inj h)
      omega
    · exact taken_le_of_fixedEscape? h
    · have hle := taken_le_of_bracedEscape? h
      cases rest with
      | nil => cases hopen
      | cons d rest => exact hle
    · exact taken_le_of_fixedEscape? h
    · obtain ⟨-, rfl⟩ := Prod.mk.inj (Option.some.inj h)
      omega
    · obtain ⟨-, rfl⟩ := Prod.mk.inj (Option.some.inj h)
      omega

end Escapes

section Replacing

def escaped (c : Char) (rest : List Char) : List Char :=
  if c = '\\' ∨ c = '\x60' ∨ c = '$' ∧ rest.head? = some '{' then ['\\', c] else [c]

/-- A text with the marks of a template escaped, in one pass. -/
def escapeChars : List Char → List Char
  | [] => []
  | c :: rest => escaped c rest ++ escapeChars rest

/-- Replacing one character goes through a text character by character. -/
theorem replaceAll_singleton (d : Char) (new cs : List Char) :
    replaceAll [d] new cs = cs.flatMap fun c => if c = d then new else [c] := by
  unfold replaceAll
  induction cs with
  | nil => rfl
  | cons c cs ih =>
    rw [replaceFrom, List.flatMap_cons, ← ih]
    by_cases h : c = d
    · simp [h]
    · simp [h, Ne.symm h]

theorem replaceAll_plain {c : Char} {rest : List Char} (h : ¬(c = '$' ∧ rest.head? = some '{')) :
    replaceAll ['$', '{'] ['\\', '$', '{'] (c :: rest) =
      c :: replaceAll ['$', '{'] ['\\', '$', '{'] rest := by
  have hmark : ¬['$', '{'].isPrefixOf (c :: rest) := by
    rw [List.isPrefixOf_iff_prefix]
    rintro ⟨tail, htail⟩
    obtain ⟨rfl, rfl⟩ := List.cons.inj htail
    exact h ⟨rfl, rfl⟩
  rw [replaceAll, replaceFrom, if_neg hmark, replaceAll]

private theorem replaceAll_hole {rest : List Char} (h : rest.head? = some '{') :
    replaceAll ['$', '{'] ['\\', '$', '{'] ('$' :: rest) =
      '\\' :: '$' :: replaceAll ['$', '{'] ['\\', '$', '{'] rest := by
  obtain ⟨tail, rfl⟩ := List.head?_eq_some_iff.mp h
  have hbrace : ¬('{' = '$' ∧ tail.head? = some '{') := fun hmark => absurd hmark.1 (by decide)
  rw [replaceAll_plain hbrace]
  rfl

def slashed (cs : List Char) : List Char :=
  replaceAll ['\x60'] ['\\', '\x60'] (replaceAll ['\\'] ['\\', '\\'] cs)

theorem slashed_cons (c : Char) (cs : List Char) :
    slashed (c :: cs) = (if c = '\\' ∨ c = '\x60' then ['\\', c] else [c]) ++ slashed cs := by
  simp only [slashed, replaceAll_singleton, List.flatMap_cons, List.flatMap_append]
  by_cases hslash : c = '\\'
  · simp [hslash]
  · by_cases hquote : c = '\x60'
    · simp [hquote]
    · simp [hslash, hquote]

/-- A brace comes first only if it did before. -/
theorem head?_slashed (cs : List Char) : (slashed cs).head? = some '{' ↔ cs.head? = some '{' := by
  cases cs with
  | nil => rfl
  | cons c cs =>
    rw [slashed_cons]
    split_ifs with h
    · rcases h with rfl | rfl <;> simp
    · simp

/-- The three replacements, each on what the one before has left, come to one pass over the text. -/
theorem toList_escapeTemplate (s : String) : (escapeTemplate s).toList = escapeChars s.toList := by
  have hpass : ∀ cs, replaceAll ['$', '{'] ['\\', '$', '{'] (slashed cs) = escapeChars cs := by
    intro cs
    induction cs with
    | nil => rfl
    | cons c cs ih =>
      rw [slashed_cons, escapeChars, escaped, ← ih]
      by_cases hmark : c = '\\' ∨ c = '\x60'
      · have hdollar : c ≠ '$' := by rcases hmark with rfl | rfl <;> decide
        rw [if_pos hmark, if_pos (or_assoc.mp (.inl hmark)), List.cons_append,
          List.singleton_append,
          replaceAll_plain fun h => absurd h.1 (by decide), replaceAll_plain fun h => hdollar h.1]
        rfl
      · rw [if_neg hmark, List.singleton_append]
        by_cases hhole : c = '$' ∧ cs.head? = some '{'
        · obtain ⟨rfl, hbrace⟩ := hhole
          rw [replaceAll_hole ((head?_slashed cs).mpr hbrace), if_pos (.inr (.inr ⟨rfl, hbrace⟩))]
          rfl
        · rw [replaceAll_plain (by rwa [head?_slashed]), if_neg (by tauto)]
          rfl
  rw [escapeTemplate, String.toList_ofList]
  exact hpass s.toList

end Replacing

section Readings

@[simp] theorem Reading.after_nil (r : Reading) : r.after (some []) = r := by
  obtain ⟨value, ending⟩ := r
  cases value <;> rfl

theorem Reading.after_after (value later : Option (List Nat)) (r : Reading) :
    (r.after later).after value = r.after (value.bind fun units => later.map (units ++ ·)) := by
  cases value <;> cases later <;> simp [Reading.after, Function.comp_def]

variable {c : Char} {rest : List Char}

theorem readFrom_of_escape? {value : List Nat} {taken : Nat}
    (h : escape? rest = some (value, taken)) :
    readFrom 0 ('\\' :: rest) = (readFrom taken rest).after (some value) := by
  rw [readFrom, if_pos rfl, h]

theorem readFrom_of_malformed (h : escape? rest = none) (hne : rest ≠ []) :
    readFrom 0 ('\\' :: rest) = (readFrom 1 rest).after none := by
  rw [readFrom, if_pos rfl, h]
  exact if_neg hne

theorem readFrom_return (rest : List Char) :
    readFrom 0 ('\r' :: rest) =
      (readFrom (if rest.head? = some '\n' then 1 else 0) rest).after (some [10]) := by
  rw [readFrom, if_neg (by decide), if_neg (by decide),
    if_neg fun h => absurd h.1 (by decide), if_pos rfl]

theorem readFrom_plain (hslash : c ≠ '\\') (hquote : c ≠ '\x60')
    (hhole : ¬(c = '$' ∧ rest.head? = some '{')) (hreturn : c ≠ '\r') :
    readFrom 0 (c :: rest) = (readFrom 0 rest).after (some (pointUnits c.toNat)) := by
  rw [readFrom, if_neg hslash, if_neg hquote, if_neg hhole, if_neg hreturn]

/-- What is read before a letter that belongs to no escape does not depend on what follows. -/
theorem readFrom_append_v {before : List Char} {skip : Nat} (after : List Char)
    (hskip : skip ≤ before.length) (h : (readFrom skip before).ending = .inside) :
    readFrom skip (before ++ 'v' :: after) =
      (readFrom 0 ('v' :: after)).after (readFrom skip before).value := by
  -- an escape or a line end skips characters, but never past the end of the text
  induction before generalizing skip with
  | nil =>
    obtain rfl : skip = 0 := by simpa using hskip
    simp [readFrom]
  | cons c rest ih =>
    cases skip with
    | succ skip => exact ih (by simpa using hskip) h
    | zero =>
      have hzero : 0 ≤ rest.length := Nat.zero_le _
      rw [List.cons_append]
      by_cases hslash : c = '\\'
      · subst hslash
        by_cases hrest : rest = []
        · -- a backslash at the end would be dangling
          subst hrest
          cases h
        · have hone : 1 ≤ rest.length := List.length_pos_iff.mpr hrest
          have hstable := escape?_append_v rest after hrest
          cases hescape : escape? rest with
          | none =>
            rw [readFrom_of_malformed hescape hrest] at h ⊢
            rw [readFrom_of_malformed (hstable.trans hescape) (by simp), ih hone h]
            simp [Reading.after]
          | some found =>
            rw [readFrom_of_escape? hescape] at h ⊢
            rw [readFrom_of_escape? (hstable.trans hescape), ih (taken_le_of_escape? hescape) h,
              Reading.after_after]
            rfl
      · by_cases hreturn : c = '\r'
        · subst hreturn
          have hfeed : (rest ++ 'v' :: after).head? = some '\n' ↔ rest.head? = some '\n' :=
            head?_append_v rest after (by decide)
          have hle : (if rest.head? = some '\n' then 1 else 0) ≤ rest.length := by
            cases rest with
            | nil => simp
            | cons d rest => split_ifs <;> simp
          rw [readFrom_return] at h ⊢
          rw [readFrom_return]
          simp only [hfeed]
          rw [ih hle h, Reading.after_after]
          rfl
        · by_cases hquote : c = '\x60'
          · simp [readFrom, hquote] at h
          · by_cases hhole : c = '$' ∧ rest.head? = some '{'
            · simp [readFrom, hhole] at h
            · have hhole' : ¬(c = '$' ∧ (rest ++ 'v' :: after).head? = some '{') := by
                rwa [head?_append_v rest after (by decide)]
              rw [readFrom_plain hslash hquote hhole hreturn] at h ⊢
              rw [readFrom_plain hslash hquote hhole' hreturn, ih hzero h, Reading.after_after]
              rfl

/-- A brace or a line feed comes first only if it did before. -/
theorem head?_escapeChars (v : List Char) {after : List Char} {d : Char} (hd : d = '{' ∨ d = '\n')
    (hafter : after.head? ≠ some d) :
    (escapeChars v ++ after).head? = some d ↔ v.head? = some d := by
  cases v with
  | nil => simpa [escapeChars] using hafter
  | cons c rest =>
    rw [escapeChars]
    unfold escaped
    split_ifs with h
    · rcases h with rfl | rfl | ⟨rfl, -⟩ <;> rcases hd with rfl | rfl <;> simp
    · simp

/-- A character is read back, whether or not it had to be escaped. -/
theorem readFrom_escaped {c : Char} {rest tail : List Char} (hreturn : c ≠ '\r')
    (h : tail.head? = some '{' → rest.head? = some '{') :
    readFrom 0 (escaped c rest ++ tail) = (readFrom 0 tail).after (some (pointUnits c.toNat)) := by
  unfold escaped
  split_ifs with hescape
  · have hsay : escape? (c :: tail) = some (pointUnits c.toNat, 1) := by
      rcases hescape with rfl | rfl | ⟨rfl, -⟩ <;> rfl
    exact readFrom_of_escape? hsay
  · rw [not_or, not_or] at hescape
    exact readFrom_plain hescape.1 hescape.2.1
      (fun hhole => hescape.2.2 ⟨hhole.1, h hhole.2⟩) hreturn

theorem readFrom_escapeChars (v after : List Char) (hbrace : after.head? ≠ some '{')
    (hfeed : after.head? ≠ some '\n') :
    readFrom 0 (escapeChars v ++ after) =
      (readFrom 0 after).after (some (unitsOf (lineFeeds v))) := by
  have hcons : ∀ c rest, unitsOf (c :: rest) = pointUnits c.toNat ++ unitsOf rest := fun _ _ => rfl
  fun_induction lineFeeds v with
  | case1 => simp [escapeChars, unitsOf]
  | case2 rest ih =>
    -- the line feed after the carriage return is skipped
    have hchars : escapeChars ('\r' :: '\n' :: rest) ++ after =
        '\r' :: '\n' :: (escapeChars rest ++ after) := by
      simp [escapeChars, escaped]
    rw [hchars, readFrom_return, List.head?_cons, if_pos rfl, readFrom, ih, Reading.after_after]
    rfl
  | case3 rest hne ih =>
    have hchars : escapeChars ('\r' :: rest) ++ after = '\r' :: (escapeChars rest ++ after) := by
      simp [escapeChars, escaped]
    have hnext : (escapeChars rest ++ after).head? ≠ some '\n' := by
      rw [Ne, head?_escapeChars rest (.inr rfl) hfeed, List.head?_eq_some_iff]
      rintro ⟨rest', rfl⟩
      exact hne rest' rfl
    rw [hchars, readFrom_return, if_neg hnext, ih, Reading.after_after]
    rfl
  | case4 c rest _ hreturn ih =>
    rw [escapeChars, List.append_assoc, readFrom_escaped hreturn, ih, Reading.after_after]
    · rfl
    · exact (head?_escapeChars rest (.inl rfl) hbrace).mp

end Readings

section Reference
variable {v : List Char}

theorem lineFeeds_of_not_mem (h : '\r' ∉ v) : lineFeeds v = v := by
  fun_induction lineFeeds v with
  | case1 => rfl
  | case2 => simp at h
  | case3 => simp at h
  | case4 c rest _ _ ih =>
    rw [ih fun hmem => h (List.mem_cons_of_mem c hmem)]

private theorem return_not_mem_lineFeeds (v : List Char) : '\r' ∉ lineFeeds v := by
  fun_induction lineFeeds v with
  | case1 => simp
  | case2 rest ih => simpa using ih
  | case3 rest _ ih => simpa using ih
  | case4 c rest _ hreturn ih =>
    rw [List.mem_cons, not_or]
    exact ⟨fun heq => hreturn heq.symm, ih⟩

private theorem mem_pointUnits {c : Char} : 13 ∈ pointUnits c.toNat ↔ c = '\r' := by
  have hvalue : c = '\r' ↔ c.toNat = 13 := by
    rw [← Char.toNat_inj]
    rfl
  unfold pointUnits
  rw [hvalue]
  split_ifs <;> simp <;> omega

theorem mem_unitsOf : 13 ∈ unitsOf v ↔ '\r' ∈ v := by
  simp [unitsOf, mem_pointUnits]

private theorem lineFeeds_append_paren (v : List Char) :
    lineFeeds (v ++ [')']) = lineFeeds v ++ [')'] := by
  fun_induction lineFeeds v with
  | case1 => rfl
  | case2 rest ih => simp [lineFeeds, ih]
  | case3 rest hne ih =>
    have hnext : ∀ rest', rest ++ [')'] = '\n' :: rest' → False := by
      intro rest' heq
      cases rest with
      | nil => simp at heq
      | cons d rest => exact hne rest ((List.cons.inj heq).1 ▸ rfl)
    rw [List.cons_append, lineFeeds, ih, List.cons_append]
    exact hnext
  | case4 c rest _ hreturn ih =>
    rw [List.cons_append, lineFeeds, ih, List.cons_append]
    · exact fun _ heq => absurd heq hreturn
    · exact hreturn

private theorem escapeChars_append_paren (v : List Char) :
    escapeChars (v ++ [')']) = escapeChars v ++ [')'] := by
  induction v with
  | nil => rfl
  | cons c v ih =>
    have hsame : escaped c (v ++ [')']) = escaped c v := by
      cases v <;> simp [escaped]
    rw [List.cons_append, escapeChars, escapeChars, hsame, ih, List.append_assoc]

theorem toList_reference (token : String) :
    s!"var({token})".toList = "var(".toList ++ token.toList ++ [')'] := by
  have htext : ∀ s : String, toString s = s := fun _ => rfl
  simp [htext]

private theorem readFrom_append_paren (v after : List Char) :
    readFrom 0 (escapeChars (v ++ [')']) ++ after) =
    (readFrom 0 after).after (some (unitsOf (lineFeeds (v ++ [')'])))) := by
  have hparen : readFrom 0 (')' :: after) = (readFrom 0 after).after (some (pointUnits 41)) :=
    readFrom_plain (by decide) (by decide) (fun h => absurd h.1 (by decide)) (by decide)
  have hunits : unitsOf (lineFeeds (v ++ [')'])) = unitsOf (lineFeeds v) ++ pointUnits 41 := by
    rw [lineFeeds_append_paren, unitsOf, List.flatMap_append, List.flatMap_singleton]
    rfl
  rw [escapeChars_append_paren, List.append_assoc, List.singleton_append,
    readFrom_escapeChars _ _ (by simp) (by simp), hparen, Reading.after_after, hunits]
  rfl

/-- The text in place of a dynamic interpolation, between other texts of its template. -/
theorem readTemplate_reference (token : String) (before after : List Char)
    (h : (readTemplate before).ending = .inside) :
    readTemplate (before ++ (escapeTemplate s!"var({token})").toList ++ after) =
      ((readTemplate after).after (some (unitsOf (lineFeeds s!"var({token})".toList)))).after
        (readTemplate before).value := by
  have hliteral : (escapeTemplate s!"var({token})").toList =
      escapeChars ("var(".toList ++ token.toList ++ [')']) := by
    rw [toList_escapeTemplate, toList_reference]
  have hletter : ∀ cs, escapeChars ("var(".toList ++ token.toList ++ [')']) ++ cs =
      'v' :: (escapeChars ("ar(".toList ++ token.toList ++ [')']) ++ cs) := fun _ => rfl
  unfold readTemplate at h ⊢
  rw [List.append_assoc, hliteral, hletter, readFrom_append_v _ (Nat.zero_le _) h, ← hletter,
    readFrom_append_paren, toList_reference]

private theorem unitsOf_lineFeeds : unitsOf (lineFeeds v) = unitsOf v ↔ '\r' ∉ v := by
  constructor
  · intro heq hmem
    rw [← mem_unitsOf, ← heq, mem_unitsOf] at hmem
    exact return_not_mem_lineFeeds v hmem
  · intro h
    rw [lineFeeds_of_not_mem h]

theorem return_not_mem_repr (n : Int) : '\r' ∉ n.repr.toList := by
  have hdigits : ∀ m : Nat, '\r' ∉ Nat.toDigits 10 m := by
    intro m hmem
    have hdigit := Nat.isDigit_of_mem_toDigits (by decide) (by decide) hmem
    exact absurd hdigit (by decide)
  rw [Int.repr_eq_if]
  split_ifs <;> simp [hdigits]

private theorem return_not_mem_padded (n : Int) : '\r' ∉ (padded n).toList := by
  have hdigits : '\r' ∉ (toString n.natAbs).toList := return_not_mem_repr n.natAbs
  unfold padded
  simp only [String.toList_append, String.toList_ofList, List.mem_append,
    List.mem_replicate, not_or]
  refine ⟨⟨?_, by simp⟩, hdigits⟩
  split_ifs <;> simp

/-- The numbers in a token are written with digits, so a carriage return comes from a name. -/
theorem return_mem_render (t : Token) :
    '\r' ∈ t.render.toList ↔ '\r' ∈ t.file.toList ∨ '\r' ∈ t.block.toList := by
  have htext : ∀ s : String, toString s = s := fun _ => rfl
  have hmark : '\r' ∉ "--".toList ∧ '\r' ∉ "-".toList := by decide
  have hnumber : ∀ n : Int, '\r' ∉ (toString n).toList := return_not_mem_repr
  unfold Token.render
  simp only [htext, String.toList_append, List.mem_append, hmark, hnumber, return_not_mem_padded,
    or_false, false_or]

private theorem return_not_mem_of_placeholderIn? {text name : String}
    (h : placeholderIn? text = some name) : '\r' ∉ name.toList := by
  have hfree : ∀ cs : List Char, '\r' ∉ cs.takeWhile fun c => c != '(' && c != ')' &&
      !isBlank c := by
    intro cs hmem
    exact absurd (List.mem_takeWhile_imp hmem) (by decide)
  unfold placeholderIn? at h
  split at h
  · next rest _ =>
    dsimp only at h
    split at h
    · obtain rfl := Option.some.inj h
      simpa using hfree rest
    · obtain rfl := Option.some.inj h
      simpa using hfree rest
    · cases h
  · cases h

private theorem return_mem_tokenText (file : String) (o : Outline) (block : String) {s : Slot}
    (hkept : ∀ name, s.kept = some name → '\r' ∉ name.toList) :
    '\r' ∈ (o.tokenText file block s).toList ↔
      s.kept? = none ∧ ('\r' ∈ file.toList ∨ '\r' ∈ block.toList) := by
  unfold Outline.tokenText
  cases h : s.kept? with
  | none => simp [return_mem_render, Outline.token]
  | some name =>
    have hname := hkept name (Option.filter_eq_some_iff.mp h).1
    simpa using hname

private theorem return_not_mem_of_scan {settings : Settings} {source : Bytes} {root : Node}
    {file : String} {call : Call Interpolation}
    (hcall : call ∈ (scan settings source root file).calls) {b : Block Interpolation}
    (hb : b ∈ call.blocks) {i : Interpolation} (hi : i ∈ b.interpolations) {name : String}
    (h : i.placeholder = some name) : '\r' ∉ name.toList := by
  obtain ⟨hole, expr, hread⟩ := exists_interpolationOf hcall hb hi
  rw [hread, interpolationOf] at h
  dsimp only at h
  split_ifs at h
  exact return_not_mem_of_placeholderIn? h

/-- A reference says its token, apart from carriage returns. -/
theorem readTemplate_reference_iff (token : String) :
    readTemplate (escapeTemplate s!"var({token})").toList =
    ⟨some (unitsOf s!"var({token})".toList), .inside⟩ ↔ '\r' ∉ token.toList := by
  have hmem : '\r' ∈ s!"var({token})".toList ↔ '\r' ∈ token.toList := by
    rw [toList_reference]
    simp
  have hread := readTemplate_reference token [] [] rfl
  have hempty : ∀ units, ((readTemplate []).after (some units)).after (some []) =
      ⟨some units, .inside⟩ := by
    intro units
    rw [Reading.after_nil]
    simp [readTemplate, readFrom, Reading.after]
  rw [List.nil_append, List.append_nil] at hread
  rw [hread, ← hmem, ← unitsOf_lineFeeds]
  generalize unitsOf (lineFeeds s!"var({token})".toList) = units
  show ((readTemplate []).after (some units)).after (some []) = _ ↔ _
  rw [hempty, Reading.mk.injEq, Option.some.injEq, and_iff_left rfl]

end Reference

/-- Text without carriage returns is read back from a template as it was before it was escaped. The
reference that takes the place of a dynamic interpolation neither closes the template nor opens a
hole, whatever text stands before and after it, and it says its token exactly if there is no
carriage return in it: that would be read as a line feed. Only a new token can have one, from the
name of the file or of the block. -/
theorem escaped_reference_reads_back {settings : Settings} {source : Bytes} {root : Node}
    {filename : String} {labelled : List (Call Labelled)} {calls : List (Call Named)}
    (hlabels : labelled.map (Call.map Labelled.toInterpolation) =
      (scan settings source root filename).calls)
    (htokens : nameAll (fileId filename) labelled = .ok calls) {call : Call Named}
    (hcall : call ∈ calls) {b : Block Named} (hb : b ∈ call.blocks) {i : Named}
    (hi : i ∈ b.interpolations) (hdynamic : i.label = .dynamic) :
    (∀ v : String, '\r' ∉ v.toList →
      readTemplate (escapeTemplate v).toList = ⟨some (unitsOf v.toList), .inside⟩) ∧
    ∃ literal token, replace settings.marker i =
        ⟨some ⟨i.span.start, i.span.stop, encode literal⟩, encode literal, some token⟩ ∧
      (∀ before after, (readTemplate before).ending = .inside →
        readTemplate (before ++ literal.toList ++ after) =
          ((readTemplate after).after (some (unitsOf (lineFeeds s!"var({token})".toList)))).after
            (readTemplate before).value) ∧
      (readTemplate literal.toList = ⟨some (unitsOf s!"var({token})".toList), .inside⟩ ↔
        '\r' ∉ token.toList) ∧
      ('\r' ∈ token.toList ↔
        i.slot.kept? = none ∧ ('\r' ∈ (fileId filename).toList ∨ '\r' ∈ b.name.toList)) := by
  constructor
  · intro v hv
    have hread := readFrom_escapeChars v.toList [] (by simp) (by simp)
    rw [List.append_nil, lineFeeds_of_not_mem hv] at hread
    rw [readTemplate, toList_escapeTemplate, hread]
    simp [readFrom, Reading.after]
  · refine ⟨escapeTemplate s!"var({i.name})", i.name, ?_, ?_, ?_, ?_⟩
    · rw [replace, if_pos hdynamic]
    · intro before after h
      exact readTemplate_reference _ before after h
    · exact readTemplate_reference_iff _
    · obtain ⟨call₀, -, hname⟩ := name_of_nameAll htokens hcall hb hi hdynamic
      rw [hname]
      refine return_mem_tokenText _ _ _ fun name hkept => ?_
      exact return_not_mem_of_scan (unlabelled_mem (labels_of_nameAll hlabels htokens) hcall)
        (List.mem_map.mpr ⟨b, hb, rfl⟩) (List.mem_map.mpr ⟨i, hi, rfl⟩) hkept

/-- A dynamic interpolation between a dollar sign and a brace, in a block with a backquote in its
name. -/
def crampedModule : String :=
  "f(()=>(\x7b'\x60$\x7b':css\x60$$\x7bx\x7d\x7b\x60\x7d))"

theorem escaped_reference_reads_back_cramped :
    let settings : Settings := { Settings.ofTheme "t" with factory := "f" }
    let labelled := allDynamic
      (scan settings (encode crampedModule) (parse .script crampedModule.toList) "a.js").calls
    ∃ calls, nameAll (fileId "a.js") labelled = .ok calls ∧
      ∃ call ∈ calls, ∃ b ∈ call.blocks, ∃ i ∈ b.interpolations, i.label = .dynamic ∧
        ∃ literal, (replace settings.marker i).text = encode literal ∧
          readTemplate (['$'] ++ literal.toList ++ ['{']) =
            ⟨some (unitsOf "$var(--a--00000-0-\x60$\x7b-0)\x7b".toList), .inside⟩ := by
  intro settings labelled
  have hrun : (names (fileId "a.js") ((labelled.map Call.outline).flatMap Outline.places)).Nodup ∧
      ∃ call ∈ labelled.map (Call.named (fileId "a.js")), ∃ b ∈ call.blocks, ∃ i ∈ b.interpolations,
        i.label = .dynamic ∧ (replace settings.marker i).token =
          some "--a--00000-0-\x60$\x7b-0" := by
    decide +kernel
  obtain ⟨hnames, call, hcall, b, hb, i, hi, hdynamic, htoken⟩ := hrun
  have htokens := nameAll_eq_ok_iff.mpr ⟨fresh_nil.mpr hnames, rfl⟩
  obtain ⟨-, literal, token, hreplace, hread, -⟩ :=
    escaped_reference_reads_back (toInterpolation_allDynamic _) htokens hcall hb hi hdynamic
  refine ⟨_, htokens, call, hcall, b, hb, i, hi, hdynamic, literal, by rw [hreplace], ?_⟩
  rw [hreplace] at htoken
  obtain rfl := Option.some.inj htoken
  rw [hread ['$'] ['{'] rfl]
  decide +kernel

def plainModule : String :=
  "f(()=>(\x7ba:css\x60$\x7bx\x7d\x60\x7d))"

theorem return_read_as_line_feed :
    let settings : Settings := { Settings.ofTheme "t" with factory := "f" }
    let labelled := allDynamic
      (scan settings (encode plainModule) (parse .script plainModule.toList) "a\rb.js").calls
    ∃ calls, nameAll (fileId "a\rb.js") labelled = .ok calls ∧
      ∃ call ∈ calls, ∃ b ∈ call.blocks, ∃ i ∈ b.interpolations,
        let r := replace settings.marker i
        r.token = some "--a\rb--00000-0-a-0" ∧ r.text = encode "var(--a\rb--00000-0-a-0)" ∧
          readTemplate "var(--a\rb--00000-0-a-0)".toList =
            ⟨some (unitsOf "var(--a\nb--00000-0-a-0)".toList), .inside⟩ ∧
          readTemplate "var(--a\rb--00000-0-a-0)".toList ≠
            ⟨some (unitsOf "var(--a\rb--00000-0-a-0)".toList), .inside⟩ := by
  intro settings labelled
  have hnames :
      (names (fileId "a\rb.js") ((labelled.map Call.outline).flatMap Outline.places)).Nodup := by
    decide +kernel
  exact ⟨_, nameAll_eq_ok_iff.mpr ⟨fresh_nil.mpr hnames, rfl⟩, by decide +kernel⟩

end ThemedCss.Output
