import Mathlib.Data.List.Nodup
import Mathlib.Tactic.SplitIfs
import ThemedCss.Proofs.Style.Scan
import ThemedCss.Proofs.Table
import ThemedCss.Syntax.Parser

/-! What becomes of the names that the parameters of a style function bind. -/
namespace ThemedCss.Style
open ThemedCss.Syntax ThemedCss.Text

inductive Step where
  /-- To what stands under a key. -/
  | key (name : String)
  /-- To what has a default, stands in an array, after three dots or under a number or a computed
  key, or is no part of the first parameter. -/
  | other
deriving DecidableEq, Repr

/-- A name that a pattern binds: the way to it, and the kind of the leaf that spells it. The word
`undefined` can be a name although it is a leaf of its own kind. -/
structure Binder where
  way : List Step
  name : String
  kind : Kind
deriving DecidableEq, Repr

def Binder.under (steps : List Step) (b : Binder) : Binder :=
  { b with way := steps ++ b.way }

/-- The step to the value of a pair inside a pattern: names and strings are plain keys. -/
def pairStep : Option Node → Step
  | some key => if key.kind = .propertyName ∨ key.kind = .string then .key key.plainText else .other
  | none => .other

mutual
def binders : Node → List Binder
  | ⟨kind, _, _, _, text, children⟩ =>
    match kind with
    | .identifier | .shorthandPattern | .undefined => [⟨[], text, kind⟩]
    | .objectPattern => entryBinders children
    | .requiredParameter | .optionalParameter => (bindersAt .pattern children).map (.under [.other])
    | .assignmentPattern | .shorthandDefault => (bindersAt .left children).map (.under [.other])
    | .pairPattern => (bindersAt .value children).map (.under [.other])
    | .arrayPattern | .restPattern | .formalParameters =>
      (bindersAll children).map (.under [.other])
    | _ => []

def entryBinders : List Node → List Binder
  | [] => []
  | ⟨kind, role, start, stop, text, children⟩ :: rest =>
    let entry : Node := ⟨kind, role, start, stop, text, children⟩
    let found :=
      match kind with
      | .shorthandPattern => [⟨[.key text], text, kind⟩]
      | .pairPattern => (bindersAt .value children).map (.under [pairStep (entry.child? .key)])
      | _ => (binders ⟨kind, role, start, stop, text, children⟩).map (.under [.other])
    found ++ entryBinders rest

def bindersAt (role : Role) : List Node → List Binder
  | [] => []
  | n :: ns => if n.role = role then binders n else bindersAt role ns

def bindersAll : List Node → List Binder
  | [] => []
  | n :: ns => binders n ++ bindersAll ns
end

/-- The step to the value of a pair of the first parameter. The kind of the key does not matter
here: no number is spelled like a name, and a computed key has no text. -/
def firstStep : Option Node → Step
  | some key => .key key.plainText
  | none => .other

def ownBinders (step : Option Node → Step) (entry : Node) : List Binder :=
  match entry.kind with
  | .shorthandPattern => [⟨[.key entry.text], entry.text, entry.kind⟩]
  | .pairPattern => (bindersAt .value entry.children).map (.under [step (entry.child? .key)])
  | _ => (binders entry).map (.under [.other])

/-- The names that the parameters of a function bind. The keys on their ways are those of the first
parameter if it is an object pattern; a default beside a pattern with a type is no part of the
pattern. -/
def parameterBinders (function : Node) : List Binder :=
  match (parameterList function).map parameterPattern with
  | [] => []
  | first :: rest =>
    let found :=
      if first.kind = .objectPattern then first.named.flatMap (ownBinders firstStep)
      else (binders first).map (.under [.other])
    found ++ (rest.flatMap binders).map (.under [.other])

/-- The names on a way that goes through keys only. -/
def keys? : List Step → Option (List String)
  | [] => some []
  | .key name :: steps => (keys? steps).map (name :: ·)
  | .other :: _ => none

/-- The keys behind the theme, if the way leads there and goes on through keys only. -/
def themeKeys? : List Step → Option (List String)
  | .key name :: steps => if name = "theme" then keys? steps else none
  | _ => none

/-- Bind one name: a part of the theme, the template tag, or something else. The word `undefined` is
bound nowhere. -/
def Parameters.bind (p : Parameters) (b : Binder) : Parameters :=
  if b.kind = .undefined then p
  else
    match themeKeys? b.way with
    | some keys => p.addTheme b.name keys
    | none => if b.way = [.key "css"] then { p with tag := b.name } else p.addOthers [b.name]

section Ways

private theorem keys?_eq_some {way : List Step} {names : List String} :
    keys? way = some names ↔ way = names.map .key := by
  induction way generalizing names with
  | nil => cases names <;> simp [keys?]
  | cons step way ih =>
    cases step with
    | other => cases names <;> simp [keys?]
    | key name =>
      cases names with
      | nil => simp [keys?]
      | cons name' names => simp [keys?, ih, and_comm]

private theorem map_key_inj {names names' : List String} :
    names.map Step.key = names'.map .key ↔ names = names' :=
  List.map_inj_right fun _ _ => Step.key.inj

theorem themeKeys?_eq_some {way : List Step} {names : List String} :
    themeKeys? way = some names ↔ way = .key "theme" :: names.map .key := by
  unfold themeKeys?
  split
  · split_ifs with h
    · simp [h, keys?_eq_some]
    · simp [h]
  · next hne =>
    constructor
    · simp
    · intro h
      exact absurd h (hne _ _)

private theorem themeKeys?_of_other_mem {way : List Step} (h : .other ∈ way) :
    themeKeys? way = none := by
  rw [Option.eq_none_iff_forall_ne_some]
  intro names hnames
  rw [themeKeys?_eq_some.mp hnames] at h
  simp at h

end Ways

section Entries
variable {entry : Node} (rest : List Node) (way : List String) (p : Parameters)
  (step : Option Node → Step)

theorem entryBinders_cons (entry : Node) :
    entryBinders (entry :: rest) = ownBinders pairStep entry ++ entryBinders rest := by
  obtain ⟨kind, role, start, stop, text, children⟩ := entry
  rfl

theorem ownBinders_shorthand (h : entry.kind = .shorthandPattern) :
    ownBinders step entry = [⟨[.key entry.text], entry.text, .shorthandPattern⟩] := by
  simp [ownBinders, h]

theorem ownBinders_pair (h : entry.kind = .pairPattern) :
    ownBinders step entry = (bindersAt .value entry.children).map
      (.under [step (entry.child? .key)]) := by
  simp [ownBinders, h]

theorem ownBinders_else (hshort : entry.kind ≠ .shorthandPattern)
    (hpair : entry.kind ≠ .pairPattern) :
    ownBinders step entry = (binders entry).map (.under [.other]) := by
  unfold ownBinders
  split
  · contradiction
  · contradiction
  · rfl

private theorem bindThemeEntries_shorthand (h : entry.kind = .shorthandPattern) :
    bindThemeEntries way p (entry :: rest) =
      bindThemeEntries way (p.addTheme entry.text (way ++ [entry.text])) rest := by
  obtain ⟨kind, role, start, stop, text, children⟩ := entry
  subst h
  rfl

private theorem bindThemeEntries_key {name : String} (h : entry.kind = .pairPattern)
    (hstep : pairStep (entry.child? .key) = .key name) :
    bindThemeEntries way p (entry :: rest) =
      bindThemeEntries way (bindThemeValue (way ++ [name]) p entry.children) rest := by
  obtain ⟨kind, role, start, stop, text, children⟩ := entry
  subst h
  rw [bindThemeEntries]
  cases hkey : Node.child? ⟨.pairPattern, role, start, stop, text, children⟩ .key with
  | none =>
    rw [hkey] at hstep
    cases hstep
  | some key =>
    rw [hkey, pairStep] at hstep
    split_ifs at hstep with hplain
    obtain rfl := Step.key.inj hstep
    dsimp only
    rw [if_pos hplain]

theorem bindThemeEntries_other (hshort : entry.kind ≠ .shorthandPattern)
    (hstep : entry.kind = .pairPattern → pairStep (entry.child? .key) = .other) :
    bindThemeEntries way p (entry :: rest) =
      bindThemeEntries way (p.addOthers entry.patternNames) rest := by
  obtain ⟨kind, role, start, stop, text, children⟩ := entry
  by_cases hpair : kind = .pairPattern
  · subst hpair
    have hother := hstep rfl
    rw [bindThemeEntries]
    cases hkey : Node.child? ⟨.pairPattern, role, start, stop, text, children⟩ .key with
    | none => rfl
    | some key =>
      rw [hkey, pairStep] at hother
      split_ifs at hother with hplain
      dsimp only
      rw [if_neg hplain]
  · rw [bindThemeEntries]
    · exact hshort
    · exact hpair

end Entries

section Names

def knownNames (bs : List Binder) : List String :=
  (bs.filter (·.kind != .undefined)).map (·.name)

@[simp] theorem knownNames_nil : knownNames [] = [] := rfl

@[simp] theorem knownNames_cons (b : Binder) (bs : List Binder) :
    knownNames (b :: bs) = (if b.kind = .undefined then [] else [b.name]) ++ knownNames bs := by
  by_cases h : b.kind = .undefined <;> simp [knownNames, h]

@[simp] theorem knownNames_append (bs cs : List Binder) :
    knownNames (bs ++ cs) = knownNames bs ++ knownNames cs := by
  simp [knownNames]

@[simp] theorem knownNames_under (steps : List Step) (bs : List Binder) :
    knownNames (bs.map (.under steps)) = knownNames bs := by
  simp [knownNames, List.filter_map, Function.comp_def, Binder.under]

mutual
theorem knownNames_binders : ∀ n : Node, knownNames (binders n) = n.patternNames
  | ⟨kind, role, start, stop, text, children⟩ => by
    have hat := fun role => knownNames_bindersAt role children
    have hall := knownNames_bindersAll children
    have hentries := knownNames_entryBinders children
    cases kind <;> simp [Node.patternNames, binders, hat, hall, hentries]

theorem knownNames_entryBinders :
    ∀ ns : List Node, knownNames (entryBinders ns) = Node.patternNamesAll ns
  | [] => rfl
  | ⟨kind, role, start, stop, text, children⟩ :: rest => by
    have hn := knownNames_binders ⟨kind, role, start, stop, text, children⟩
    have hat := knownNames_bindersAt .value children
    rw [entryBinders_cons, knownNames_append, knownNames_entryBinders rest, Node.patternNamesAll]
    congr 1
    by_cases hshort : kind = .shorthandPattern
    · subst hshort
      rfl
    · by_cases hpair : kind = .pairPattern
      · subst hpair
        rw [ownBinders_pair _ rfl, knownNames_under, hat, Node.patternNames]
      · rw [ownBinders_else _ hshort hpair, knownNames_under, hn]

theorem knownNames_bindersAt (role : Role) : ∀ ns : List Node,
    knownNames (bindersAt role ns) = Node.patternNamesAt role ns
  | [] => rfl
  | n :: ns => by
    unfold Node.patternNamesAt bindersAt
    split_ifs
    · exact knownNames_binders n
    · exact knownNames_bindersAt role ns

theorem knownNames_bindersAll :
    ∀ ns : List Node, knownNames (bindersAll ns) = Node.patternNamesAll ns
  | [] => rfl
  | n :: ns => by
    unfold Node.patternNamesAll bindersAll
    rw [knownNames_append, knownNames_binders n, knownNames_bindersAll ns]
end

theorem bindersAt_eq (role : Role) (n : Node) :
    bindersAt role n.children = (n.child? role).toList.flatMap binders := by
  rw [Node.child?]
  induction n.children with
  | nil => rfl
  | cons n ns ih =>
    by_cases h : n.role = role
    · simp [bindersAt, h]
    · simp [bindersAt, h, ih]

end Names

section Run

@[simp] theorem Parameters.addOthers_nil (p : Parameters) : p.addOthers [] = p := by
  simp [addOthers]

theorem Parameters.addOthers_append (p : Parameters) (names later : List String) :
    p.addOthers (names ++ later) = (p.addOthers names).addOthers later := by
  simp [addOthers]

theorem Parameters.bind_of_undefined (p : Parameters) {b : Binder} (h : b.kind = .undefined) :
    p.bind b = p :=
  if_pos h

theorem Parameters.bind_theme (p : Parameters) (keys : List String) {b : Binder}
    (hkind : b.kind ≠ .undefined) (h : b.way = .key "theme" :: keys.map .key) :
    p.bind b = p.addTheme b.name keys := by
  rw [bind, if_neg hkind, themeKeys?_eq_some.mpr h]

theorem Parameters.bind_tag (p : Parameters) {b : Binder} (hkind : b.kind ≠ .undefined)
    (h : b.way = [.key "css"]) : p.bind b = { p with tag := b.name } := by
  have hnone : themeKeys? b.way = none := by
    rw [h]
    rfl
  rw [bind, if_neg hkind, hnone]
  exact if_pos h

theorem Parameters.bind_outside (p : Parameters) {b : Binder} (hkind : b.kind ≠ .undefined)
    (htheme : themeKeys? b.way = none) (htag : b.way ≠ [.key "css"]) :
    p.bind b = p.addOthers [b.name] := by
  rw [bind, if_neg hkind, htheme]
  exact if_neg htag

/-- Names to which no way through the theme leads, and that are not the tag, all come to the other
names. -/
theorem foldl_bind_outside (p : Parameters) {bs : List Binder}
    (h : ∀ b ∈ bs, b.kind ≠ .undefined → themeKeys? b.way = none ∧ b.way ≠ [.key "css"]) :
    bs.foldl .bind p = p.addOthers (knownNames bs) := by
  induction bs generalizing p with
  | nil => simp
  | cons b bs ih =>
    rw [List.foldl_cons, ih _ fun c hc => h c (List.mem_cons_of_mem b hc), knownNames_cons,
      Parameters.addOthers_append]
    congr 1
    split_ifs with hkind
    · rw [p.bind_of_undefined hkind, Parameters.addOthers_nil]
    · obtain ⟨htheme, htag⟩ := h b List.mem_cons_self hkind
      exact p.bind_outside hkind htheme htag

/-- A step that is no key leads away from the theme and from the tag. -/
theorem foldl_bind_other (p : Parameters) {bs : List Binder} (h : ∀ b ∈ bs, .other ∈ b.way) :
    bs.foldl .bind p = p.addOthers (knownNames bs) := by
  apply foldl_bind_outside
  intro b hb _
  constructor
  · exact themeKeys?_of_other_mem (h b hb)
  · intro heq
    have hmem := h b hb
    rw [heq] at hmem
    simp at hmem

theorem foldl_bind_map_other (p : Parameters) (bs : List Binder) :
    (bs.map (.under [.other])).foldl .bind p = p.addOthers (knownNames bs) := by
  rw [foldl_bind_other, knownNames_under]
  simp [Binder.under]

private theorem map_under_under (before steps : List Step) (bs : List Binder) :
    (bs.map (Binder.under steps)).map (Binder.under before) =
      bs.map (Binder.under (before ++ steps)) := by
  simp [Binder.under]

theorem foldl_bind_under_other (p : Parameters) (before : List Step) (bs : List Binder) :
    ((bs.map (.under [.other])).map (.under before)).foldl .bind p =
      p.addOthers (knownNames bs) := by
  rw [foldl_bind_other, knownNames_under, knownNames_under]
  simp [Binder.under]

/-- Apart from single names and object patterns, every step into a pattern is no key. -/
theorem exists_binders_eq_other {n : Node}
    (h : n.kind ≠ .identifier ∧ n.kind ≠ .shorthandPattern ∧ n.kind ≠ .undefined ∧
      n.kind ≠ .objectPattern) :
    ∃ bs : List Binder, binders n = bs.map (.under [.other]) := by
  obtain ⟨kind, role, start, stop, text, children⟩ := n
  unfold binders
  split
  iterate 4 simp at h
  iterate 8 exact ⟨_, rfl⟩
  exact ⟨[], rfl⟩

mutual
theorem bindTheme_eq (way : List String) (p : Parameters) : ∀ n : Node,
    bindTheme way p n = ((binders n).map (.under (.key "theme" :: way.map .key))).foldl .bind p
  | ⟨kind, role, start, stop, text, children⟩ => by
    unfold bindTheme
    split
    · rw [binders, List.map_singleton, List.foldl_cons, List.foldl_nil, p.bind_theme way]
        <;> simp [Binder.under]
    · rw [binders, List.map_singleton, List.foldl_cons, List.foldl_nil, p.bind_theme way]
        <;> simp [Binder.under]
    · rw [bindThemeEntries_eq way p children, binders]
    · next hname hshort hobject =>
      -- neither a name nor an object: all it binds goes to the others
      rw [← knownNames_binders]
      by_cases hundef : kind = .undefined
      · subst hundef
        simp [binders, Binder.under, Parameters.bind_of_undefined]
      · obtain ⟨bs, hbs⟩ := exists_binders_eq_other (n := ⟨kind, role, start, stop, text, children⟩)
          ⟨hname, hshort, hundef, hobject⟩
        rw [hbs, foldl_bind_under_other, knownNames_under]

theorem bindThemeEntries_eq (way : List String) (p : Parameters) : ∀ ns : List Node,
    bindThemeEntries way p ns =
      ((entryBinders ns).map (.under (.key "theme" :: way.map .key))).foldl .bind p
  | [] => rfl
  | ⟨kind, role, start, stop, text, children⟩ :: rest => by
    have hvalue := fun way => bindThemeValue_eq way p children
    rw [entryBinders_cons, List.map_append, List.foldl_append]
    by_cases hshort : kind = .shorthandPattern
    · rw [bindThemeEntries_shorthand rest way p hshort, bindThemeEntries_eq way _ rest,
        ownBinders_shorthand _ hshort,
        List.map_singleton, List.foldl_cons, List.foldl_nil, p.bind_theme (way ++ [text])]
          <;> simp [Binder.under]
    · by_cases hpair : kind = .pairPattern
      · rw [ownBinders_pair _ hpair]
        cases hstep : pairStep (Node.child? ⟨kind, role, start, stop, text, children⟩ .key) with
        | key name =>
          rw [bindThemeEntries_key rest way p hpair hstep, bindThemeEntries_eq way _ rest, hvalue,
            map_under_under]
          simp
        | other =>
          have hnames : Node.patternNames ⟨kind, role, start, stop, text, children⟩ =
              knownNames (bindersAt .value children) := by
            subst hpair
            rw [knownNames_bindersAt, Node.patternNames]
          rw [bindThemeEntries_other rest way p hshort fun _ => hstep,
            bindThemeEntries_eq way _ rest, foldl_bind_under_other, hnames]
      · rw [bindThemeEntries_other rest way p hshort fun h => absurd h hpair,
          bindThemeEntries_eq way _ rest,
          ownBinders_else _ hshort hpair, foldl_bind_under_other, knownNames_binders]

theorem bindThemeValue_eq (way : List String) (p : Parameters) : ∀ ns : List Node,
    bindThemeValue way p ns =
      ((bindersAt .value ns).map (.under (.key "theme" :: way.map .key))).foldl .bind p
  | [] => rfl
  | n :: ns => by
    unfold bindThemeValue bindersAt
    split_ifs
    · exact bindTheme_eq way p n
    · exact bindThemeValue_eq way p ns
end

private theorem way_ne_nil_of_mem_entryBinders {ns : List Node} {b : Binder}
    (hb : b ∈ entryBinders ns) : b.way ≠ [] := by
  induction ns with
  | nil => simp [entryBinders] at hb
  | cons entry rest ih =>
    rw [entryBinders_cons] at hb
    rcases List.mem_append.mp hb with hb | hb
    · unfold ownBinders at hb
      split at hb
      · obtain rfl := List.mem_singleton.mp hb
        simp
      · obtain ⟨c, -, rfl⟩ := List.mem_map.mp hb
        simp [Binder.under]
      · obtain ⟨c, -, rfl⟩ := List.mem_map.mp hb
        simp [Binder.under]
    · exact ih hb

/-- Only a leaf binds a name without a step. -/
theorem kind_of_way_eq_nil {n : Node} {b : Binder} (hb : b ∈ binders n) (h : b.way = [])
    (hkind : b.kind ≠ .undefined) : n.kind = .identifier ∨ n.kind = .shorthandPattern := by
  by_cases hleaf : n.kind = .identifier ∨ n.kind = .shorthandPattern ∨ n.kind = .undefined
  · obtain ⟨kind, role, start, stop, text, children⟩ := n
    rcases hleaf with rfl | rfl | rfl <;> simp_all [binders]
  · rw [not_or, not_or] at hleaf
    exfalso
    by_cases hobject : n.kind = .objectPattern
    · obtain ⟨kind, role, start, stop, text, children⟩ := n
      subst hobject
      rw [binders] at hb
      exact way_ne_nil_of_mem_entryBinders hb h
    · obtain ⟨bs, hbs⟩ := exists_binders_eq_other ⟨hleaf.1, hleaf.2.1, hleaf.2.2, hobject⟩
      rw [hbs] at hb
      obtain ⟨c, -, rfl⟩ := List.mem_map.mp hb
      simp [Binder.under] at h

theorem binders_leaf {n : Node} (h : n.kind = .identifier ∨ n.kind = .shorthandPattern) :
    binders n = [⟨[], n.text, n.kind⟩] := by
  obtain ⟨kind, role, start, stop, text, children⟩ := n
  rcases h with rfl | rfl <;> rfl

theorem bindEntry_of_keyAndPattern? (p : Parameters) {entry value : Node} {key : String}
    (h : keyAndPattern? entry = some (key, value)) :
    bindEntry p entry = ((binders value).map (.under [.key key])).foldl .bind p := by
  unfold bindEntry
  rw [h]
  dsimp only
  split_ifs with htheme htag
  · rw [bindTheme_eq, htheme, List.map_nil]
  · obtain ⟨hcss, hleaf⟩ := htag
    rw [binders_leaf hleaf, List.map_singleton, List.foldl_cons, List.foldl_nil, p.bind_tag]
    · rfl
    · rcases hleaf with h | h <;> simp [Binder.under, h]
    · simp [Binder.under, hcss]
  · -- another key, or a pattern under the key of the tag, whose ways are then longer
    rw [foldl_bind_outside, knownNames_under, knownNames_binders]
    intro b hb hne
    obtain ⟨c, hc, rfl⟩ := List.mem_map.mp hb
    constructor
    · simp [Binder.under, themeKeys?, htheme]
    · intro hway
      have hcss : key = "css" ∧ c.way = [] := by simpa [Binder.under] using hway
      exact htag ⟨hcss.1, kind_of_way_eq_nil hc hcss.2 hne⟩

theorem bindEntry_of_keyAndPattern?_eq_none (p : Parameters) {entry : Node}
    (h : keyAndPattern? entry = none) :
    bindEntry p entry = p.addOthers (knownNames (binders entry)) := by
  rw [bindEntry, h, knownNames_binders]

theorem binders_pairPattern {entry : Node} (h : entry.kind = .pairPattern) :
    binders entry = (bindersAt .value entry.children).map (.under [.other]) := by
  obtain ⟨kind, role, start, stop, text, children⟩ := entry
  subst h
  rfl

theorem bindEntry_eq (p : Parameters) (entry : Node) :
    bindEntry p entry = (ownBinders firstStep entry).foldl .bind p := by
  by_cases hshort : entry.kind = .shorthandPattern
  · rw [bindEntry_of_keyAndPattern? p (by rw [keyAndPattern?, hshort]), binders_leaf (.inr hshort),
      ownBinders_shorthand _ hshort]
    simp [Binder.under, hshort]
  · by_cases hpair : entry.kind = .pairPattern
    · rw [ownBinders_pair _ hpair]
      cases hkey : entry.child? .key with
      | none =>
        rw [bindEntry_of_keyAndPattern?_eq_none p (by simp [keyAndPattern?, hpair, hkey]),
          binders_pairPattern hpair, firstStep, foldl_bind_map_other, knownNames_under]
      | some key =>
        cases hvalue : entry.child? .value with
        | none =>
          rw [bindEntry_of_keyAndPattern?_eq_none p (by simp [keyAndPattern?, hpair, hvalue]),
            binders_pairPattern hpair]
          simp [bindersAt_eq, hvalue]
        | some value =>
          have hsplit : keyAndPattern? entry = some (key.plainText, value) := by
            simp [keyAndPattern?, hpair, hkey, hvalue]
          rw [bindEntry_of_keyAndPattern? p hsplit, bindersAt_eq, hvalue]
          simp [firstStep]
    · have hsplit : keyAndPattern? entry = none := by
        unfold keyAndPattern?
        split
        · contradiction
        · contradiction
        · rfl
      rw [bindEntry_of_keyAndPattern?_eq_none p hsplit, ownBinders_else _ hshort hpair,
        foldl_bind_map_other]

private theorem foldl_addOthers (p : Parameters) (ns : List Node) :
    ns.foldl (fun p n => p.addOthers n.patternNames) p =
    p.addOthers (knownNames (ns.flatMap binders)) := by
  induction ns generalizing p with
  | nil => simp
  | cons n ns ih =>
    rw [List.foldl_cons, ih, List.flatMap_cons, knownNames_append, Parameters.addOthers_append,
      knownNames_binders]

/-- The parameters are what the names bind, one after the other. -/
theorem parametersOf_eq (tag : String) (function : Node) :
    parametersOf tag function = (parameterBinders function).foldl .bind ⟨[], tag, []⟩ := by
  unfold parametersOf parameterBinders
  cases (parameterList function).map parameterPattern with
  | nil => rfl
  | cons first rest =>
    dsimp only
    rw [List.foldl_append, foldl_bind_map_other, foldl_addOthers]
    congr 1
    split_ifs
    · rw [List.foldl_flatMap]
      congr 1
      funext p entry
      exact bindEntry_eq p entry
    · rw [foldl_bind_map_other, knownNames_binders]

end Run

section Sole
variable {x : String} {p q : Parameters}

/-- What binding a name can do. -/
theorem bind_cases (b : Binder) :
    (b.kind = .undefined ∧ ∀ p : Parameters, p.bind b = p) ∨ b.kind ≠ .undefined ∧
    ((∃ keys : List String, b.way = .key "theme" :: keys.map .key ∧
        ∀ p : Parameters, p.bind b = p.addTheme b.name keys) ∨
      (b.way = [.key "css"] ∧ ∀ p : Parameters, p.bind b = { p with tag := b.name }) ∨
      ((∀ keys : List String, b.way ≠ .key "theme" :: keys.map .key) ∧ b.way ≠ [.key "css"] ∧
        ∀ p : Parameters, p.bind b = p.addOthers [b.name])) := by
  by_cases hkind : b.kind = .undefined
  · exact .inl ⟨hkind, fun p => p.bind_of_undefined hkind⟩
  · refine .inr ⟨hkind, ?_⟩
    cases hkeys : themeKeys? b.way with
    | some keys =>
      rw [themeKeys?_eq_some] at hkeys
      exact .inl ⟨keys, hkeys, fun p => p.bind_theme keys hkind hkeys⟩
    | none =>
      by_cases htag : b.way = [.key "css"]
      · exact .inr (.inl ⟨htag, fun p => p.bind_tag hkind htag⟩)
      · refine .inr (.inr ⟨fun keys h => ?_, htag, fun p => p.bind_outside hkind hkeys htag⟩)
        rw [← themeKeys?_eq_some, hkeys] at h
        cases h

structure SameAt (x : String) (p q : Parameters) : Prop where
  theme : q.theme.get? x = p.theme.get? x
  others : x ∈ q.others ↔ x ∈ p.others

theorem SameAt.trans {r : Parameters} (h : SameAt x p q) (h' : SameAt x q r) : SameAt x p r :=
  ⟨h'.theme.trans h.theme, h'.others.trans h.others⟩

private theorem sameAt_bind {b : Binder} (h : b.name ≠ x) : SameAt x p (p.bind b) := by
  rcases bind_cases b with ⟨-, hb⟩ | ⟨-, ⟨keys, -, hb⟩ | ⟨-, hb⟩ | ⟨-, -, hb⟩⟩ <;> rw [hb]
  · exact ⟨rfl, .rfl⟩
  · exact ⟨by rw [Parameters.addTheme, Table.get?_insert, if_neg h], .rfl⟩
  · exact ⟨rfl, .rfl⟩
  · exact ⟨rfl, by simp [Parameters.addOthers, h.symm]⟩

theorem sameAt_foldl_bind {bs : List Binder} (h : x ∉ bs.map (·.name)) :
    SameAt x p (bs.foldl .bind p) := by
  induction bs generalizing p with
  | nil => exact ⟨rfl, .rfl⟩
  | cons b bs ih =>
    rw [List.map_cons, List.mem_cons, not_or] at h
    exact (sameAt_bind (Ne.symm h.1)).trans (ih h.2)

theorem SameAt.bind {b : Binder} (h : SameAt x p q) : SameAt x (p.bind b) (q.bind b) := by
  rcases bind_cases b with ⟨-, hb⟩ | ⟨-, ⟨keys, -, hb⟩ | ⟨-, hb⟩ | ⟨-, -, hb⟩⟩ <;> rw [hb, hb]
  · exact h
  · exact ⟨by simp only [Parameters.addTheme, Table.get?_insert, h.theme], h.others⟩
  · exact ⟨h.theme, h.others⟩
  · exact ⟨h.theme, by simp only [Parameters.addOthers, List.mem_append, h.others]⟩

/-- Among different names each is bound as if it were the only one. -/
theorem sameAt_of_nodup {bs : List Binder} (h : (bs.map (·.name)).Nodup) {b : Binder}
    (hb : b ∈ bs) : SameAt b.name (p.bind b) (bs.foldl .bind p) := by
  obtain ⟨before, after, rfl⟩ := List.append_of_mem hb
  rw [List.map_append, List.map_cons, List.nodup_middle, List.nodup_cons, List.mem_append,
    not_or] at h
  rw [List.foldl_append, List.foldl_cons]
  have hbefore : SameAt b.name p (before.foldl .bind p) := sameAt_foldl_bind h.1.1
  exact hbefore.bind.trans (sameAt_foldl_bind h.1.2)

end Sole

private theorem parameters_of_callOf {settings : Settings} {source : Bytes} {exported : List String}
    {callSite sequence : Nat} {site : Site} {call : Call Interpolation}
    (h : callOf settings source exported callSite sequence site = .ok call) :
    call.parameters = parametersOf settings.tag call.function := by
  unfold callOf at h
  dsimp only at h
  split_ifs at h
  · simp [bind, Except.bind, throw, throwThe, MonadExceptOf.throw] at h
  · split at h
    · split_ifs at h
      · obtain ⟨object, -, h⟩ := bind_eq_ok.mp h
        obtain ⟨blocks, -, h⟩ := bind_eq_ok.mp h
        obtain rfl := Except.ok.inj h
        rfl
      · simp [bind, Except.bind, throw, throwThe, MonadExceptOf.throw] at h
    · simp [throw, throwThe, MonadExceptOf.throw] at h

theorem parameters_of_mem_scan {settings : Settings} {source : Bytes} {root : Node} {file : String}
    {call : Call Interpolation} (hcall : call ∈ (scan settings source root file).calls) :
    call.parameters = parametersOf settings.tag call.function := by
  obtain ⟨chosen, -, hall⟩ := scan_calls settings source root file
  obtain ⟨site, -, hread⟩ := exists_of_mem_right hall hcall
  exact parameters_of_callOf hread

/-- If the parameters of a style function bind each name once, then every name of them apart from
the tag is either a part of the theme or one of the others. It is a part of the theme if and only if
the way to it leads through keys only and starts at the theme, and then the keys behind that are
kept. The word `undefined` is an exception: a parameter of that name is neither. -/
theorem scan_splits_parameters {settings : Settings} {source : Bytes} {root : Node} {file : String}
    {call : Call Interpolation} (hcall : call ∈ (scan settings source root file).calls)
    (hnames : ((parameterBinders call.function).map (·.name)).Nodup) :
    (∀ b ∈ parameterBinders call.function, b.kind ≠ .undefined →
      (b.way ≠ [.key "css"] → Xor (b.name ∈ call.parameters.theme.keys)
        (b.name ∈ call.parameters.others)) ∧
      ∀ keys, call.parameters.theme.get? b.name = some keys ↔
      b.way = .key "theme" :: keys.map .key) ∧
    ∀ x, x ∈ call.parameters.theme.keys ∨ x ∈ call.parameters.others →
      ∃ b ∈ parameterBinders call.function, b.name = x ∧ b.kind ≠ .undefined ∧
      b.way ≠ [.key "css"] := by
  have hsame : ∀ b ∈ parameterBinders call.function,
      SameAt b.name (Parameters.bind ⟨[], settings.tag, []⟩ b)
      call.parameters := by
    intro b hb
    rw [parameters_of_mem_scan hcall, parametersOf_eq]
    exact sameAt_of_nodup hnames hb
  have hnew : ∀ x ∉ (parameterBinders call.function).map (·.name),
      SameAt x ⟨[], settings.tag, []⟩ call.parameters := by
    intro x hx
    rw [parameters_of_mem_scan hcall, parametersOf_eq]
    exact sameAt_foldl_bind hx
  have hkeys : ∀ x, x ∈ call.parameters.theme.keys ↔ call.parameters.theme.get? x ≠ none := by
    intro x
    rw [Ne, Table.get?_eq_none_iff, not_not]
  simp only [hkeys]
  constructor
  · intro b hb hkind
    obtain ⟨htheme, hothers⟩ := hsame b hb
    rcases bind_cases b with ⟨hundef, -⟩ |
      ⟨-, ⟨keys, hway, hbind⟩ | ⟨hway, hbind⟩ | ⟨hway, htag, hbind⟩⟩
    · exact absurd hundef hkind
    · simp [htheme, hothers, hbind, hway, map_key_inj, Parameters.addTheme, Table.insert,
        Table.get?, Xor]
    · simp [htheme, hothers, hbind, hway, Table.get?]
    · simp [htheme, hothers, hbind, hway, Parameters.addOthers, Table.get?, Xor]
  · intro x hx
    by_cases hmem : x ∈ (parameterBinders call.function).map (·.name)
    · obtain ⟨b, hb, rfl⟩ := List.mem_map.mp hmem
      obtain ⟨htheme, hothers⟩ := hsame b hb
      refine ⟨b, hb, rfl, ?_⟩
      rcases bind_cases b with ⟨-, hbind⟩ | ⟨hkind, ⟨keys, hway, -⟩ | ⟨-, hbind⟩ | ⟨-, htag, -⟩⟩
      · simp [htheme, hothers, hbind, Table.get?] at hx
      · exact ⟨hkind, by simp [hway]⟩
      · simp [htheme, hothers, hbind, Table.get?] at hx
      · exact ⟨hkind, htag⟩
    · obtain ⟨htheme, hothers⟩ := hnew x hmem
      simp [htheme, hothers, Table.get?] at hx

/-- Names behind keys, behind a computed key, with a default and in an array, and the tag under
another name. -/
def nestedParameters : String :=
  "f((\x7btheme:\x7ba:\x7b'b':c\x7d,[k]:d,e=1\x7d,css:t,x:[y]\x7d,z)=>(\x7br:t\x60\x60\x7d))"

theorem scan_splits_parameters_nested :
    let root := parse .script nestedParameters.toList
    ∃ call ∈ (scan { Settings.ofTheme "t" with factory := "f" } (encode nestedParameters) root
        "a.js").calls,
      (parameterBinders call.function).map (·.name) = ["c", "d", "e", "t", "y", "z"] ∧
      call.parameters.theme.get? "c" = some ["a", "b"] ∧
      Xor ("d" ∈ call.parameters.theme.keys) ("d" ∈ call.parameters.others) := by
  intro root
  have hrun : ∃ call ∈ (scan { Settings.ofTheme "t" with factory := "f" }
        (encode nestedParameters) root "a.js").calls,
      (parameterBinders call.function).map (·.name) = ["c", "d", "e", "t", "y", "z"] ∧
      ⟨[.key "theme", .key "a", .key "b"], "c", .identifier⟩ ∈ parameterBinders call.function ∧
      ⟨[.key "theme", .other], "d", .identifier⟩ ∈ parameterBinders call.function := by
    decide +kernel
  obtain ⟨call, hcall, hnames, hc, hd⟩ := hrun
  have hnodup : ((parameterBinders call.function).map (·.name)).Nodup := by
    rw [hnames]
    decide
  have hsplit := (scan_splits_parameters hcall hnodup).1
  refine ⟨call, hcall, hnames, ?_, ?_⟩
  · exact ((hsplit _ hc (by decide)).2 ["a", "b"]).mpr rfl
  · exact (hsplit _ hd (by decide)).1 (by decide)

def undefinedParameter : String :=
  "createStyles((\x7bcss,a:undefined\x7d)=>(\x7br:css\x60$\x7bundefined\x7d\x60\x7d))"

theorem undefined_parameter_lost :
    ∃ call ∈ (scan (.ofTheme "t") (encode undefinedParameter)
        (parse .script undefinedParameter.toList) "a.js").calls,
      parameterBinders call.function =
        [⟨[.key "css"], "css", .shorthandPattern⟩, ⟨[.key "a"], "undefined", .undefined⟩] ∧
      call.parameters = ⟨[], "css", []⟩ := by
  decide +kernel

end ThemedCss.Style
