import ThemedCss.Proofs.Text.Utf8
import ThemedCss.Proofs.Theme.Accessor
import ThemedCss.Proofs.Theme.Cache

/-! When a theme of plain data is refused, and of which faults the configuration is told. -/
namespace ThemedCss.Theme
open ThemedCss.Data ThemedCss.Text

def foreignKeys (entries : List (Value × Value)) : List ForeignKey :=
  (entries.filter fun e => !isRootKey e.1).map fun e => ⟨e.1, e.1 matches .bytes _⟩

theorem textKeys_eq_foreignKeys (entries : List (Value × Value)) :
    (textKeys entries).2 = foreignKeys entries := by
  induction entries with
  | nil => rfl
  | cons entry rest ih =>
    obtain ⟨k, v⟩ := entry
    simp only [foreignKeys, List.filter_cons] at ih ⊢
    cases k with
    | bytes b => cases hb : Text.decode b <;> simp [textKeys, isRootKey, hb, ih, Except.toOption]
    | _ => simp [textKeys, isRootKey, ih]

def HoldsMapping (content : Bytes) (entries : List (Value × Value)) : Prop :=
  ∃ text graph, content = encode text ∧ Yaml.read text.toList = .ok graph ∧
    graph.toValue = .map entries

/-- Why the content of a file of plain data is no theme. -/
inductive Refused (path : Path) (content : Bytes) : Fault → Prop
  | notUtf8 {fault : Utf8Fault} (bytes : ∀ text, content ≠ encode text)
      (decode : decode content = .error fault) :
      Refused path content (.notUtf8 fault)
  | malformed {text : String} (eq : content = encode text)
      (read : Yaml.read text.toList = .error .malformed) :
      Refused path content (.malformed path)
  | data {text : String} {fault : Yaml.Fault} (eq : content = encode text)
      (read : Yaml.read text.toList = .error fault)
      (other : fault ≠ .malformed) : Refused path content (.data fault)
  | notMapping {text : String} {graph : Graph} (eq : content = encode text)
      (read : Yaml.read text.toList = .ok graph)
      (root : ∀ entries, graph.toValue ≠ .map entries) : Refused path content (.notMapping path)
  | endless {entries : List (Value × Value)} (holds : HoldsMapping content entries)
      (inside : Inside (.enclosing true) entries) :
      Refused path content .endless
  | foreignKeys {entries : List (Value × Value)} (holds : HoldsMapping content entries)
      (inside : ¬Inside (.enclosing true) entries) (foreign : foreignKeys entries ≠ []) :
      Refused path content (.foreignKeys (foreignKeys entries))

/-- Data are refused for a mapping that holds itself first, and then for the keys of the root. -/
theorem ofData_eq_error_iff {path : Path} {entries : List (Value × Value)} {f : DataFault} :
    Environment.ofData path entries = .error f ↔
      (f = .endless ∧ Inside (.enclosing true) entries) ∨
        (f = .foreignKeys (foreignKeys entries) ∧ ¬Inside (.enclosing true) entries ∧
          foreignKeys entries ≠ []) := by
  have hlists := lists_waysOfEntries? entries []
  have hkeys := textKeys_eq_foreignKeys entries
  unfold Environment.ofData
  cases hways : waysOfEntries? [] entries with
  | none =>
    rw [hways] at hlists
    have hinside : Inside (.enclosing true) entries := hlists
    constructor
    · intro h
      exact .inl ⟨(Except.error.inj h).symm, hinside⟩
    · rintro (⟨rfl, -⟩ | ⟨-, hfinite, -⟩)
      · rfl
      · exact absurd hinside hfinite
  | some ways =>
    rw [hways] at hlists
    have hfinite : ¬Inside (.enclosing true) entries := hlists.1
    cases htext : textKeys entries with
    | mk data foreign =>
      rw [htext] at hkeys
      cases foreign with
      | nil =>
        constructor
        · intro h
          cases h
        · rintro (⟨-, hinside⟩ | ⟨-, -, hforeign⟩)
          · exact absurd hinside hfinite
          · exact absurd hkeys.symm hforeign
      | cons key keys =>
        constructor
        · intro h
          have hf := (Except.error.inj h).symm
          exact .inr ⟨hf.trans (congrArg DataFault.foreignKeys hkeys), hfinite, by simp [← hkeys]⟩
        · rintro (⟨-, hinside⟩ | ⟨rfl, -, -⟩)
          · exact absurd hinside hfinite
          · exact congrArg (Except.error ∘ DataFault.foreignKeys) hkeys

def DataFault.report : DataFault → Fault
  | endless => .endless
  | foreignKeys keys => .foreignKeys keys

def themeOf (path : Path) (content : Bytes) : Except Fault Environment :=
  readData path content >>=
    fun entries => (Environment.ofData path entries).mapError DataFault.report

section Load
variable {path : Path} {content : Bytes}

private theorem loadFile_data {files : FileTree}
    (hsuffix : dataSuffixes.contains path.suffix.toLower = true)
    (hfile : files.look path = .ok (some (.file content))) :
    loadFile files path = themeOf path content := by
  rw [loadFile, hfile]
  simp only [readContent, hsuffix, if_true, themeOf]
  cases readData path content with
  | error f => rfl
  | ok entries =>
    simp only [bind, Except.bind]
    cases Environment.ofData path entries with
    | ok e => rfl
    | error f => cases f <;> rfl

section Text
variable {text : String} {graph : Graph}

theorem readData_error {fault : Yaml.Fault} (hread : Yaml.read text.toList = .error fault) :
    readData path (encode text) =
      .error (if fault = .malformed then .malformed path else .data fault) := by
  simp only [readData, decode_encode, hread]
  cases fault <;> rfl

theorem readData_map {entries : List (Value × Value)} (hread : Yaml.read text.toList = .ok graph)
    (hroot : graph.toValue = .map entries) : readData path (encode text) = .ok entries := by
  simp only [readData, decode_encode, hread, Except.map, hroot]

theorem readData_other (hread : Yaml.read text.toList = .ok graph)
    (hroot : ∀ entries, graph.toValue ≠ .map entries) :
    readData path (encode text) = .error (.notMapping path) := by
  simp only [readData, decode_encode, hread, Except.map]

end Text

/-- Bytes are a text, or they are refused as none. -/
theorem exists_text_or (path : Path) (content : Bytes) :
    (∃ text, content = encode text) ∨
      ∃ f, readData path content = .error (.notUtf8 f) ∧ Refused path content (.notUtf8 f) := by
  cases hd : decode content with
  | ok cs => exact .inl ⟨String.ofList cs, decode_eq_ok_iff.mp hd⟩
  | error f =>
    refine .inr ⟨f, by rw [readData, hd], .notUtf8 (fun text h => ?_) hd⟩
    rw [h, decode_encode] at hd
    cases hd

/-- What a text holds: a mapping, or it is refused. -/
theorem readData_cases (path : Path) (content : Bytes) :
    (∃ entries, readData path content = .ok entries ∧ HoldsMapping content entries) ∨
      ∃ f, readData path content = .error f ∧ Refused path content f := by
  rcases exists_text_or path content with ⟨text, rfl⟩ | ⟨f, hf⟩
  · cases hread : Yaml.read text.toList with
    | error fault =>
      refine .inr ⟨_, readData_error hread, ?_⟩
      split_ifs with hfault
      · exact .malformed rfl (hfault ▸ hread)
      · exact .data rfl hread hfault
    | ok graph =>
      by_cases hroot : ∃ entries, graph.toValue = .map entries
      · obtain ⟨entries, hv⟩ := hroot
        exact .inl ⟨entries, readData_map hread hv, text, graph, rfl, hread, hv⟩
      · rw [not_exists] at hroot
        exact .inr ⟨_, readData_other hread hroot, .notMapping rfl hread hroot⟩
  · exact .inr ⟨_, hf⟩

theorem readData_of_holds {entries : List (Value × Value)} (h : HoldsMapping content entries) :
    readData path content = .ok entries := by
  obtain ⟨text, graph, rfl, hread, hv⟩ := h
  exact readData_map hread hv

theorem themeOf_eq_error_iff {f : Fault} :
    themeOf path content = .error f ↔ Refused path content f := by
  rw [themeOf]
  constructor
  · intro h
    rcases readData_cases path content with ⟨entries, hread, hholds⟩ | ⟨g, hread, hrefused⟩
    · rw [hread] at h
      cases hdata : Environment.ofData path entries with
      | ok e =>
        simp only [bind, Except.bind, hdata] at h
        cases h
      | error g =>
        simp only [bind, Except.bind, hdata] at h
        obtain rfl := Except.error.inj h
        rcases ofData_eq_error_iff.mp hdata with ⟨rfl, hinside⟩ | ⟨rfl, hfinite, hforeign⟩
        · exact .endless hholds hinside
        · exact .foreignKeys hholds hfinite hforeign
    · rw [hread] at h
      obtain rfl := Except.error.inj h
      exact hrefused
  · intro h
    cases h with
    | notUtf8 hbytes hdecode => simp [readData, hdecode, bind, Except.bind]
    | malformed eq hread =>
      rw [eq, readData_error hread]
      rfl
    | data eq hread hother =>
      rw [eq, readData_error hread, if_neg hother]
      rfl
    | notMapping eq hread hroot =>
      rw [eq, readData_other hread hroot]
      rfl
    | endless hholds hinside =>
      rw [readData_of_holds hholds]
      simp only [bind, Except.bind, ofData_eq_error_iff.mpr (.inl ⟨rfl, hinside⟩)]
      rfl
    | foreignKeys hholds hfinite hforeign =>
      rw [readData_of_holds hholds]
      simp only [bind, Except.bind, ofData_eq_error_iff.mpr (.inr ⟨rfl, hfinite, hforeign⟩)]
      rfl

theorem foreignKeys_eq_nil_iff {entries : List (Value × Value)} :
    foreignKeys entries = [] ↔ ∀ entry ∈ entries, isRootKey entry.1 = true := by
  rw [← textKeys_eq_foreignKeys, textKeys_foreign]

theorem exists_themeOf_iff : (∃ e, themeOf path content = .ok e) ↔
    ∃ entries, HoldsMapping content entries ∧ ¬Inside (.enclosing true) entries ∧
    ∀ entry ∈ entries, isRootKey entry.1 = true := by
  constructor
  · rintro ⟨e, he⟩
    have hno (f : Fault) : ¬Refused path content f := fun hf => by
      rw [themeOf_eq_error_iff.mpr hf] at he
      cases he
    rcases readData_cases path content with ⟨entries, -, hholds⟩ | ⟨f, -, hf⟩
    · have hfinite : ¬Inside (.enclosing true) entries := fun h => hno _ (.endless hholds h)
      refine ⟨entries, hholds, hfinite, foreignKeys_eq_nil_iff.mp ?_⟩
      by_contra hforeign
      exact hno _ (.foreignKeys hholds hfinite hforeign)
    · exact absurd hf (hno f)
  · rintro ⟨entries, hholds, hfinite, hkeys⟩
    rw [themeOf, readData_of_holds hholds]
    cases hdata : Environment.ofData path entries with
    | ok e => exact ⟨e, by simp only [bind, Except.bind, hdata]; rfl⟩
    | error f =>
      rcases ofData_eq_error_iff.mp hdata with ⟨-, hinside⟩ | ⟨-, -, hforeign⟩
      · exact absurd hinside hfinite
      · exact absurd (foreignKeys_eq_nil_iff.mpr hkeys) hforeign

/-- A refusal that the configuration is not told of. -/
theorem exists_refused_silent_iff (path : Path) :
    (∃ f, Refused path content f ∧ f.message? = none) ↔
    (∀ text, content ≠ encode text) ∨
      (∃ text fault, content = encode text ∧ Yaml.read text.toList = .error fault ∧
        fault ≠ .malformed) ∨
      ∃ entries, HoldsMapping content entries ∧
        (Inside (.enclosing true) entries ∨ ∃ entry ∈ entries, isRootKey entry.1 = false) := by
  have hsome {entries : List (Value × Value)} :
      foreignKeys entries ≠ [] ↔ ∃ entry ∈ entries, isRootKey entry.1 = false := by
    rw [Ne, foreignKeys_eq_nil_iff]
    simp
  constructor
  · rintro ⟨f, hf, hmessage⟩
    cases hf with
    | notUtf8 hbytes => exact .inl hbytes
    | malformed => cases hmessage
    | data eq hread hother => exact .inr (.inl ⟨_, _, eq, hread, hother⟩)
    | notMapping => cases hmessage
    | endless hholds hinside => exact .inr (.inr ⟨_, hholds, .inl hinside⟩)
    | foreignKeys hholds _ hforeign => exact .inr (.inr ⟨_, hholds, .inr (hsome.mp hforeign)⟩)
  · rintro (hbytes | ⟨text, fault, eq, hread, hother⟩ | ⟨entries, hholds, hreason⟩)
    · rcases exists_text_or path content with ⟨text, eq⟩ | ⟨f, -, hf⟩
      · exact absurd eq (hbytes text)
      · exact ⟨_, hf, rfl⟩
    · exact ⟨_, .data eq hread hother, rfl⟩
    · by_cases hinside : Inside (.enclosing true) entries
      · exact ⟨_, .endless hholds hinside, rfl⟩
      · exact ⟨_, .foreignKeys hholds hinside (hsome.mpr (hreason.resolve_left hinside)), rfl⟩

end Load

theorem Refused.message_iff {path : Path} {content : Bytes} {f : Fault}
    (h : Refused path content f) :
    f.message?.isSome = true ↔ f = .malformed path ∨ f = .notMapping path := by
  cases h <;> simp [Fault.message?]

/-- A theme of plain data that is not in the cache is refused for exactly six reasons. The
configuration is told of two of them. It is not told of bytes that are no text, of well-formed text
with a value that cannot be read, of mappings that hold themselves and of keys that are no text. -/
theorem load_data_refused_iff (homes : Homes) (s : Session) {location : String} {path : Path}
    {content : Bytes} (hplace : place s.files homes location = .ok path)
    (hsuffix : dataSuffixes.contains path.suffix.toLower = true)
    (hfile : s.files.look path = .ok (some (.file content))) :
    (∀ f, (s.load homes location).1 = .error f ↔
      s.cache.get? path = none ∧ Refused path content f) ∧
      ((∃ e, (s.load homes location).1 = .ok e) ↔ (∃ e, s.cache.get? path = some e) ∨
        ∃ entries, HoldsMapping content entries ∧ ¬Inside (.enclosing true) entries ∧
          ∀ entry ∈ entries, isRootKey entry.1 = true) ∧
      (∀ f, Refused path content f →
        (f.message?.isSome = true ↔ f = .malformed path ∨ f = .notMapping path)) ∧
      ((∃ f, (s.load homes location).1 = .error f ∧ f.message? = none) ↔ s.cache.get? path = none ∧
        ((∀ text, content ≠ encode text) ∨
          (∃ text fault, content = encode text ∧ Yaml.read text.toList = .error fault ∧
            fault ≠ .malformed) ∨
          ∃ entries, HoldsMapping content entries ∧
            (Inside (.enclosing true) entries ∨
              ∃ entry ∈ entries, isRootKey entry.1 = false))) := by
  cases hc : s.cache.get? path with
  | some e =>
    have hload := Session.load_of_cached hplace hc
    refine ⟨fun f => ?_, ?_, fun f hf => hf.message_iff, ?_⟩ <;> simp [hload]
  | none =>
    have hload := Session.load_of_new hplace hc
    rw [loadFile_data hsuffix hfile] at hload
    have herror (f : Fault) : (s.load homes location).1 = .error f ↔ Refused path content f := by
      rw [hload, themeOf_eq_error_iff]
    refine ⟨fun f => ?_, ?_, fun f hf => hf.message_iff, ?_⟩
    · simp [herror]
    · rw [hload, exists_themeOf_iff]
      simp
    · rw [← exists_refused_silent_iff path]
      simp [herror]

/-- A load that fails without a message. -/
def isSilent {α : Type} : Except Fault α → Bool
  | .error f => f.message?.isNone
  | .ok _ => false

theorem isSilent_iff {α : Type} {r : Except Fault α} :
    isSilent r = true ↔ ∃ f, r = .error f ∧ f.message? = none := by
  cases r <;> simp [isSilent]

def nullKey : FileTree :=
  ⟨[(["t.yml"], .file (encode "~: a"))], [], []⟩

theorem load_data_refused_null_key :
    let s : Session := ⟨nullKey, []⟩
    place nullKey ⟨.root, []⟩ "/t.yml" = .ok ⟨true, ["t.yml"]⟩ ∧
      nullKey.look ⟨true, ["t.yml"]⟩ = .ok (some (.file (encode "~: a"))) ∧
      ∃ f, (s.load ⟨.root, []⟩ "/t.yml").1 = .error f ∧ f.message? = none ∧
        Refused ⟨true, ["t.yml"]⟩ (encode "~: a") f := by
  intro s
  have hplace : place nullKey ⟨.root, []⟩ "/t.yml" = .ok ⟨true, ["t.yml"]⟩ := rfl
  have hfile : nullKey.look ⟨true, ["t.yml"]⟩ = .ok (some (.file (encode "~: a"))) := rfl
  have hsuffix : dataSuffixes.contains (Path.suffix ⟨true, ["t.yml"]⟩).toLower = true := by
    decide +kernel
  obtain ⟨herror, -, -, -⟩ := load_data_refused_iff ⟨.root, []⟩ s hplace hsuffix hfile
  have hsilent : isSilent (s.load ⟨.root, []⟩ "/t.yml").1 = true := by decide +kernel
  obtain ⟨f, hload, hmessage⟩ := isSilent_iff.mp hsilent
  exact ⟨hplace, hfile, f, hload, hmessage, ((herror f).mp hload).2⟩

def noText : FileTree :=
  ⟨[(["t.yml"], .file [0xff])], [], []⟩

/-- It is refused, and the configuration is not told of it. -/
theorem load_data_silent :
    ∃ f, (Session.load ⟨.root, []⟩ ⟨noText, []⟩ "/t.yml").1 = .error f ∧ f.message? = none :=
  isSilent_iff.mp (by decide +kernel)

end ThemedCss.Theme
