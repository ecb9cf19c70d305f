import ThemedCss.Compile
import ThemedCss.Proofs.Style.Grant

/-! The stages of a compilation that succeeds. -/
namespace ThemedCss
open ThemedCss.Dependency ThemedCss.Output ThemedCss.Style ThemedCss.Syntax ThemedCss.Text

variable {c : Compiler} {w : Workspace} {source : Bytes} {filename : String} {path : Path}
  {root : Node} {m : Compiled}

/-- The source is text, its file has a dialect, and the parser of that dialect makes `root` of
it. -/
def Parsed (w : Workspace) (source : Bytes) (filename : String) (path : Path) (root : Node) :
    Prop :=
  ∃ chars d, decode source = .ok chars ∧ w.resolve filename = .ok path ∧
    Compiler.dialectOf path = .ok d ∧ parse d chars = root

theorem Parsed.of_suffix {chars : List Char} {d : Dialect} (hchars : decode source = .ok chars)
    (hpath : w.resolve filename = .ok path) (hd : Dialect.ofSuffix? path.suffix = some d) :
    Parsed w source filename path (parse d chars) := by
  have hdialect : Compiler.dialectOf path = .ok d := by rw [Compiler.dialectOf, hd]
  exact ⟨chars, d, hchars, hpath, hdialect, rfl⟩

theorem Parsed.unique {path' : Path} {root' : Node} (h : Parsed w source filename path root)
    (h' : Parsed w source filename path' root') : path = path' ∧ root = root' := by
  obtain ⟨chars, d, hchars, hpath, hd, rfl⟩ := h
  obtain ⟨chars', d', hchars', hpath', hd', rfl⟩ := h'
  obtain rfl := Except.ok.inj (hchars.symm.trans hchars')
  obtain rfl := Except.ok.inj (hpath.symm.trans hpath')
  obtain rfl := Except.ok.inj (hd.symm.trans hd')
  exact ⟨rfl, rfl⟩

namespace Compiler

theorem compileSource_eq_compileTree (c : Compiler) (h : Parsed w source filename path root) :
    c.compileSource w source filename = c.compileTree w source filename path root := by
  obtain ⟨chars, d, hchars, hpath, hd, rfl⟩ := h
  simp [compileSource, hchars, hpath, hd, bind, Except.bind]

/-- A module is compiled from a tree that the parser made. -/
theorem parsed_of_compileSource (h : c.compileSource w source filename = .ok m) :
    ∃ path root, Parsed w source filename path root ∧
      c.compileTree w source filename path root = .ok m := by
  unfold compileSource at h
  cases hchars : decode source with
  | error f => simp [hchars, bind, Except.bind] at h
  | ok chars =>
    cases hpath : w.resolve filename with
    | error f => simp [hchars, hpath, bind, Except.bind, throw, throwThe, MonadExceptOf.throw] at h
    | ok path =>
      cases hd : dialectOf path with
      | error f => simp [hchars, hpath, hd, bind, Except.bind] at h
      | ok d =>
        simp only [hchars, hpath, hd, bind, Except.bind] at h
        exact ⟨path, _, ⟨chars, d, hchars, hpath, hd, rfl⟩, h⟩

theorem compileTree_eq_ok_iff : c.compileTree w source filename path root = .ok m ↔
    ∃ calls, c.label w.files path filename root (scan c.settings source root filename).calls =
      .ok calls ∧
      emit c.settings source root filename calls
        (scan c.settings source root filename).diagnostics = .ok m := by
  unfold compileTree
  dsimp only
  rw [bind_eq_ok]
  refine exists_congr fun calls => and_congr_right fun _ => ?_
  cases emit c.settings source root filename calls
    (scan c.settings source root filename).diagnostics <;>
    simp [pure, Except.pure, throw, throwThe, MonadExceptOf.throw]

/-- Labelling keeps the definitions as they are, and their interpolations are given their tokens. -/
theorem named_of_label {files : FileTree} {calls : List (Call Interpolation)}
    {named : List (Call Named)} (h : c.label files path filename root calls = .ok named) :
    ∃ labelled : List (Call Labelled), labelled.map (Call.map Labelled.toInterpolation) = calls ∧
      nameAll (fileId filename) labelled = .ok named := by
  unfold label at h
  split_ifs at h with hempty
  · obtain rfl := Except.ok.inj h
    exact ⟨[], (List.isEmpty_iff.mp hempty).symm, rfl⟩
  · cases hr : classify files c.settings c.environment.allows path root calls with
    | error f => simp [hr] at h
    | ok r =>
      cases hn : nameAll (fileId filename) r.calls with
      | error f => simp [hr, hn] at h
      | ok named' =>
        obtain rfl : named' = named := by simpa [hr, hn] using h
        refine ⟨r.calls, ?_, hn⟩
        unfold classify at hr
        dsimp only at hr
        split at hr
        · simp at hr
        · obtain rfl := Except.ok.inj hr
          simp [labelCall, Call.map, Block.map, Function.comp_def]

end Compiler
end ThemedCss
