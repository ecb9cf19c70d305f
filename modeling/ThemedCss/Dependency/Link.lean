import ThemedCss.FileTree
import ThemedCss.Syntax.Kind

/-! The files behind module specifiers. -/
namespace ThemedCss.Dependency

inductive LinkFault where
  /-- The specifier leads to the root directory, beside which there is nothing. -/
  | nameless
  | file (fault : FileFault)
deriving DecidableEq, Repr

inductive Link where
  | missing
  | faulty (fault : LinkFault)
  | found (path : Path)
deriving DecidableEq, Repr

/-- Suffixes that a specifier may leave out, in the order they are tried. -/
def impliedSuffixes : List String :=
  [".js", ".jsx", ".ts", ".tsx", ".mjs", ".cjs"]

/-- The files a specifier may stand for: itself, itself with a suffix, or the index of a
directory. -/
def candidates? (base : Path) : Option (List Path) := do
  let itself := if (Syntax.Dialect.ofSuffix? base.suffix).isSome then [base] else []
  let suffixed ← impliedSuffixes.mapM fun suffix => base.withName? (base.name ++ suffix)
  return itself ++ suffixed ++ impliedSuffixes.map fun suffix => base.child ("index" ++ suffix)

/-- The first of several places that holds a file. -/
def Link.search (files : FileTree) : List Path → Link
  | [] => .missing
  | path :: rest =>
    match files.file? path with
    | .ok (some place) => .found place
    | .ok none => search files rest
    | .error f => .faulty (.file f)

/-- The file a specifier stands for in a module. Only paths relative to the module are looked up. -/
def Link.resolve (files : FileTree) (importer : Path) (specifier : String) : Link :=
  let source := Path.ofString specifier
  match candidates? (source.under importer.parent) with
  | none => .faulty .nameless
  | some candidates => if source.rooted then .missing else search files candidates

end ThemedCss.Dependency
