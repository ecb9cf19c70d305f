import ThemedCss.Data.Field

/-! What a batch of modules is compiled with. -/
namespace ThemedCss
open ThemedCss.Data

/-- `factory` is the function that defines styles, `tag` the one that marks their templates, and
`marker` the one put around expressions that are known at build time. Values from `pureModules` are
known at build time too. -/
structure Settings where
  themePath : String
  runtimeTheme : Option String
  factory : String
  tag : String
  marker : String
  pureModules : List String
deriving DecidableEq, Repr

/-- The settings of a batch that names only its theme. -/
def Settings.ofTheme (themePath : String) : Settings :=
  { themePath, runtimeTheme := none, factory := "createStyles", tag := "css", marker := "staticVar",
    pureModules := [] }

/-- Settings with the given theme. Fields that are left out have their usual values, unknown ones do
not count. -/
def Settings.ofData (themePath : String) (data : List (Value × Value)) : Fields Settings :=
  let usual := Settings.ofTheme themePath
  let runtimeTheme := Fields.optional usual.runtimeTheme Value.asText? "runtime_theme" data
  let factory := Fields.optional usual.factory Value.asText "factory" data
  let tag := Fields.optional usual.tag Value.asText "tag" data
  let marker := Fields.optional usual.marker Value.asText "marker" data
  let pureModules := Fields.optional usual.pureModules Value.asTexts "pure_modules" data
  (runtimeTheme.both (factory.both (tag.both (marker.both pureModules)))).map
    fun (runtimeTheme, factory, tag, marker, pureModules) =>
      { themePath, runtimeTheme, factory, tag, marker, pureModules }

/-- What compiled modules call in place of the factory. -/
def runtimeFactory : String :=
  "__flairCreateStyles"

end ThemedCss
