import ThemedCss.Path

/-! What interpolations may depend on. -/
namespace ThemedCss.Dependency

inductive Key where
  /-- A value known only when the module runs. -/
  | dynamic
  /-- A value known at build time. -/
  | static
  /-- A name at the top level of a module. -/
  | global (path : Path) (name : String)
  /-- A name declared in the style function of a call site. -/
  | local (path : Path) (callSite : Nat) (name : String)
deriving DecidableEq, Repr

def Key.render : Key → String
  | dynamic => "<dynamic>"
  | static => "<static>"
  | global path name => s!"{path}#{name}"
  | .local path callSite name => s!"{path}@{callSite}:{name}"

/-- The name under which an unnamed default export is known. -/
def defaultName : String :=
  "*default*"

/-- Functions and values of the language that may be used as they are. -/
def pureNames : List String :=
  ["Number", "String", "parseInt", "parseFloat", "isNaN", "isFinite", "undefined", "NaN",
   "Infinity"]

/-- Members that give the same result at build time as later; `Math.random` is none of them. -/
def pureMembers : List (String × List String) :=
  [("Math",
    ["abs", "ceil", "floor", "round", "trunc", "sign", "max", "min", "pow", "sqrt", "cbrt", "hypot",
     "exp", "log", "log2", "log10", "sin", "cos", "tan", "atan", "atan2", "PI", "E", "LN2", "LN10",
     "SQRT2"]),
   ("JSON", ["stringify"]),
   ("Number",
    ["isFinite", "isInteger", "isNaN", "parseFloat", "parseInt", "MAX_SAFE_INTEGER",
     "MIN_SAFE_INTEGER", "EPSILON"]),
   ("String", ["fromCharCode"])]

/-- Whether a global name with a member chain is known at build time. -/
def isPureGlobal (name : String) : List String → Bool
  | [] => pureNames.contains name
  | member :: _ => ((pureMembers.lookup name).getD []).contains member

end ThemedCss.Dependency
