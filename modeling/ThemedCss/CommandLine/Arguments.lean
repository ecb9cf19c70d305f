/-! Arguments of the command line. -/
namespace ThemedCss.CommandLine

/-- An option, by its long name and its letter. -/
structure Switch where
  long : String
  letter : Option Char
  takesValue : Bool

/-- Arguments in order: options by their long name, and all others. -/
structure Arguments where
  options : List (String × String)
  operands : List String

namespace Arguments

def empty : Arguments :=
  ⟨[], []⟩

def addOption (a : Arguments) (name value : String) : Arguments :=
  { a with options := (name, value) :: a.options }

def addOperands (a : Arguments) (values : List String) : Arguments :=
  { a with operands := values ++ a.operands }

/-- The last value of an option counts. -/
def value? (a : Arguments) (name : String) : Option String :=
  a.options.reverse.lookup name

def has (a : Arguments) (name : String) : Bool :=
  a.options.any (·.1 == name)

end Arguments

/-- What an argument that begins with a dash says. -/
inductive Reading where
  | unknown
  /-- An option with all it needs. -/
  | complete (name value : String)
  /-- An option whose value is the next argument. -/
  | pending (name : String)

/-- Read a long option; its value may follow an equals sign. -/
def readLong (switches : List Switch) (body : List Char) : Reading :=
  let name := body.takeWhile (· != '=')
  let value := body.drop name.length
  match switches.find? (·.long == String.ofList name) with
  | none => .unknown
  | some s =>
    match s.takesValue, value with
    | true, _ :: v => .complete s.long (String.ofList v)
    | true, [] => .pending s.long
    | false, [] => .complete s.long ""
    | false, _ => .unknown

/-- Read an option by its letter; its value may follow at once. -/
def readShort (switches : List Switch) : List Char → Reading
  | [] => .unknown
  | c :: value =>
    match switches.find? (·.letter == some c) with
    | none => .unknown
    | some s => if value.isEmpty then .pending s.long else .complete s.long (String.ofList value)

/-- What an argument is, if it is an option: a single dash is none. -/
def reading? (switches : List Switch) (argument : String) : Option Reading :=
  match argument.toList with
  | '-' :: '-' :: body => some (readLong switches body)
  | '-' :: c :: rest => some (readShort switches (c :: rest))
  | _ => none

/-- Read arguments from left to right. `waiting` is an option that still needs its value. Two dashes
end the options. -/
def readArguments (switches : List Switch) : Option String → List String → Option Arguments
  | some _, [] => none
  | none, [] => some .empty
  | some name, value :: rest => (readArguments switches none rest).map (·.addOption name value)
  | none, argument :: rest =>
    if argument = "--" then some (Arguments.empty.addOperands rest)
    else
      match reading? switches argument with
      | none => (readArguments switches none rest).map (·.addOperands [argument])
      | some .unknown => none
      | some (.complete name value) =>
        (readArguments switches none rest).map (·.addOption name value)
      | some (.pending name) => readArguments switches (some name) rest

inductive Command where
  | compile (files : List String) (theme : Option String) (outDir : Option String) (mapping : Bool)
  | extract (resource : String)
  | theme (theme : Option String)
deriving Repr

def themeSwitch : Switch :=
  ⟨"theme", some 't', true⟩

def compileSwitches : List Switch :=
  [themeSwitch, ⟨"out-dir", some 'o', true⟩, ⟨"mapping", none, false⟩]

def Command.ofNamed? (name : String) (arguments : List String) : Option Command := do
  match name with
  | "compile" =>
    let a ← readArguments compileSwitches none arguments
    if a.operands.isEmpty then none
    else return .compile a.operands (a.value? "theme") (a.value? "out-dir") (a.has "mapping")
  | "extract" =>
    match (← readArguments [] none arguments).operands with
    | [resource] => return .extract resource
    | _ => none
  | "theme" =>
    let a ← readArguments [themeSwitch] none arguments
    if a.operands.isEmpty then return .theme (a.value? "theme") else none
  | _ => none

/-- The command of a command line, or nothing if it is not used as it should be. -/
def Command.ofArguments? : List String → Option Command
  | "--" :: name :: rest => ofNamed? name rest
  | name :: rest => ofNamed? name rest
  | [] => none

end ThemedCss.CommandLine
