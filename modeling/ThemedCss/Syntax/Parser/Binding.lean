import ThemedCss.Syntax.Parser.Basic

/-! Property names, binding patterns and parameter lists. -/
namespace ThemedCss.Syntax.Parser

def propertyName (rules : Rules) : Parser Node := do
  match ← current with
  | .word _ => leaf .propertyName
  | .privateWord _ => leaf .privateName
  | .string _ => leaf .string
  | .number _ => leaf .number
  | .mark "[" =>
    let start ← here
    advance
    let key ← enclosed (rules .assignment)
    mark "]"
    node .computedName start [key]
  | _ => failure

/-- A part of a pattern, or a parameter. The word `undefined` is no name there. -/
def patternPart (rules : Rules) : Parser Node := do
  if ← atWord "undefined" then leaf .undefined else rules .binding

def withDefault (rules : Rules) : Parser Node := do
  let start ← here
  let target ← patternPart rules
  if ← mark? "=" then
    let value ← rules .assignment
    node .assignmentPattern start [target.withRole .left, value.withRole .right]
  else return target

def restPattern (rules : Rules) : Parser Node := do
  let start ← here
  mark "..."
  node .restPattern start [← patternPart rules]

def objectPatternEntry (rules : Rules) : Parser Node := do
  let start ← here
  if ← atMark "..." then restPattern rules
  else if (← atName) && !(← followingMark ":") then
    let name ← leaf .shorthandPattern
    if ← mark? "=" then
      let value ← rules .assignment
      node .shorthandDefault start [name.withRole .left, value.withRole .right]
    else return name
  else
    let key ← propertyName rules
    mark ":"
    let value ← withDefault rules
    node .pairPattern start [key.withRole .key, value.withRole .value]

def binding (rules : Rules) : Parser Node := do
  let start ← here
  if ← mark? "\x7b" then
    let entries ← enclosed (commaList "\x7d" (objectPatternEntry rules))
    node .objectPattern start entries
  else if ← mark? "[" then
    let items ← enclosed (commaList "]" do
      if ← atMark "..." then restPattern rules else withDefault rules)
    node .arrayPattern start items
  else identifier

def typeAscription (rules : Rules) : Parser Node := do
  let start ← here
  mark ":"
  node .typeAscription start [← rules .type]

def typeAscription? (rules : Rules) : Parser (List Node) :=
  optional (atMark ":") (typeAscription rules)

def initializer? (rules : Rules) : Parser (List Node) := do
  if ← mark? "=" then return [(← rules .assignment).withRole .value]
  return []

def spreadable (rules : Rules) : Parser Node := do
  let start ← here
  if ← mark? "..." then node .spread start [← rules .assignment] else rules .assignment

def argumentList (rules : Rules) : Parser Node :=
  bracketed .arguments ')' do
    let start ← here
    mark "("
    let items ← enclosed (commaList ")" (spreadable rules))
    node .arguments start items

/-- A decorator: a name, a member access or a call after an at sign. -/
def decorator (rules : Rules) : Parser Node := do
  let start ← here
  mark "@"
  let base ← here
  if ← atMark "(" then
    advance
    let inner ← rules .assignment
    mark ")"
    let wrapped ← node .parenthesized base [inner]
    node .decorator start [wrapped]
  else
    let target ← identifier
    let chain ← extendAll (fun n => do
      if ← mark? "." then
        let property ← leaf .propertyName
        return some (← node .member base [n.withRole .object, property.withRole .property])
      return none) target
    if ← atMark "(" then
      let arguments ← argumentList rules
      let call ← node .call base [chain.withRole .callee, arguments.withRole .arguments]
      node .decorator start [call]
    else node .decorator start [chain]

def decorators (rules : Rules) : Parser (List Node) :=
  enclosed <| many do
    if ← atMark "@" then return some (← decorator rules)
    return none

/-- A word that qualifies what follows it, taken when a name can still follow. -/
def modifiers (words : List String) : Parser (List Node) :=
  many do
    match ← current with
    | .word w =>
      if words.contains w && !(← stopsAfter) then
        match (← following).1 with
        | .word _ | .privateWord _ | .string _ | .number _ => return some (← leaf .modifier)
        | .mark m =>
          if m == "[" || m == "\x7b" || m == "*" then return some (← leaf .modifier)
          else return none
        | _ => return none
      else return none
    | _ => return none

/-- One parameter; in typed modules the pattern is wrapped together with its type and default. -/
def parameter (rules : Rules) : Parser Node := do
  if ← typed then
    let start ← here
    let marks ← decorators rules
    let quals ← modifiers ["public", "private", "protected", "override", "readonly"]
    let pattern ←
      if ← atMark "..." then restPattern rules
      else if ← atWord "this" then leaf .this
      else patternPart rules
    let kind := if ← mark? "?" then Kind.optionalParameter else Kind.requiredParameter
    let type ← typeAscription? rules
    let value ← initializer? rules
    node kind start (marks ++ quals ++ [pattern.withRole .pattern] ++ type ++ value)
  else if ← atMark "..." then restPattern rules
  else withDefault rules

def formalParameters (rules : Rules) : Parser Node := do
  let start ← here
  mark "("
  let items ← enclosed (strictList ")" (parameter rules))
  node .formalParameters start items

end ThemedCss.Syntax.Parser
