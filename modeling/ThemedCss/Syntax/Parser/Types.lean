import ThemedCss.Syntax.Parser.Binding

/-! Types of the typed dialects. -/
namespace ThemedCss.Syntax.Parser

def typeParameter (rules : Rules) : Parser Node := do
  let start ← here
  if ← atWord "const" then advance
  for w in ["in", "out"] do
    if ← atWord w then
      match (← following).1 with
      | .word _ => advance
      | _ => pure ()
  let name ← leaf .typeName
  let constraintStart ← here
  let bound ← optional (word? "extends") do
    node .typeConstraint constraintStart [← rules .type]
  let defaultStart ← here
  let default ← optional (mark? "=") do
    node .defaultType defaultStart [← rules .type]
  node .typeParameter start ([name.withRole .name] ++ bound ++ default)

/-- One or more items up to a closing angle bracket. -/
def angleList (item : Parser Node) : Parser (List Node) := do
  let items ← enclosed do
    let first ← item
    let rest ← many do
      if ← mark? "," then
        if (← get).here.head? == some '>' then return some none
        return some (some (← item))
      return none
    return first :: rest.filterMap id
  closeAngle
  return items

def typeParameters (rules : Rules) : Parser Node := do
  let start ← here
  mark "<"
  let items ← angleList (typeParameter rules)
  node .typeParameters start items

def typeParameters? (rules : Rules) : Parser (List Node) :=
  optional (atMark "<") (typeParameters rules)

def typeArguments (rules : Rules) : Parser Node := do
  let start ← here
  match (← get).here with
  | '<' :: rest => modify fun s => s.moveTo rest (s.start + 1)
  | _ => failure
  let items ← angleList (rules .type)
  node .typeArguments start items

/-- A statement about a parameter, as in `x is T`. -/
def typePredicate (rules : Rules) : Parser Node := do
  let start ← here
  let name ← if ← atWord "this" then leaf .this else leaf .identifier
  word "is"
  node .typePredicate start [name.withRole .name, ← rules .type]

def atPredicate : Parser Bool := do
  match ← current with
  | .word _ => return (← following).1 == .word "is" && !(← stopsAfter)
  | _ => return false

def assertsClause (rules : Rules) : Parser Node := do
  let start ← here
  word "asserts"
  let subject ←
    if ← atPredicate then typePredicate rules
    else if ← atWord "this" then leaf .this
    else leaf .identifier
  node .asserts start [subject]

def atAsserts : Parser Bool := do
  if ← atWord "asserts" then
    match (← following).1 with
    | .word _ => return !(← stopsAfter)
    | _ => return false
  else return false

def returnType? (rules : Rules) : Parser (List Node) := do
  if ← atMark ":" then
    let start ← here
    advance
    if ← atAsserts then return [← node .assertsAscription start [← assertsClause rules]]
    else if ← atPredicate then return [← node .predicateAscription start [← typePredicate rules]]
    else return [← node .typeAscription start [← rules .type]]
  return []

def signatureHead (rules : Rules) : Parser (List Node) := do
  let generics ← if ← typed then typeParameters? rules else pure []
  return generics ++ [(← formalParameters rules).withRole .parameters]

def callSignature (rules : Rules) : Parser (List Node) := do
  let head ← signatureHead rules
  if ← typed then return head ++ (← returnType? rules) else return head

def functionTypeRest (rules : Rules) (kind : Kind) (start : Nat) (head : List Node) :
    Parser Node := do
  mark "=>"
  let result ←
    if ← atAsserts then assertsClause rules
    else if ← atPredicate then typePredicate rules
    else rules .type
  node kind start (head ++ [result])

/-- A function type, if one starts here: only the arrow after its parameters tells. -/
def functionType? (rules : Rules) : Parser (Option Node) := do
  if (← atMark "(") || (← atMark "<") then
    let start ← here
    let head ← attempt do
      let head ← signatureHead rules
      unless ← atMark "=>" do failure
      return head
    match head with
    | some head => some <$> functionTypeRest rules .functionType start head
    | none => return none
  else return none

def namedType (rules : Rules) : Parser Node := do
  let start ← here
  let name ←
    if ← followingMark "." then
      let first ← leaf .identifier
      let (modules, last) ← qualified start first
      pure (← node .qualifiedTypeName start [modules, last.withRole .name])
    else leaf .typeName
  let generic ← if ← atMark "<" then attempt (typeArguments rules) else pure none
  match generic with
  | some arguments => node .genericType start [name.withRole .name, arguments]
  | none => return name
where
  /-- The parts of a dotted name: everything up to the last part, and that part. -/
  qualified (start : Nat) (first : Node) : Parser (Node × Node) := do
    mark "."
    let parts ← many do
      match ← current with
      | .word _ =>
        if ← followingMark "." then
          let part ← leaf .propertyName
          let stop ← last
          advance
          return some (part, stop)
        return none
      | _ => return none
    let name ← leaf .typeName
    let modules := parts.zipIdx.foldl (fun (n : Node) ((part, stop), i) =>
      let kind := if i + 1 == parts.length then Kind.qualifiedName else Kind.member
      ⟨kind, .plain, start, stop, "", [n.withRole .object, part.withRole .property]⟩) first
    return (modules, name)

def predefinedTypes : List String :=
  ["any", "number", "boolean", "string", "symbol", "void", "unknown", "never", "object"]

/-- What follows `typeof` or an imported module in a type: member accesses, indexes and calls. An
access keeps the properties of the accesses it extends before its own, as empty nodes behind its
object. In the type of an expression, optional accesses and calls apply to the expression. -/
def typeQueryTail (rules : Rules) (start : Nat) (base : Node) : Parser Node := do
  let ascribed := (← get).context.ascribed
  extendAll (fun n => do
    if (← atMark ".") || (!ascribed && (← atMark "?.")) then
      advance
      let property ←
        match ← current with
        | .privateWord _ => leaf .privateName
        | _ => leaf .propertyName
      let properties := if n.kind == .member then n.children.filter (·.role == .property) else []
      let inherited := properties.map fun p => { p with start := n.stop, stop := n.stop }
      return some (← node .member start
        (n.withRole .object :: inherited ++ [property.withRole .property]))
    if ← stopped then return none
    if (← atMark "[") && !(← followingMark "]") then
      advance
      let index ←
        match ← current with
        | .string _ => leaf .string
        | .number _ => leaf .number
        | _ => leaf .predefinedType
      mark "]"
      return some (← node .subscript start [n.withRole .object, index])
    if !ascribed && (← atMark "(") then
      let arguments ← argumentList rules
      return some (← node .call start [n.withRole .callee, arguments.withRole .arguments])
    return none) base

/-- A name, `this` or an imported module, as the subject of a type query. -/
def typeQuerySubject (rules : Rules) : Parser Node := do
  let start ← here
  let base ←
    if ← atWord "import" then leaf .importCallee
    else if ← atWord "this" then leaf .this
    else leaf .identifier
  typeQueryTail rules start base

def typeMember (rules : Rules) : Parser Node := do
  let start ← here
  if (← atMark "(") || (← atMark "<") then node .callSignature start (← callSignature rules)
  else if (← atWord "new") && ((← followingMark "(") || (← followingMark "<")) then
    advance
    let generics ← typeParameters? rules
    let parameters ← formalParameters rules
    let type ← typeAscription? rules
    node .constructSignature start (generics ++ [parameters.withRole .parameters] ++ type)
  else
    if (← atMark "+") || (← atMark "-") then advance
    let quals ← modifiers ["public", "private", "protected", "static", "override", "readonly",
      "abstract", "declare", "async", "get", "set"]
    if ← atMark "[" then
      if let some n ← attempt (indexSignature start quals) then return n
    let _ ← mark? "*"
    let name ← propertyName rules
    let _ ← mark? "?"
    if !(← stopped) && ((← atMark "(") || (← atMark "<")) then
      let signature ← callSignature rules
      node .methodSignature start (quals ++ [name.withRole .name] ++ signature)
    else
      let type ← typeAscription? rules
      node .propertySignature start (quals ++ [name.withRole .name] ++ type)
where
  /-- An index signature or the clause of a mapped type. -/
  indexSignature (start : Nat) (quals : List Node) : Parser Node := do
    mark "["
    let inner ← enclosed do
      match (← following).1 with
      | .mark ":" =>
        let name ← leaf .identifier
        advance
        let type ← rules .type
        pure [name.withRole .name, type]
      | .word "in" =>
        let clause ← here
        let name ← leaf .typeName
        advance
        let type ← rules .type
        let other ← optional (word? "as") (rules .type)
        pure [← node .mappedTypeClause clause ([name.withRole .name, type] ++ other)]
      | _ => failure
    mark "]"
    if (← atMark "-") || (← atMark "+") then advance
    let _ ← mark? "?"
    let type ← typeAscription? rules
    node .indexSignature start (quals ++ inner ++ type)

def typeBody (rules : Rules) (kind : Kind) : Parser Node := do
  let start ← here
  mark "\x7b"
  let members ← many do
    if (← mark? ";") || (← mark? ",") then return some none
    if ← atMark "\x7d" then return none
    let member ← ending false (typeMember rules)
    unless (← atMark ";") || (← atMark ",") || (← atMark "\x7d") || (← endsHere false) do failure
    return some (some member)
  mark "\x7d"
  node kind start (members.filterMap id)

def tupleMember (rules : Rules) : Parser Node := do
  let start ← here
  let named ← attempt do
    let name ←
      if ← atMark "..." then
        let rest ← here
        advance
        node .restPattern rest [← identifier]
      else leaf .identifier
    let kind := if ← mark? "?" then Kind.optionalParameter else Kind.requiredParameter
    let type ← typeAscription rules
    node kind start [name.withRole .name, type]
  match named with
  | some n => return n
  | none =>
    if ← mark? "..." then node .restType start [← rules .type]
    else
      let type ← rules .type
      if ← mark? "?" then node .optionalType start [type] else return type

def templateLiteralType (rules : Rules) : Parser Node := do
  let s ← get
  let parts ← many do
    let s ← get
    -- the text of the template starts right after the lexeme that ended the last part
    match Lexeme.splitTemplateText 0 s.after with
    | some (text, '$' :: '{' :: r) =>
      let pos := s.stop + (String.ofList text).utf8ByteSize
      set (s.moveTo r (pos + 2))
      let inner ← enclosed (rules .type)
      unless ← atMark "\x7d" do failure
      return some (⟨.templateTypeHole, .plain, pos, (← get).stop, "", [inner]⟩ : Node)
    | some (text, _ :: r) =>
      let pos := s.stop + (String.ofList text).utf8ByteSize
      set (s.moveTo r (pos + 1))
      return none
    | _ => failure
  node .templateType s.start parts

/-- A type without operators after it. -/
def plainType (rules : Rules) : Parser Node := do
  let start ← here
  match ← current with
  | .mark "(" =>
    advance
    let inner ← enclosed (rules .type)
    mark ")"
    node .parenthesizedType start [inner]
  | .mark "\x7b" => typeBody rules .objectType
  | .mark "[" =>
    advance
    let members ← enclosed (strictList "]" (tupleMember rules))
    node .tupleType start members
  | .mark "-" =>
    advance
    let n ← leaf .number
    let negative ← node .unary start [n.withRole .argument]
    node .literalType start [negative]
  | .backquote => templateLiteralType rules
  | .string _ => node .literalType start [← leaf .string]
  | .number _ => node .literalType start [← leaf .number]
  | .word w =>
    match w with
    | "true" => node .literalType start [← leaf .trueLiteral]
    | "false" => node .literalType start [← leaf .falseLiteral]
    | "null" => node .literalType start [← leaf .nullLiteral]
    | "undefined" => node .literalType start [← leaf .undefined]
    | "this" => leaf .thisType
    | "typeof" =>
      advance
      let subject ← typeQuerySubject rules
      let generic ← if ← atMark "<" then attempt (typeArguments rules) else pure none
      match generic with
      | some arguments =>
        let whole ← node .instantiation subject.start [subject, arguments]
        node .typeQuery start [whole]
      | none => node .typeQuery start [subject]
    | "import" =>
      let subject ← typeQuerySubject rules
      if ← atMark "<" then
        let arguments ← typeArguments rules
        node .genericType start [subject, arguments]
      else return subject
    | "unique" =>
      if (← following).1 == .word "symbol" then
        advance
        advance
        node .predefinedType start []
      else namedType rules
    | _ =>
      if predefinedTypes.contains w && !(← followingMark ".") then leaf .predefinedType
      else namedType rules
  | _ => failure

/-- A type with array brackets and index types after it, and the prefix operators that bind as
tightly. -/
def typeOperand (rules : Rules) : Parser Node := do
  let start ← here
  let prefixed (kind : Kind) : Parser Node := do
    advance
    node kind start [← rules .typeOperand]
  if (← atWord "keyof") && !(← followingMark ".") then prefixed .indexTypeQuery
  else if (← atWord "readonly") && !(← followingMark ".") then prefixed .readonlyType
  else if ← atWord "infer" then
    advance
    let name ← leaf .typeName
    let bound ← attempt do
      word "extends"
      let type ← rules .typeOperand
      if ← atMark "?" then failure
      return type
    node .inferType start ([name] ++ bound.toList)
  else
    let base ← plainType rules
    extendAll (fun n => do
      if (← atMark "[") && !(← stopped) then
        advance
        if ← mark? "]" then return some (← node .arrayType start [n])
        let index ← enclosed (rules .type)
        mark "]"
        return some (← node .lookupType start [n, index])
      return none) base

def boundedInfer (rules : Rules) : Parser Node := do
  let start ← here
  word "infer"
  let name ← leaf .typeName
  word "extends"
  node .inferType start [name, ← rules .typeOperand]

/-- Operands joined by one mark; a mark may also stand before the first. -/
def joinedTypes (joint : String) (kind : Kind) (operand : Parser Node) : Parser Node := do
  let start ← here
  let led ← mark? joint
  let first ← operand
  let first ← if led then node kind start [first] else pure first
  extendAll (fun n => do
    if ← mark? joint then return some (← node kind start [n, ← operand])
    return none) first

def constructorType (rules : Rules) (start : Nat) : Parser Node := do
  functionTypeRest rules .constructorType start (← signatureHead rules)

def type (rules : Rules) : Parser Node := do
  let start ← here
  if (← atWord "new") && ((← followingMark "(") || (← followingMark "<")) then
    advance
    constructorType rules start
  else if (← atWord "abstract") && (← following).1 == .word "new" then
    advance
    advance
    constructorType rules start
  else
    let operand : Parser Node := do
      match ← functionType? rules with
      | some n => return n
      | none => rules .typeOperand
    let left ← joinedTypes "|" .unionType (joinedTypes "&" .intersectionType operand)
    if (← atWord "extends") && !(← stopped) then
      let conditional (bound : Parser Node) : Parser Node := do
        advance
        let right ← bound
        mark "?"
        let yes ← enclosed (rules .type)
        mark ":"
        let no ← rules .type
        node .conditionalType start [left, right, yes, no]
      match ← attempt (conditional (enclosed (rules .type))) with
      | some n => return n
      | none => return (← attempt (conditional (enclosed (boundedInfer rules)))).getD left
    else return left

end ThemedCss.Syntax.Parser
