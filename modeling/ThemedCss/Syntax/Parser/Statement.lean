import ThemedCss.Syntax.Parser.Expression

/-! Statements, declarations, imports and exports. -/
namespace ThemedCss.Syntax.Parser

def declarator (rules : Rules) : Parser Node := ending false do
  let start ← here
  let name ← rules .binding
  let typed ← typed
  let _ ← if typed && !(← stopped) then mark? "!" else pure false
  let type ← if typed then typeAscription? rules else pure []
  let value ← ending true (initializer? rules)
  node .declarator start ([name.withRole .name] ++ type ++ value)

/-- Variables with commas between them, and the end of their statement. -/
def declarators (rules : Rules) : Parser (List Node) := do
  let items ← commaRun (declarator rules)
  semicolon (items.getLast?.any (·.children.any (·.role == .value)))
  return items

def declarationKind (word : String) : Kind :=
  if word == "var" then .variableDeclaration else .lexicalDeclaration

def variableStatement (rules : Rules) : Parser Node := do
  let start ← here
  let kind := declarationKind (← current).text
  advance
  let items ← declarators rules
  node kind start items

/-- Next comes a declaration of resources: the words that open it and a name. -/
def atUsing : Parser Bool := do
  let s ← get
  let next := fun (s : State) => s.moveTo s.after s.stop
  let s := if s.lexeme == .word "await" then next s else s
  if s.dialect.typed || s.lexeme != .word "using" then return false
  match (next s).lexeme with
  | .word w => return !(["in", "of", "instanceof"].contains w)
  | _ => return false

/-- A declaration of resources that are given back at the end of the block. -/
def usingStatement (rules : Rules) : Parser Node := do
  let start ← here
  let _ ← word? "await"
  word "using"
  let items ← declarators rules
  node .usingDeclaration start items

def expressionStatement (rules : Rules) : Parser Node := do
  let start ← here
  let inner ← inContext (fun _ => { ending := some true, opening := some start }) (expression rules)
  semicolon true
  node .expressionStatement start [inner]

def ifStatement (rules : Rules) : Parser Node := do
  let start ← here
  word "if"
  let condition ← parenthesized rules
  let yes ← rules .statement
  let otherwise ← here
  let no ← optional (word? "else") do
    node .elseClause otherwise [← rules .statement]
  node .ifStatement start ([condition, yes] ++ no)

def emptyStatement : Parser Node := do
  let start ← here
  mark ";"
  node .emptyStatement start []

/-- The head of a loop over members or keys, up to its closing parenthesis. A `var` may give its
variable a value. -/
def iteratingHead (rules : Rules) : Parser (List Node) := do
  let iterated : Parser Node := do
    unless (← word? "of") || (← word? "in") do failure
    let right ← enclosed (expression rules)
    mark ")"
    return right.withRole .right
  let declaring : Parser (List Node) := do
    let keyword ←
      match ← current with
      | .word "var" | .word "let" | .word "const" => leaf .bindingKeyword
      | _ => failure
    let left ← rules .binding
    let value ←
      if keyword.text == "var" then inContext (fun _ => { noIn := true }) (initializer? rules)
      else pure []
    return [keyword.withRole .binding, left.withRole .left] ++ value ++ [← iterated]
  let plain : Parser (List Node) := do
    let left ← inContext (fun _ => { noIn := true }) (rules .operand)
    match left.asLeft? with
    | some target => return [target.withRole .left, ← iterated]
    | none => failure
  orElse declaring plain

/-- The part of a counting loop before its first semicolon. -/
def countingHead (rules : Rules) : Parser (List Node) := do
  if ← atMark ";" then return [← emptyStatement]
  let declaring : Parser (List Node) := do
    match ← current with
    | .word "var" | .word "let" | .word "const" => return [← variableStatement rules]
    | _ => failure
  let plain : Parser (List Node) := do
    let first ← enclosed (expression rules)
    mark ";"
    return [first]
  orElse declaring plain

def forStatement (rules : Rules) : Parser Node := do
  let start ← here
  word "for"
  let _ ← word? "await"
  mark "("
  match ← guarded (iteratingHead rules) with
  | some head =>
    let body ← rules .statement
    node .forInStatement start (head ++ [body.withRole .body])
  | none =>
    let head ← countingHead rules
    let condition ←
      if ← atMark ";" then emptyStatement
      else
        let n ← enclosed (expression rules)
        mark ";"
        pure n
    let increment ← if ← atMark ")" then pure [] else pure [← enclosed (expression rules)]
    mark ")"
    let body ← rules .statement
    node .forStatement start (head ++ [condition] ++ increment ++ [body.withRole .body])

def switchStatement (rules : Rules) : Parser Node := do
  let start ← here
  word "switch"
  let subject ← parenthesized rules
  let bodyStart ← here
  mark "\x7b"
  let cases ← enclosed <| many do
    let start ← here
    let head ←
      if ← word? "case" then pure (some [← expression rules])
      else if ← word? "default" then pure (some [])
      else pure none
    match head with
    | none => return none
    | some value =>
      mark ":"
      let body ← many do
        if (← atWord "case") || (← atWord "default") || (← atMark "\x7d") then return none
        if let some n ← markupComment? then return some n
        return some (← rules .statement)
      return some (← node (if value.isEmpty then .switchDefault else .switchCase) start
        (value ++ body))
  mark "\x7d"
  let body ← node .switchBody bodyStart cases
  node .switchStatement start [subject, body.withRole .body]

def tryStatement (rules : Rules) : Parser Node := do
  let start ← here
  word "try"
  let body ← block rules
  let handler ← optional (atWord "catch") do
    let start ← here
    advance
    let parameter ←
      if ← mark? "(" then
        let name ← rules .binding
        let type ← if ← typed then enclosed (typeAscription? rules) else pure []
        mark ")"
        pure (name.withRole .parameter :: type)
      else pure []
    let body ← block rules
    node .catchClause start (parameter ++ [body.withRole .body])
  let finalizer ← optional (atWord "finally") do
    let start ← here
    advance
    node .finallyClause start [(← block rules).withRole .body]
  node .tryStatement start ([body.withRole .body] ++ handler ++ finalizer)

/-- `break` or `continue`, with an optional label. -/
def jump (kind : Kind) : Parser Node := do
  let start ← here
  advance
  let label ←
    match ← current with
    | .word _ => if ← endsHere false then pure [] else pure [← leaf .labelName]
    | _ => pure []
  semicolon false
  node kind start label

/-- `return` or `throw`, with the value that follows; only `return` can do without. -/
def leave (rules : Rules) (kind : Kind) : Parser Node := do
  let start ← here
  advance
  let more ← if kind == .returnStatement then goesOn else pure true
  let value ← if more then pure [← ending true (expression rules)] else pure []
  semicolon more
  node kind start value

/-- The name of an import or an export: a word, a string, or the word `default`. -/
def moduleName : Parser Node := do
  match ← current with
  | .string _ => leaf .string
  | .word "default" => leaf (if ← typed then .identifier else .defaultKeyword)
  | .word _ => leaf .identifier
  | _ => failure

/-- The word `type` before a name that is only a type. -/
def typeOnly? : Parser Unit := do
  if (← typed) && ((← atWord "type") || (← atWord "typeof")) then
    match (← following).1 with
    | .word "as" =>
      -- a name `type` given another name, unless that name is itself `as`
      let s ← get
      let s := s.moveTo s.after s.stop
      let s := s.moveTo s.after s.stop
      match s.lexeme with
      | .word "as" => advance
      | _ => pure ()
    | .word _ | .string _ => advance
    | _ => pure ()

def moduleSpecifier (kind : Kind) : Parser Node := do
  typeOnly?
  let start ← here
  let name ← moduleName
  let other ← optional (word? "as") moduleName
  node kind start ([name.withRole .name] ++ other.map (·.withRole .newName))

def specifiers (list item : Kind) : Parser Node := do
  let start ← here
  mark "\x7b"
  let items ← strictList "\x7d" (moduleSpecifier item)
  node list start items

def sourceString : Parser Node := do
  match ← current with
  | .string _ => return (← leaf .string).withRole .source
  | _ => failure

def importAttribute? (rules : Rules) : Parser (List Node) := do
  if ((← atWord "with") || (← atWord "assert")) && !(← endsHere false) then
    let start ← here
    advance
    return [← node .importAttribute start [← object rules]]
  return []

def dottedName : Parser Node := do
  let start ← here
  let first ← identifier
  let parts ← many do
    if ← mark? "." then
      let part ← leaf .propertyName
      return some (part, ← last)
    return none
  return parts.zipIdx.foldl (fun (n : Node) ((part, stop), i) =>
    let kind := if i + 1 == parts.length then Kind.qualifiedName else Kind.member
    ⟨kind, .plain, start, stop, "", [n.withRole .object, part.withRole .property]⟩) first

/-- `import a = b.c`, from the name on. -/
def importAlias (start : Nat) : Parser Node := do
  let name ← identifier
  mark "="
  let target ← dottedName
  semicolon false
  node .importAlias start [name, target]

def importClause : Parser Node := do
  let start ← here
  let clause : Parser Node := do
    if ← atMark "*" then
      let start ← here
      advance
      word "as"
      node .namespaceImport start [← leaf .identifier]
    else specifiers .namedImports .importSpecifier
  if (← atMark "*") || (← atMark "\x7b") then node .importClause start [← clause]
  else
    let name ← leaf .identifier
    let more ← optional (mark? ",") clause
    node .importClause start (name :: more)

def importStatement (rules : Rules) : Parser Node := do
  let start ← here
  word "import"
  if (← typed) && ((← atWord "type") || (← atWord "typeof")) then
    match (← following).1 with
    | .word "from" | .mark "," | .mark "=" => pure ()
    | _ => advance
  match ← current with
  | .string _ =>
    let source ← sourceString
    let attributes ← importAttribute? rules
    semicolon false
    node .importStatement start (source :: attributes)
  | _ =>
    if (← typed) && (← followingMark "=") then
      let required ← attempt do
        let clause ← here
        let name ← identifier
        mark "="
        word "require"
        mark "("
        let source ← sourceString
        mark ")"
        node .importRequire clause [name, source]
      match required with
      | some clause =>
        semicolon false
        node .importStatement start [clause]
      | none => importAlias start
    else
      let clause ← importClause
      word "from"
      let source ← sourceString
      let attributes ← importAttribute? rules
      semicolon false
      node .importStatement start ([clause, source] ++ attributes)

def interfaceDeclaration (rules : Rules) : Parser Node := do
  let start ← here
  word "interface"
  let name ← leaf .typeName
  let generics ← typeParameters? rules
  let parents ← enclosed <| optional (atWord "extends") do
    let start ← here
    advance
    node .extendsTypes start (← commaRun (namedType rules))
  let body ← typeBody rules .interfaceBody
  node .interfaceDeclaration start
    ([name.withRole .name] ++ generics ++ parents ++ [body.withRole .body])

def typeAlias (rules : Rules) : Parser Node := do
  let start ← here
  word "type"
  let name ← leaf .typeName
  let generics ← typeParameters? rules
  mark "="
  let value ← ending false (rules .type)
  semicolon false
  node .typeAlias start ([name.withRole .name] ++ generics ++ [value.withRole .value])

def enumDeclaration (rules : Rules) : Parser Node := do
  let start ← here
  let _ ← word? "const"
  word "enum"
  let name ← leaf .identifier
  let bodyStart ← here
  mark "\x7b"
  let members ← enclosed <| strictList "\x7d" do
    let start ← here
    let name ← propertyName rules
    let value ← initializer? rules
    if value.isEmpty then return name.withRole .name
    else node .enumMember start (name.withRole .name :: value)
  let body ← node .enumBody bodyStart members
  node .enumDeclaration start [name.withRole .name, body.withRole .body]

def namespaceDeclaration (rules : Rules) (kind : Kind) : Parser Node := do
  let start ← here
  advance
  let name ←
    match ← current with
    | .string _ => leaf .string
    | _ => dottedName
  let body ← optional (atMark "\x7b") (block rules)
  if body.isEmpty then semicolon false
  node kind start ([name.withRole .name] ++ body.map (·.withRole .body))

def ambientDeclaration (rules : Rules) : Parser Node := do
  let start ← here
  word "declare"
  if (← atWord "global") && (← followingMark "\x7b") then
    advance
    node .ambientDeclaration start [← block rules]
  else node .ambientDeclaration start [← rules .statement]

/-- A declaration only typed modules have, if one starts here. -/
def typedDeclaration? (rules : Rules) : Parser (Option Node) := do
  let (next, _) ← following
  let ends ← endsAfter true
  let named :=
    match next with
    | .word w => !ends && !(["in", "instanceof", "as", "satisfies"].contains w)
    | _ => false
  match ← current with
  | .word "interface" =>
    match next with
    | .word _ => some <$> interfaceDeclaration rules
    | _ => return none
  | .word "type" => if named then some <$> typeAlias rules else return none
  | .word "enum" => some <$> enumDeclaration rules
  | .word "const" => if next == .word "enum" then some <$> enumDeclaration rules else return none
  | .word "declare" => if named then some <$> ambientDeclaration rules else return none
  | .word "namespace" =>
    if named then some <$> namespaceDeclaration rules .namespaceDeclaration else return none
  | .word "module" =>
    match next with
    | .string _ =>
      if ends then return none else some <$> namespaceDeclaration rules .moduleDeclaration
    | _ => if named then some <$> namespaceDeclaration rules .moduleDeclaration else return none
  | .word "abstract" =>
    if next == .word "class" then
      let start ← here
      advance
      advance
      some <$> classRest rules .abstractClassDeclaration start []
    else return none
  | _ => return none

/-- Next comes a function or a class with a name of its own. -/
def atNamedDefinition : Parser Bool := do
  let s ← get
  let next := fun (s : State) => s.moveTo s.after s.stop
  let named := fun (s : State) =>
    match s.lexeme with
    | .word w => !(["extends", "implements"].contains w)
    | .mark "*" =>
      match (next s).lexeme with
      | .word _ => true
      | _ => false
    | _ => false
  match s.lexeme with
  | .word "function" | .word "class" => return named (next s)
  | .word "async" =>
    let s' := next s
    return s'.lexeme == .word "function" && named (next s') && !(← endsAfter true)
  | _ => return false

def definition (rules : Rules) (marks : List Node) : Parser Node := do
  let start := (marks.head?.map (·.start)).getD (← here)
  let _ ← word? "async"
  if ← word? "class" then classRest rules .classDeclaration start marks
  else
    word "function"
    functionRest rules start false

def defaultExport (rules : Rules) : Parser (List Node) := do
  if ← atNamedDefinition then return [(← definition rules []).withRole .declaration]
  if ← atMark "@" then
    let decorated ← attempt do
      let marks ← decorators rules
      unless ← atNamedDefinition do failure
      definition rules marks
    if let some n := decorated then return [n.withRole .declaration]
  let declaration ←
    if (← typed) && ((← atWord "abstract") || (← atWord "interface")) then typedDeclaration? rules
    else pure none
  match declaration with
  | some n => return [n.withRole .declaration]
  | none =>
    let value ← ending true (rules .assignment)
    semicolon true
    return [value.withRole .value]

def fromClause? : Parser (List Node) := do
  if (← atWord "from") && !(← endsHere false) then
    advance
    return [← sourceString]
  return []

def exportStatement (rules : Rules) (marks : List Node) : Parser Node := do
  let start := (marks.head?.map (·.start)).getD (← here)
  word "export"
  let finish (children : List Node) : Parser Node := node .exportStatement start (marks ++ children)
  if ← atWord "default" then
    let keyword ← leaf .defaultKeyword
    finish (keyword :: (← defaultExport rules))
  else if ← atMark "*" then
    let star ← here
    advance
    let named ← optional (word? "as") do
      node .namespaceExport star [← moduleName]
    word "from"
    let source ← sourceString
    let _ ← importAttribute? rules
    semicolon false
    finish (named ++ [source])
  else if ← atMark "\x7b" then
    let clause ← specifiers .exportClause .exportSpecifier
    let source ← fromClause?
    let _ ← importAttribute? rules
    semicolon false
    finish (clause :: source)
  else if ← atMark "=" then
    advance
    let value ← ending true (rules .assignment)
    semicolon true
    finish [value]
  else if (← typed) && (← atWord "type") && (← followingMark "\x7b") then
    advance
    let clause ← specifiers .exportClause .exportSpecifier
    let source ← fromClause?
    semicolon false
    finish (clause :: source)
  else if (← typed) && (← atWord "as") then
    advance
    word "namespace"
    let name ← identifier
    semicolon false
    finish [name]
  else if (← typed) && (← atWord "import") then
    let inner ← here
    advance
    finish [← importAlias inner]
  else
    let declaration ← rules .statement
    finish [declaration.withRole .declaration]

def wordStatement (rules : Rules) (w : String) : Parser Node := do
  let start ← here
  let (next, _) ← following
  match w with
  | "var" | "const" => variableStatement rules
  | "let" =>
    match next with
    | .word v =>
      if ["in", "instanceof"].contains v || (← endsAfter true) then expressionStatement rules
      else variableStatement rules
    | .mark "[" => variableStatement rules
    | .mark "\x7b" =>
      if ← endsAfter true then expressionStatement rules else variableStatement rules
    | _ => expressionStatement rules
  | "if" => ifStatement rules
  | "for" => forStatement rules
  | "while" =>
    advance
    let condition ← parenthesized rules
    let body ← rules .statement
    node .whileStatement start [condition, body.withRole .body]
  | "do" =>
    advance
    let body ← rules .statement
    word "while"
    let condition ← parenthesized rules
    let _ ← mark? ";"
    node .doStatement start [body.withRole .body, condition]
  | "with" =>
    advance
    let subject ← parenthesized rules
    let body ← rules .statement
    node .withStatement start [subject, body.withRole .body]
  | "switch" => switchStatement rules
  | "try" => tryStatement rules
  | "break" => jump .breakStatement
  | "continue" => jump .continueStatement
  | "return" => leave rules .returnStatement
  | "throw" => leave rules .throwStatement
  | "debugger" =>
    advance
    semicolon false
    node .debuggerStatement start []
  | "import" =>
    match next with
    | .mark "(" | .mark "." => expressionStatement rules
    | _ => importStatement rules
  | "export" => if ← endsAfter true then expressionStatement rules else exportStatement rules []
  | _ =>
    if ← atNamedDefinition then definition rules []
    else if ← atUsing then usingStatement rules
    else if next == .mark ":" && !(reserved.contains w) then
      let label ← leaf .labelName
      advance
      let body ← rules .statement
      node .labeledStatement start [label, body.withRole .body]
    else expressionStatement rules

def statement (rules : Rules) : Parser Node := do
  match ← current with
  | .mark "\x7b" => block rules
  | .mark ";" => emptyStatement
  | .mark "@" =>
    let marks ← decorators rules
    if ← atWord "export" then exportStatement rules marks
    else if (← typed) && (← atWord "abstract") then
      let start ← here
      advance
      word "class"
      classRest rules .abstractClassDeclaration ((marks.head?.map (·.start)).getD start) marks
    else definition rules marks
  | .word w =>
    if ← typed then
      match ← typedDeclaration? rules with
      | some n => return n
      | none => wordStatement rules w
    else wordStatement rules w
  | _ => expressionStatement rules

end ThemedCss.Syntax.Parser
