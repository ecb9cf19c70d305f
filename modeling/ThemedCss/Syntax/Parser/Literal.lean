import ThemedCss.Syntax.Parser.Types

/-! Blocks, templates, object and array literals, class bodies and element literals. -/
namespace ThemedCss.Syntax.Parser

/-- Statements up to the end of the input or a closing brace. While recovering, a faulty one becomes
an error node. -/
def statements (rules : Rules) : Parser (List Node) :=
  many do
    match ← current with
    | .endOfInput => return none
    | .mark "\x7d" => return none
    | _ =>
      if let some n ← markupComment? then return some n
      if (← get).recovering then
        match ← guarded (rules .statement) with
        | some n => return some n
        | none =>
          let start ← here
          advance
          return some (← skipFault start)
      else return some (← rules .statement)

def block (rules : Rules) : Parser Node := do
  let start ← here
  mark "\x7b"
  let body ← enclosed (statements rules)
  mark "\x7d"
  node .block start body

def expression (rules : Rules) : Parser Node := do
  let first ← rules .assignment
  if ← atMark "," then
    let rest ← many do
      if ← mark? "," then return some (← rules .assignment)
      return none
    node .sequence first.start (first :: rest)
  else return first

/-- The substitution that opens at the current position of the text of a template. -/
def substitution (rules : Rules) (start : Nat) : Parser Node := do
  let body : Parser Node := do
    mark "\x7b"
    let inner ← enclosed (expression rules)
    unless ← atMark "\x7d" do failure
    return ⟨.substitution, .plain, start, (← get).stop, "", [inner]⟩
  if (← get).recovering then
    match ← guarded body with
    | some n => return n
    | none =>
      let s ← get
      match Lexeme.afterClosing '{' [.closer '}'] (s.here.drop 1) with
      | some rest =>
        -- stop on the closing brace itself, as the ordinary rule does
        let skipped := s.here.take (s.here.length - rest.length - 1)
        let pos := s.start + (String.ofList skipped).utf8ByteSize
        set (s.moveTo ('}' :: rest) pos)
        return ⟨.substitution, .plain, start, pos + 1, "",
          [⟨.error, .plain, start, pos + 1, "", []⟩]⟩
      | none => failure
  else body

def template (rules : Rules) : Parser Node := do
  let opening ← get
  let parts ← many do
    let s ← get
    match Lexeme.splitTemplateText 0 s.after with
    | some (text, '$' :: r) =>
      let pos := s.stop + (String.ofList text).utf8ByteSize
      set (s.moveTo r (pos + 1))
      return some (← substitution rules pos)
    | some (text, _ :: r) =>
      set (s.moveTo r (s.stop + (String.ofList text).utf8ByteSize + 1))
      return none
    | _ => failure
  node .template opening.start parts

def array (rules : Rules) : Parser Node := do
  let start ← here
  mark "["
  let items ← enclosed (commaList "]" (spreadable rules))
  node .array start items

/-- Parameters and body of a method whose name has been read. -/
def methodRest (rules : Rules) (start : Nat) (head : List Node) (name : Node) : Parser Node := do
  let signature ← callSignature rules
  let body ← block rules
  node .method start (head ++ [name.withRole .name] ++ signature ++ [body.withRole .body])

/-- One entry of an object literal. A shorthand with a default is only good in a pattern. -/
def objectEntry (rules : Rules) : Parser Node := do
  let start ← here
  if ← mark? "..." then node .spread start [← rules .assignment]
  else
    let quals ← modifiers ["async", "get", "set"]
    let generator ← mark? "*"
    if quals.isEmpty && !generator && (← atName) then
      match (← following).1 with
      | .mark "," | .mark "\x7d" => return ← leaf .shorthand
      | .mark "=" =>
        let name ← leaf .shorthandPattern
        advance
        let value ← rules .assignment
        return ← node .shorthandDefault start [name.withRole .left, value.withRole .right]
      | _ => pure ()
    let key ← propertyName rules
    if (← atMark "(") || (← atMark "<") then methodRest rules start [] key
    else
      mark ":"
      let value ← rules .assignment
      node .pair start [key.withRole .key, value.withRole .value]

def object (rules : Rules) : Parser Node := do
  let start ← here
  mark "\x7b"
  let entries ← enclosed (commaList "\x7d" (objectEntry rules))
  node .object start entries

def memberWords : List String :=
  ["static", "async", "get", "set", "accessor"]

def typedMemberWords : List String :=
  ["public", "private", "protected", "override", "readonly", "abstract", "declare"] ++ memberWords

def classMember (rules : Rules) (start : Nat) (marks : List Node) : Parser Node := do
  if (← atWord "static") && (← followingMark "\x7b") && !(← stopsAfter) then
    advance
    let body ← block rules
    node .staticBlock start [body.withRole .body]
  else
    let typed ← typed
    let words := if typed then typedMemberWords else memberWords
    let isAbstract ← atWord "abstract"
    let quals ← modifiers words
    let quals :=
      if typed then
        quals.filter fun n => ["public", "private", "protected", "override"].contains n.text
      else []
    if typed && (← atMark "[") then
      if let some n ← attempt (typeMember.indexSignature rules start quals) then
        semicolon false
        return n
    let _ ← mark? "*"
    let name ← propertyName rules
    let _ ← if typed then mark? "?" else pure false
    let _ ← if typed && !(← stopped) then mark? "!" else pure false
    if !(← stopped) && ((← atMark "(") || (typed && (← atMark "<"))) then
      let signature ← callSignature rules
      if ← atMark "\x7b" then
        let body ← block rules
        let n ← node .method start
          (marks ++ quals ++ [name.withRole .name] ++ signature ++ [body.withRole .body])
        let _ ← mark? ";"
        return n
      else if typed then
        let kind := if isAbstract then Kind.abstractMethodSignature else Kind.methodSignature
        let n ← node kind start (marks ++ quals ++ [name.withRole .name] ++ signature)
        unless ← mark? "," do semicolon false
        return n
      else failure
    else
      let type ← if typed then typeAscription? rules else pure []
      let value ← ending true (initializer? rules)
      let n ← node .field start (marks ++ quals ++ [name.withRole .name] ++ type ++ value)
      unless ← mark? "," do semicolon !value.isEmpty
      return n

def classBody (rules : Rules) : Parser Node := do
  let start ← here
  mark "\x7b"
  let members ← ending false <| many do
    if ← mark? ";" then return some []
    if let some n ← markupComment? then return some [n]
    if ← atMark "\x7d" then return none
    let start ← here
    let marks ← decorators rules
    if (← typed) && !marks.isEmpty then
      let inner ← here
      let member ← classMember rules inner []
      -- a decorated field keeps its decorators, a decorated method has them beside it
      if member.kind == .field then
        return some [{ member with start, children := marks ++ member.children }]
      else return some (marks ++ [member])
    return some [← classMember rules start marks]
  mark "\x7d"
  node .classBody start members.flatten

def classHeritage (rules : Rules) : Parser (List Node) := do
  let start ← here
  if ← typed then
    let parents ← optional (atWord "extends") do
      let clause ← here
      advance
      let items ← commaRun (rules .operand)
      let generic ← if ← atMark "<" then pure [← typeArguments rules] else pure []
      node .extendsClause clause (items.map (·.withRole .value) ++ generic)
    let interfaces ← optional (atWord "implements") do
      let clause ← here
      advance
      node .implementsClause clause (← commaRun (rules .type))
    if parents.isEmpty && interfaces.isEmpty then return []
    return [← node .classHeritage start (parents ++ interfaces)]
  else if ← word? "extends" then return [← node .classHeritage start [← rules .assignment]]
  else return []

/-- Name, heritage and body of a class, after the word that opens it. -/
def classRest (rules : Rules) (kind : Kind) (start : Nat) (marks : List Node) : Parser Node := do
  let typed ← typed
  let name ←
    match ← current with
    | .word w =>
      if w == "extends" || (w == "implements" && (← following).1 != .mark "\x7b") then pure []
      else pure [← leaf (if typed then .typeName else .identifier)]
    | _ => pure []
  let generics ← if typed then typeParameters? rules else pure []
  let heritage ← enclosed (classHeritage rules)
  let body ← classBody rules
  node kind start (marks ++ name.map (·.withRole .name) ++ generics ++ heritage ++
    [body.withRole .body])

/-- Name, signature and body of a function, after the word that opens it. A nameless one is an
expression. -/
def functionRest (rules : Rules) (start : Nat) (asExpression : Bool) : Parser Node := do
  let generator ← mark? "*"
  let name ← optional (do
    match ← current with
    | .word _ => return true
    | _ => return false) (leaf .identifier)
  let signature ← if asExpression then enclosed (callSignature rules)
    else ending false (callSignature rules)
  let head := name.map (·.withRole .name) ++ signature
  if (← typed) && !asExpression && !(← atMark "\x7b") then
    semicolon false
    node .functionSignature start head
  else
    let body ← block rules
    let kind :=
      match asExpression || name.isEmpty, generator with
      | true, false => Kind.functionExpression
      | true, true => Kind.generatorExpression
      | false, false => Kind.functionDeclaration
      | false, true => Kind.generatorDeclaration
    node kind start (head ++ [body.withRole .body])

/-- A name in markup: letters, digits and dashes. -/
def markupWord (kind : Kind) : Parser Node := do
  let s ← get
  match s.lexeme with
  | .word _ =>
    let (text, rest) := Lexeme.splitRun (fun c => Lexeme.isWordPart c || c == '-') s.here
    let text := String.ofList text
    let stop := s.start + text.utf8ByteSize
    set (s.moveTo rest stop)
    return ⟨kind, .plain, s.start, stop, text, []⟩
  | _ => failure

/-- The name of an element: a word, a member access, or a word with a namespace. -/
def elementName : Parser Node := do
  let start ← here
  let first ← markupWord .identifier
  if ← mark? ":" then node .jsxNamespace start [first, ← markupWord .identifier]
  else
    extendAll (fun n => do
      if ← mark? "." then
        let property ← markupWord .propertyName
        return some (← node .member start [n.withRole .object, property.withRole .property])
      return none) first

/-- An expression in braces, which may be empty or spread. -/
def markupExpression (rules : Rules) : Parser Node := do
  let start ← here
  mark "\x7b"
  let inner ← enclosed do
    if ← atMark "\x7d" then pure []
    else if ← atMark "..." then pure [← spreadable rules]
    else pure [← expression rules]
  mark "\x7d"
  node .jsxExpression start inner

def markupAttribute (rules : Rules) : Parser Node := do
  let start ← here
  if ← atMark "\x7b" then markupExpression rules
  else
    let name ← markupWord .propertyName
    let name ←
      if ← mark? ":" then
        node .jsxNamespace start [{ name with kind := .identifier }, ← markupWord .identifier]
      else pure name
    if ← mark? "=" then
      let s ← get
      let value ←
        match s.here with
        | c :: r =>
          if c == '"' || c == '\'' then
            match Lexeme.splitMarkupString c 0 r with
            | some (body, rest) =>
              let text := String.ofList (c :: body)
              let stop := s.start + text.utf8ByteSize
              set (s.moveTo rest stop)
              pure (⟨.string, .plain, s.start, stop, text, []⟩ : Node)
            | none => failure
          else if c == '{' then markupExpression rules
          else rules .element
        | [] => failure
      node .jsxAttribute start [name, value]
    else node .jsxAttribute start [name]

/-- Take one angle bracket off what remains. -/
def angle (c : Char) : Parser Unit := do
  let s ← get
  match s.here with
  | d :: rest => if d == c then set (s.moveTo rest (s.start + 1)) else failure
  | [] => failure

/-- What stands between the tags of an element. -/
def markupChildren (rules : Rules) : Parser (List Node) :=
  many do
    let s ← get
    match s.tail with
    | '<' :: '/' :: _ => return none
    | '<' :: _ =>
      set (s.moveTo s.tail s.last)
      return some (← rules .element)
    | '{' :: _ =>
      set (s.moveTo s.tail s.last)
      return some (← markupExpression rules)
    | '&' :: cs =>
      match Lexeme.referenceLength? cs with
      | some n =>
        set (s.moveTo (cs.drop n) (s.last + 1 + n))
        return some ⟨.jsxText, .plain, s.last, s.last + 1 + n, String.ofList ('&' :: cs.take n), []⟩
      | none => failure
    | '>' :: _ | '}' :: _ | [] => failure
    | cs =>
      let (text, rest) := Lexeme.splitRun (fun c => !"<>\x7b\x7d&".toList.contains c) cs
      let text := String.ofList text
      let stop := s.last + text.utf8ByteSize
      set (s.moveTo rest stop)
      return some ⟨.jsxText, .plain, s.last, stop, text, []⟩

def element (rules : Rules) : Parser Node := enclosed do
  let start ← here
  angle '<'
  let nameless := (← get).here.head? == some '>'
  let name ← if nameless then pure [] else pure [(← elementName).withRole .name]
  let generic ← if (← typed) && (← atMark "<") then pure [← typeArguments rules] else pure []
  let attributes ← if nameless then pure [] else many do
    match (← get).here.head? with
    | some '>' | some '/' | none => return none
    | _ => return some (← markupAttribute rules)
  if (← get).here.head? == some '/' then
    angle '/'
    angle '>'
    node .jsxSelfClosing start (name ++ generic ++ attributes)
  else
    angle '>'
    let opening ← node .jsxOpening start (name ++ generic ++ attributes)
    let children ← markupChildren rules
    let s ← get
    let closingStart := s.last
    set (s.moveTo (s.tail.drop 2) (s.last + 2))
    let closingName ←
      if (← get).here.head? == some '>' then pure [] else pure [(← elementName).withRole .name]
    angle '>'
    let closing ← node .jsxClosing closingStart closingName
    node .jsxElement start ([opening] ++ children ++ [closing])

end ThemedCss.Syntax.Parser
