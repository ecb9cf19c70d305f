import ThemedCss.Syntax.Parser.Literal

/-! Expressions. -/
namespace ThemedCss.Syntax

namespace Node

mutual
/-- The pattern that an expression spells when it stands left of an equals sign, if it can stand
there. -/
def asTarget? : Node → Option Node
  | ⟨kind, role, start, stop, text, children⟩ =>
    match kind with
    | .identifier | .undefined | .member | .subscript | .nonNull | .shorthandDefault |
        .markupComment | .error =>
      some ⟨kind, role, start, stop, text, children⟩
    | .object => (asTargets? children).map (⟨.objectPattern, role, start, stop, text, ·⟩)
    | .array => (asTargets? children).map (⟨.arrayPattern, role, start, stop, text, ·⟩)
    | .spread => (asTargets? children).map (⟨.restPattern, role, start, stop, text, ·⟩)
    | .pair => (valueAsTarget? children).map (⟨.pairPattern, role, start, stop, text, ·⟩)
    | .assignment =>
      -- the left side is a pattern already, or it stands in parentheses
      if children.any fun n => n.role = .left && n.kind = .parenthesized then none
      else some ⟨.assignmentPattern, role, start, stop, text, children⟩
    | .shorthand => some ⟨.shorthandPattern, role, start, stop, text, children⟩
    | _ => none

def asTargets? : List Node → Option (List Node)
  | [] => some []
  | n :: ns => do return (← n.asTarget?) :: (← asTargets? ns)

def valueAsTarget? : List Node → Option (List Node)
  | [] => some []
  | n :: ns => do
      return (← if n.role = .value then n.asTarget? else some n) :: (← valueAsTarget? ns)
end

/-- What may stand left of an equals sign: a pattern, or anything in parentheses. -/
def asLeft? (n : Node) : Option Node :=
  if n.kind = .parenthesized then some n else n.asTarget?

/-- What an operation with an equals sign can change. -/
def isChangeable (n : Node) : Bool :=
  match n.kind with
  | .identifier | .undefined | .member | .subscript | .nonNull | .parenthesized => true
  | _ => false

end Node

namespace Parser

def regex : Parser Node := do
  let s ← get
  match Lexeme.splitRegex false (s.here.drop 1) with
  | some (body, rest) =>
    let (flags, rest) := Lexeme.splitRun Char.isLower rest
    let text := String.ofList ('/' :: body ++ flags)
    let stop := s.start + text.utf8ByteSize
    set (s.moveTo rest stop)
    return ⟨.regex, .plain, s.start, stop, text, []⟩
  | none => failure

/-- The lexeme after the bracket that closes the current one. -/
def afterBracket (closing : Char) : Parser (Option State) := do
  let s ← get
  match Lexeme.afterClosing '(' [.closer closing] (s.here.drop 1) with
  | some rest => return some (s.moveTo rest 0)
  | none => return none

def parenthesized (rules : Rules) : Parser Node := do
  let start ← here
  mark "("
  let inner ← enclosed do
    let inner ← expression rules
    return inner :: (← if ← typed then typeAscription? rules else pure [])
  mark ")"
  node .parenthesized start inner

/-- One step of a member access, index or call on `base`. Calls are left out in the operand of
`new`. -/
def suffix (rules : Rules) (calls : Bool) (start : Nat) (base : Node) : Parser (Option Node) := do
  let property : Parser Node := do
    let name ←
      match ← current with
      | .privateWord _ => leaf .privateName
      | .word _ => leaf .propertyName
      | _ => failure
    node .member start [base.withRole .object, name.withRole .property]
  let index : Parser Node := do
    mark "["
    let inner ← enclosed (expression rules)
    mark "]"
    node .subscript start [base.withRole .object, inner]
  let call (generic : List Node) : Parser Node := do
    let arguments ← argumentList rules
    node .call start ([base.withRole .callee] ++ generic ++ [arguments.withRole .arguments])
  if ← stopped then return none
  match ← current with
  | .mark "." =>
    advance
    some <$> property
  | .mark "?." =>
    advance
    if ← atMark "(" then some <$> call []
    else if ← atMark "[" then some <$> index
    else if (← typed) && (← atMark "<") then
      let generic ← typeArguments rules
      some <$> call [generic]
    else some <$> property
  | .mark "[" => some <$> index
  | .mark "(" => if calls then some <$> call [] else return none
  | .backquote =>
    let text ← template rules
    some <$> node .call start [base.withRole .callee, text.withRole .arguments]
  | .mark "!" =>
    if ← typed then
      advance
      some <$> node .nonNull start [base]
    else return none
  | .mark m =>
    if calls && (← typed) && (m == "<" || m == "<<") then
      attempt do
        let generic ← typeArguments rules
        if ← atMark "(" then call [generic]
        else
          match ← current with
          | .endOfInput => node .instantiation start [base, generic]
          | .mark m =>
            if [")", "]", "\x7d", ",", ";", ":", "?", ".", "==", "===", "!=", "!==", "&&", "||",
              "??"].contains m then
              node .instantiation start [base, generic]
            else failure
          | _ => if ← lineBroken then node .instantiation start [base, generic] else failure
    else return none
  | _ => return none

/-- Literals, names and everything that opens with its own word or bracket. -/
def primary (rules : Rules) : Parser Node := do
  let start ← here
  match ← current with
  | .number _ => leaf .number
  | .string _ => leaf .string
  | .backquote => template rules
  | .privateWord _ => leaf .privateName
  | .mark "(" => parenthesized rules
  | .mark "[" => array rules
  | .mark "\x7b" => object rules
  | .mark "/" | .mark "/=" => regex
  | .mark "<" => if (← get).dialect.markup then rules .element else failure
  | .mark "@" =>
    let marks ← decorators rules
    word "class"
    classRest rules .classExpression start marks
  | .word w =>
    match w with
    | "this" => leaf .this
    | "super" => leaf .super
    | "null" => leaf .nullLiteral
    | "true" => leaf .trueLiteral
    | "false" => leaf .falseLiteral
    | "undefined" => leaf .undefined
    | "function" =>
      advance
      functionRest rules start true
    | "class" =>
      advance
      classRest rules .classExpression start []
    | "import" =>
      if ← followingMark "." then
        advance
        advance
        advance
        node .metaProperty start []
      else leaf .importCallee
    | "async" =>
      if (← following).1 == .word "function" && !(← stopsAfter) then
        advance
        advance
        functionRest rules start true
      else leaf .identifier
    | "export" => leaf .identifier
    | _ => identifier
  | _ => failure

/-- A call of a constructor, with or without arguments. -/
def newExpression (rules : Rules) : Parser Node := do
  let start ← here
  word "new"
  if ← mark? "." then
    advance
    node .metaProperty start []
  else
    let base ← here
    let constructor ←
      if ← atWord "new" then rules .operand
      else extendAll (suffix rules false base) (← primary rules)
    let generic ←
      if (← typed) && (← atMark "<") then
        pure (← attempt (typeArguments rules)).toList
      else pure []
    let arguments ← optional (atMark "(") (argumentList rules)
    node .new start ([constructor] ++ generic ++ arguments.map (·.withRole .arguments))

def arrowBody (rules : Rules) (start : Nat) (head : List Node) : Parser Node := do
  mark "=>"
  let body ← if ← atMark "\x7b" then block rules else rules .assignment
  node .arrowFunction start (head ++ [body.withRole .body])

/-- The parameters of an arrow function in parentheses, if an arrow follows them. -/
def arrowHead? (rules : Rules) : Parser (Option (List Node)) := do
  let s ← get
  if (← atMark "(") || (s.dialect.typed && (← atMark "<")) then
    let signature := if s.context.plainArrows then signatureHead rules else callSignature rules
    match ← attempt (enclosed do
      let head ← signature
      unless ← atMark "=>" do failure
      return head) with
    | some head => return some head
    | none =>
      -- faulty parameters: the mark after the closing parenthesis tells
      if s.recovering && ((← afterBracket ')').map (·.lexeme)) == some (.mark "=>") then
        guarded (enclosed signature)
      else return none
  else return none

def arrow? (rules : Rules) : Parser (Option Node) := do
  let start ← here
  let state ← get
  match ← current with
  | .mark _ =>
    match ← arrowHead? rules with
    | some head => some <$> arrowBody rules start head
    | none => return none
  | .word w =>
    if reserved.contains w then return none
    else if ← followingMark "=>" then
      let name ← leaf .identifier
      some <$> arrowBody rules start [name.withRole .parameter]
    else if w == "async" && !(← stopsAfter) then
      advance
      match ← current with
      | .word v =>
        if !reserved.contains v && (← followingMark "=>") then
          let name ← leaf .identifier
          return ← some <$> arrowBody rules start [name.withRole .parameter]
      | .mark _ =>
        if let some head ← arrowHead? rules then return ← some <$> arrowBody rules start head
      | _ => pure ()
      set state
      return none
    else return none
  | _ => return none

/-- The word `await` opens an operand. In the plain dialect it is a name where nothing it could
apply to follows, and, at the start of a statement, also where something follows that could apply to
it. -/
def atAwait : Parser Bool := do
  let s ← get
  if s.lexeme != .word "await" then return false
  if s.dialect.typed then return true
  if ← stopsAfter then return false
  let opens := s.context.opening == some s.start
  match (← following).1 with
  | .endOfInput | .stray => return false
  | .backquote => return !opens
  | .mark m =>
    return ["\x7b", "!", "~", "@"].contains m ||
      (!opens && ["(", "[", "+", "-", "/", "/=", "<", "++", "--"].contains m)
  | .word w => return !(["in", "of", "instanceof"].contains w)
  | _ => return true

def augmentedMarks : List String :=
  ["+=", "-=", "*=", "/=", "%=", "**=", "<<=", ">>=", ">>>=", "&=", "|=", "^=", "&&=", "||=", "??="]

/-- A target with the value it is given, or `n` itself if no value follows. -/
def assigned (rules : Rules) (n : Node) : Parser Node := do
  match ← current with
  | .mark "=" =>
    match n.asLeft? with
    | some left =>
      advance
      let right ← rules .assignment
      node .assignment n.start [left.withRole .left, right.withRole .right]
    | none => return n
  | .mark m =>
    if augmentedMarks.contains m && n.isChangeable then
      advance
      let right ← rules .assignment
      node .augmentedAssignment n.start [n.withRole .left, right.withRole .right]
    else return n
  | _ => return n

/-- One more step on `base`, or a change of it by one. -/
def extension (rules : Rules) (start : Nat) (base : Node) : Parser (Option Node) := do
  match ← suffix rules true start base with
  | some n => return some n
  | none =>
    if ((← atMark "++") || (← atMark "--")) && !(← stopped) then
      advance
      some <$> node .update start [base.withRole .argument]
    else return none

/-- In typed modules the word `using` may open an assignment. -/
def usingAssignment? (rules : Rules) : Parser (Option Node) := do
  let start ← here
  match (← following).1 with
  | .word _ =>
    if (← typed) && (← atWord "using") then
      attempt do
        advance
        let n ← rules .operand
        unless n.kind == .assignment do failure
        return { n with start }
    else return none
  | _ => return none

def operand (rules : Rules) : Parser Node := do
  let _ ← many markupComment?
  let start ← here
  let applied (kind : Kind) : Parser Node := do
    advance
    let argument ← rules .operand
    node kind start [argument.withRole .argument]
  if ← atAwait then
    advance
    node .await start [← rules .operand]
  else
    match ← current with
    | .mark "!" | .mark "~" | .mark "+" | .mark "-" | .word "typeof" | .word "void" |
        .word "delete" => applied .unary
    | .mark "++" | .mark "--" => applied .update
    | lexeme =>
      let base ←
        match ← arrow? rules with
        | some n => pure n
        | none =>
          if let some n ← usingAssignment? rules then return n
          if lexeme == .mark "<" && (← get).dialect == .typedScript then
            let generic ← typeArguments rules
            return ← node .typeAssertion start [generic, ← rules .operand]
          else if ← atWord "new" then newExpression rules
          else primary rules
      assigned rules (← extendAll (extension rules start) base)

def precedence : String → Nat
  | "??" | "||" => 1
  | "&&" => 2
  | "|" => 3
  | "^" => 4
  | "&" => 5
  | "==" | "!=" | "===" | "!==" => 6
  | "<" | ">" | "<=" | ">=" | "in" | "instanceof" => 7
  | "<<" | ">>" | ">>>" => 8
  | "+" | "-" => 9
  | "*" | "/" | "%" => 10
  | "**" => 11
  | _ => 0

/-- Join what waits on the stack of left operands and binds at least as tightly as the next
operator. -/
def reduce (level : Nat) : List (Node × Nat) → Node → List (Node × Nat) × Node
  | [], right => ([], right)
  | (left, p) :: rest, right =>
    if p > level || (p == level && p != 11) then
      reduce level rest ⟨.binary, .plain, left.start, right.stop, "",
        [left.withRole .left, right.withRole .right]⟩
    else ((left, p) :: rest, right)

def operator? : Parser (Option Nat) := do
  match ← current with
  | .mark m => return if precedence m == 0 then none else some (precedence m)
  | .word "in" => return if (← get).context.noIn then none else some 7
  | .word "instanceof" => return some 7
  | _ => return none

/-- Operands joined by binary operators and type ascriptions. -/
def binary (rules : Rules) : Parser Node := do
  let first ← rules .operand
  let (stack, right) ← extendAll (fun ((stack, right) : List (Node × Nat) × Node) => do
    if ← stopped then return none
    if let some level ← operator? then
      advance
      let (stack, left) := reduce level stack right
      let next ← rules .operand
      return some ((left, level) :: stack, next)
    if (← typed) && ((← atWord "as") || (← atWord "satisfies")) then
      let kind := if ← atWord "as" then Kind.asExpression else Kind.satisfiesExpression
      advance
      let (stack, subject) := reduce 7 stack right
      let type ←
        if ← atWord "const" then
          advance
          pure []
        else pure [← inContext ({ · with ascribed := true }) (rules .type)]
      let whole ← node kind subject.start (subject :: type)
      return some (stack, ← extendAll (suffix rules true subject.start) whole)
    return none) ([], first)
  return (reduce 0 stack right).2

/-- The two outcomes of a condition. In typed modules a colon may first be read as part of an arrow
function. -/
def outcomes (rules : Rules) : Parser (Node × Node) := do
  let both (plain : Bool) : Parser (Node × Node) := do
    let yes ← inContext (fun c => { plainArrows := plain || c.plainArrows }) (rules .assignment)
    mark ":"
    let no ← rules .assignment
    return (yes, no)
  if ← typed then
    match ← attempt (both false) with
    | some result => return result
    | none => both true
  else both false

/-- An expression without a comma outside brackets. -/
def assignment (rules : Rules) : Parser Node := do
  let start ← here
  if ← atWord "yield" then
    advance
    let delegated ← mark? "*"
    let bare := (← stopped) ||
      match ← current with
      | .mark m => [")", "]", "\x7d", ",", ":", ";"].contains m
      | lexeme => lexeme == .endOfInput
    let argument ← if delegated || !bare then pure [← rules .assignment] else pure []
    return ← node .yield start argument
  let left ← binary rules
  if ← mark? "?" then
    let (yes, no) ← outcomes rules
    node .ternary left.start [left, yes, no]
  else return left

end Parser
end ThemedCss.Syntax
