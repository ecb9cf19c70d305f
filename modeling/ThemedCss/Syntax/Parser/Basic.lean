import ThemedCss.Syntax.Balance
import ThemedCss.Syntax.Kind
import ThemedCss.Syntax.Node
import ThemedCss.Syntax.StatementEnd

/-! The state of a parse, the steps every rule is made of, and the rules that may call each
other. -/
namespace ThemedCss.Syntax

/-- What the code being read stands in. `ending` is empty where no statement can end, and tells
elsewhere whether a binary operator could follow. With `noIn` the word `in` belongs to the head of a
loop, with `plainArrows` an arrow function states no result type, and with `ascribed` a type belongs
to an expression. An expression that is a statement of its own starts at byte `opening`. -/
structure Context where
  ending : Option Bool := none
  opening : Option Nat := none
  noIn : Bool := false
  plainArrows : Bool := false
  ascribed : Bool := false

/-- `here` starts with `lexeme`, which covers the bytes from `start` up to `stop`; `tail` is all
that follows the lexeme before it, which ended at byte `last`, and `broken` tells whether a line
ended in between. While `recovering`, faults become error nodes. `size` is the number of characters
of the whole input. -/
structure State where
  size : Nat
  dialect : Dialect
  recovering : Bool
  context : Context
  here : List Char
  start : Nat
  lexeme : Lexeme
  after : List Char
  stop : Nat
  broken : Bool
  tail : List Char
  last : Nat

/-- A lexeme's text; empty for a backquote and at the end of the input. -/
def Lexeme.text : Lexeme → String
  | .word t | .privateWord t | .number t | .string t | .mark t => t
  | .backquote | .endOfInput | .stray => ""

/-- Read the first lexeme at byte offset `pos`, where `rest` is what remains. -/
def State.moveTo (s : State) (rest : List Char) (pos : Nat) : State :=
  let (here, start, broken) := Lexeme.skipGap .blanks rest pos false
  let (lexeme, after) := Lexeme.next here
  let width :=
    match lexeme with
    | .backquote => 1
    | .endOfInput => 0
    | .stray => (here.head?.map Char.utf8Size).getD 0
    | l => l.text.utf8ByteSize
  { s with here, start, lexeme, after, stop := start + width, broken, tail := rest, last := pos }

abbrev Parser := StateT State Option

/-- The rules that call each other. Every other rule is an ordinary function of the rules below
it. -/
inductive Goal where
  | statement
  | assignment
  | operand
  | binding
  | type
  | typeOperand
  | element

abbrev Rules := Goal → Parser Node

namespace Parser

def current : Parser Lexeme := return (← get).lexeme

def here : Parser Nat := return (← get).start

def last : Parser Nat := return (← get).last

def typed : Parser Bool := return (← get).dialect.typed

def advance : Parser Unit :=
  modify fun s => s.moveTo s.after s.stop

def atMark (m : String) : Parser Bool := return (← current) == .mark m

def atWord (w : String) : Parser Bool := return (← current) == .word w

def lineBroken : Parser Bool := return (← get).broken

/-- The lexeme after the current one, and whether a line ends before it. -/
def following : Parser (Lexeme × Bool) := do
  let s ← get
  let s' := s.moveTo s.after s.stop
  return (s'.lexeme, s'.broken)

def followingMark (m : String) : Parser Bool := return (← following).1 == .mark m

def mark? (m : String) : Parser Bool := do
  if ← atMark m then
    advance
    return true
  return false

def mark (m : String) : Parser Unit := do
  unless ← mark? m do failure

def word? (w : String) : Parser Bool := do
  if ← atWord w then
    advance
    return true
  return false

def word (w : String) : Parser Unit := do
  unless ← word? w do failure

/-- Take one closing angle bracket, also off a longer mark. -/
def closeAngle : Parser Unit := do
  let s ← get
  match s.lexeme, s.here with
  | .mark m, '>' :: rest => if m == "=>" then failure else set (s.moveTo rest (s.start + 1))
  | _, _ => failure

/-- A node that ends with the lexeme before the current one. -/
def node (kind : Kind) (start : Nat) (children : List Node) : Parser Node :=
  return ⟨kind, .plain, start, ← last, "", children⟩

def leaf (kind : Kind) : Parser Node := do
  let s ← get
  advance
  return ⟨kind, .plain, s.start, s.stop, s.lexeme.text, []⟩

/-- Run a rule that may fail; on failure nothing is consumed. -/
def guarded {α : Type} (p : Parser α) : Parser (Option α) := fun s =>
  match p.run s with
  | some (a, s') => some (some a, s')
  | none => some (none, s)

/-- Run a rule that may fail, without recovering from faults inside it. -/
def attempt {α : Type} (p : Parser α) : Parser (Option α) := do
  let recovering := (← get).recovering
  modify ({ · with recovering := false })
  let result ← guarded p
  modify ({ · with recovering })
  return result

/-- Run `p`, and `q` from the same place if it fails. -/
def orElse {α : Type} (p q : Parser α) : Parser α := do
  match ← attempt p with
  | some a => return a
  | none => q

/-- Collect results until the rule gives none; `bound` limits their number. -/
def collect {α : Type} (p : Parser (Option α)) : Nat → Parser (List α)
  | 0 => return []
  | bound + 1 => do
    match ← p with
    | none => return []
    | some a => return a :: (← collect p bound)

/-- A rule that consumes something each time it gives a result runs at most as often as the input
has characters. -/
def many {α : Type} (p : Parser (Option α)) : Parser (List α) := do
  collect p ((← get).size + 1)

/-- Apply a rule to its own result until it gives none; `bound` limits the number of steps. -/
def extend {α : Type} (p : α → Parser (Option α)) : Nat → α → Parser α
  | 0, a => return a
  | bound + 1, a => do
    match ← p a with
    | none => return a
    | some b => extend p bound b

def extendAll {α : Type} (p : α → Parser (Option α)) (a : α) : Parser α := do
  extend p ((← get).size + 1) a

def inContext {α : Type} (change : Context → Context) (p : Parser α) : Parser α := do
  let context := (← get).context
  modify ({ · with context := change context })
  let a ← p
  modify ({ · with context })
  return a

/-- Run a rule between brackets: nothing outside them matters inside. -/
def enclosed {α : Type} (p : Parser α) : Parser α :=
  inContext (fun _ => {}) p

/-- Run a rule at whose end a statement may end. -/
def ending {α : Type} (operators : Bool) (p : Parser α) : Parser α :=
  inContext (fun _ => { ending := some operators }) p

/-- A statement may end before the current lexeme. -/
def endsHere (operators : Bool) : Parser Bool := do
  let s ← get
  return StatementEnd.ends s.dialect.typed operators (s.size + 1) s.tail

/-- A statement may end after the current lexeme. -/
def endsAfter (operators : Bool) : Parser Bool := do
  let s ← get
  return StatementEnd.ends s.dialect.typed operators (s.size + 1) s.after

/-- The statement that is being read ends before the current lexeme. -/
def stopped : Parser Bool := do
  match (← get).context.ending with
  | some operators => endsHere operators
  | none => return false

/-- The statement that is being read ends after the current lexeme. -/
def stopsAfter : Parser Bool := do
  match (← get).context.ending with
  | some operators => endsAfter operators
  | none => return false

/-- A comment that opens with one of the comment marks of markup and runs to the end of the line, if
one stands here. -/
def markupComment? : Parser (Option Node) := do
  let s ← get
  match s.here with
  | '<' :: '!' :: '-' :: '-' :: _ | '-' :: '-' :: '>' :: _ =>
    let (text, rest) := Lexeme.splitRun (fun c => !Lexeme.isLineBreak c) s.here
    let text := String.ofList text
    let stop := s.start + text.utf8ByteSize
    set (s.moveTo rest stop)
    return some ⟨.markupComment, .plain, s.start, stop, text, []⟩
  | _ => return none

/-- Items up to a closing mark, with commas between them; items may be left out. -/
def commaList (closing : String) (item : Parser Node) : Parser (List Node) := do
  let items ← many do
    if ← mark? "," then return some none
    if let some n ← markupComment? then return some (some n)
    if ← atMark closing then return none
    let n ← item
    unless (← atMark closing) || (← atMark ",") do failure
    return some (some n)
  mark closing
  return items.filterMap id

/-- Items up to a closing mark, with a comma after each but perhaps the last. -/
def strictList (closing : String) (item : Parser Node) : Parser (List Node) := do
  let items ← many do
    if ← atMark closing then return none
    let n ← item
    unless ← atMark closing do mark ","
    return some n
  mark closing
  return items

/-- One or more items with commas between them. -/
def commaRun (item : Parser Node) : Parser (List Node) := do
  let first ← item
  let rest ← many do
    if ← mark? "," then return some (← item)
    return none
  return first :: rest

def optional (condition : Parser Bool) (p : Parser Node) : Parser (List Node) := do
  if ← condition then return [← p]
  return []

/-- Move to `rest`, a tail of what remains. -/
def skipTo (rest : List Char) : Parser Unit :=
  modify fun s =>
    let skipped := s.here.take (s.here.length - rest.length)
    s.moveTo rest (s.start + (String.ofList skipped).utf8ByteSize)

/-- An error node from `start` to the end of the faulty stretch: a semicolon, a line end, or a
closing brace. -/
def skipFault (start : Nat) : Parser Node := do
  let _ ← many do
    match ← current with
    | .endOfInput => return none
    | .mark ";" => return none
    | .mark "\x7d" => return none
    | _ =>
      if (← lineBroken) && start < (← here) then return none
      advance
      return some ()
  let _ ← mark? ";"
  node .error start []

/-- A bracketed part. While recovering, a faulty one is skipped up to the bracket that closes it. -/
def bracketed (kind : Kind) (closing : Char) (p : Parser Node) : Parser Node := do
  if (← get).recovering then
    match ← guarded p with
    | some n => return n
    | none =>
      let s ← get
      match Lexeme.afterClosing '(' [.closer closing] (s.here.drop 1) with
      | some rest =>
        skipTo rest
        let stop ← last
        return ⟨kind, .plain, s.start, stop, "", [⟨.error, .plain, s.start, stop, "", []⟩]⟩
      | none =>
        advance
        let fault ← skipFault s.start
        node kind s.start [fault]
  else p

/-- Words that are never names of variables. -/
def reserved : List String :=
  ["break", "case", "catch", "class", "const", "continue", "debugger", "default", "delete", "do",
   "else", "enum", "export", "extends", "false", "finally", "for", "function", "if", "import", "in",
   "instanceof", "new", "null", "return", "super", "switch", "this", "throw", "true", "try",
   "typeof", "var", "void", "while", "with", "yield"]

/-- Next comes a word that may name a variable. -/
def atName : Parser Bool := do
  match ← current with
  | .word w => return !reserved.contains w
  | _ => return false

def identifier : Parser Node := do
  if ← atName then leaf .identifier else failure

/-- After a word such as `return`, the statement goes on unless it ends here. -/
def goesOn : Parser Bool :=
  return !(← atMark ";") && !(← endsHere false)

/-- The end of a statement: a semicolon, or a place where one may be left out. -/
def semicolon (operators : Bool) : Parser Unit := do
  unless (← mark? ";") || (← endsHere operators) do failure

end Parser
end ThemedCss.Syntax
