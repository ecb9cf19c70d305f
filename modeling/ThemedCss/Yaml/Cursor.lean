import ThemedCss.Yaml.Token

/-! Places in a text, and the steps of a lexer. -/
namespace ThemedCss.Yaml

/-- What remains of a text, and how far, in which line and how deep in that line it starts. -/
structure Cursor where
  rest : List Char
  index : Nat
  line : Nat
  column : Nat

namespace Cursor

def ofText (cs : List Char) : Cursor :=
  ⟨cs, 0, 0, 0⟩

/-- Pass one character. A byte order mark has no width. -/
def step (c : Cursor) : Cursor :=
  match c.rest with
  | [] => c
  | ch :: rest =>
    if isBreak ch then ⟨rest, c.index + 1, c.line + 1, 0⟩
    else if ch.toNat == 0xFEFF then ⟨rest, c.index + 1, c.line, c.column⟩
    else ⟨rest, c.index + 1, c.line, c.column + 1⟩

def forward : Nat → Cursor → Cursor
  | 0, c => c
  | n + 1, c => forward n c.step

def peek (c : Cursor) (n : Nat) : Option Char :=
  (c.rest.drop n).head?

end Cursor

/-- A place where a key may have started: the number of tokens before it, and whether a key has to
be there. -/
structure Candidate where
  flow : Nat
  tokens : Nat
  required : Bool
  start : Cursor

/-- The state of a lexer. `indent` is the column of the innermost block, -1 outside of all. `marks`
are the tokens to be put before earlier ones, once it is known that a key started there. -/
structure LexState where
  cursor : Cursor
  flow : Nat
  indent : Int
  indents : List Int
  keyAllowed : Bool
  candidates : List Candidate
  count : Nat
  tokens : List Token
  marks : List (Nat × List Token)

abbrev Lexer := StateT LexState (Except Fault)

namespace Lexer

def malformed {α : Type} : Lexer α :=
  throw .malformed

def cursor : Lexer Cursor := return (← get).cursor

def peek (n : Nat) : Lexer (Option Char) := return (← get).cursor.peek n

def forward (n : Nat) : Lexer Unit :=
  modify fun s => { s with cursor := s.cursor.forward n }

def remaining : Lexer Nat := return (← get).cursor.rest.length

def run (p : Char → Bool) : Lexer (List Char) := do
  let cs := (← get).cursor.rest.takeWhile p
  forward cs.length
  return cs

def skipSpaces : Lexer Unit := do
  let _ ← run (· == ' ')

def skipComment : Lexer Unit := do
  if (← peek 0) == some '#' then
    let _ ← run (!isBreak ·)

/-- Take a line end. All but the separators of lines and paragraphs read as a line feed. -/
def lineBreak? : Lexer (Option Char) := do
  match ← peek 0 with
  | some c =>
    if isBreak c then
      forward 1
      return some (if c.toNat == 0x85 then '\n' else c)
    else return none
  | none => return none

/-- The rest of a line that holds nothing more. -/
def finishLine : Lexer Unit := do
  skipSpaces
  skipComment
  unless isLineEnd (← peek 0) do malformed
  let _ ← lineBreak?

def emit (t : Token) : Lexer Unit :=
  modify fun s => { s with tokens := t :: s.tokens, count := s.count + 1 }

def allowKey (b : Bool) : Lexer Unit :=
  modify ({ · with keyAllowed := b })

/-- Open a block at a column, if it is deeper than the one around it. -/
def openBlock (column : Nat) : Lexer Bool := do
  let s ← get
  if s.indent < column then
    set { s with indent := (column : Int), indents := s.indent :: s.indents }
    return true
  return false

/-- Close the blocks that are deeper than a column, at most `bound` of them. -/
def closeBlocks (column : Int) : Nat → Lexer Unit
  | 0 => return
  | bound + 1 => do
    let s ← get
    if s.flow == 0 && column < s.indent then
      set { s with indent := s.indents.headD (-1), indents := s.indents.tail }
      emit .blockEnd
      closeBlocks column bound

def closeTo (column : Int) : Lexer Unit := do
  closeBlocks column ((← get).indents.length + 1)

/-- Give up the candidate of the current flow level. -/
def dropCandidate : Lexer Unit := do
  let s ← get
  match s.candidates.find? (·.flow == s.flow) with
  | some k =>
    if k.required then malformed
    set { s with candidates := s.candidates.filter (·.flow != s.flow) }
  | none => return

/-- A key that started on another line, or more than 1024 characters ago, is none. -/
def dropStale : Lexer Unit := do
  let s ← get
  let stale (k : Candidate) : Bool :=
    k.start.line != s.cursor.line || 1024 < s.cursor.index - k.start.index
  if s.candidates.any fun k => stale k && k.required then malformed
  set { s with candidates := s.candidates.filter (!stale ·) }

def saveCandidate : Lexer Unit := do
  let s ← get
  if s.keyAllowed then
    dropCandidate
    let required := s.flow == 0 && s.indent == s.cursor.column
    modify fun s => { s with candidates := ⟨s.flow, s.count, required, s.cursor⟩ :: s.candidates }

end Lexer
end ThemedCss.Yaml
