import ThemedCss.Yaml.Scalar

/-! Splitting YAML text into tokens. -/
namespace ThemedCss.Yaml

namespace Lexer

/-- Skip blanks, comments and empty lines. After a line end a key may start, outside of flow
collections. -/
def skipGap : Nat → Lexer Unit
  | 0 => return
  | bound + 1 => do
    skipSpaces
    skipComment
    match ← lineBreak? with
    | some _ =>
      if (← get).flow == 0 then allowKey true
      skipGap bound
    | none => return

def documentMark (t : Token) : Lexer Unit := do
  closeTo (-1)
  dropCandidate
  allowKey false
  forward 3
  emit t

def openFlow (t : Token) : Lexer Unit := do
  saveCandidate
  modify fun s => { s with flow := s.flow + 1 }
  allowKey true
  forward 1
  emit t

def closeFlow (t : Token) : Lexer Unit := do
  dropCandidate
  if (← get).flow == 0 then malformed
  modify fun s => { s with flow := s.flow - 1 }
  allowKey false
  forward 1
  emit t

def flowEntry : Lexer Unit := do
  allowKey true
  dropCandidate
  forward 1
  emit .flowEntry

/-- A mark that may open a block: a dash or a question mark. -/
def blockMark (block mark : Token) (thenKey : Bool) : Lexer Unit := do
  let s ← get
  if s.flow == 0 then
    unless s.keyAllowed do malformed
    if ← openBlock s.cursor.column then emit block
  allowKey thenKey
  dropCandidate
  forward 1
  emit mark

/-- A colon. It makes a key of what started at the candidate, if there is one. -/
def value : Lexer Unit := do
  let s ← get
  match s.candidates.find? (·.flow == s.flow) with
  | some k =>
    set { s with candidates := s.candidates.filter (·.flow != s.flow) }
    let opened ← if s.flow == 0 then openBlock k.start.column else pure false
    let marks := if opened then [Token.blockMapping, Token.key] else [Token.key]
    modify fun s => { s with marks := (k.tokens, marks) :: s.marks }
    allowKey false
  | none =>
    if s.flow == 0 then
      unless s.keyAllowed do malformed
      if ← openBlock s.cursor.column then emit .blockMapping
    allowKey (s.flow == 0)
    dropCandidate
  forward 1
  emit .value

/-- A token that may be the start of a key. -/
def startsKey (t : Lexer Token) : Lexer Unit := do
  saveCandidate
  allowKey false
  emit (← t)

def block (folded : Bool) : Lexer Unit := do
  allowKey true
  dropCandidate
  emit (← blockScalar folded)

/-- Whether a plain scalar may start with `c` before `next`. -/
def startsPlain (inFlow : Bool) (c : Char) (next : Option Char) : Bool :=
  (!isGap (some c) && !"-?:,[]\x7b\x7d#&*!|>'\"%@\x60".toList.contains c) ||
    (!isGap next && (c == '-' || (!inFlow && (c == '?' || c == ':'))))

/-- Take the next token; false at the end of the text. -/
def next : Lexer Bool := do
  let c ← cursor
  if c.index == 0 && (c.peek 0).any (·.toNat == 0xFEFF) then forward 1
  skipGap ((← remaining) + 1)
  dropStale
  closeTo (← cursor).column
  let c ← cursor
  let inFlow := (← get).flow != 0
  match c.peek 0 with
  | none =>
    closeTo (-1)
    dropCandidate
    emit .streamEnd
    return false
  | some ch =>
    let after := c.peek 1
    if ch == '%' && c.column == 0 then
      closeTo (-1)
      dropCandidate
      allowKey false
      emit (← directive)
    else if ch == '-' && c.column == 0 && (← atSeparator) then documentMark .documentStart
    else if ch == '.' && c.column == 0 && (← atSeparator) then documentMark .documentEnd
    else if ch == '[' then openFlow .flowSequence
    else if ch == '\x7b' then openFlow .flowMapping
    else if ch == ']' then closeFlow .flowSequenceEnd
    else if ch == '\x7d' then closeFlow .flowMappingEnd
    else if ch == ',' then flowEntry
    else if ch == '-' && isGap after then blockMark .blockSequence .blockEntry true
    else if ch == '?' && (inFlow || isGap after) then blockMark .blockMapping .key (!inFlow)
    else if ch == ':' && (inFlow || isGap after) then value
    else if ch == '*' then startsKey (.reference <$> anchorName)
    else if ch == '&' then startsKey (.anchor <$> anchorName)
    else if ch == '!' then startsKey tag
    else if ch == '|' && !inFlow then block false
    else if ch == '>' && !inFlow then block true
    else if ch == '\'' then startsKey (quotedScalar false)
    else if ch == '"' then startsKey (quotedScalar true)
    else if startsPlain inFlow ch after then startsKey plainScalar
    else malformed
    return true

def all : Nat → Lexer Unit
  | 0 => malformed
  | bound + 1 => do
    if ← next then all bound

/-- Put marks before the tokens they belong to. -/
def place (marks : List (Nat × List Token)) (tokens : List Token) : List Token :=
  tokens.zipIdx.flatMap fun (t, i) => (marks.lookup i).getD [] ++ [t]

end Lexer

def tokenize (cs : List Char) : Except Fault (List Token) := do
  unless cs.all isAllowed do throw .malformed
  let start : LexState :=
    { cursor := .ofText cs, flow := 0, indent := -1, indents := [], keyAllowed := true,
      candidates := [], count := 0, tokens := [], marks := [] }
  let (_, s) ← StateT.run (Lexer.all (cs.length + 2)) start
  return Lexer.place s.marks s.tokens.reverse

end ThemedCss.Yaml
