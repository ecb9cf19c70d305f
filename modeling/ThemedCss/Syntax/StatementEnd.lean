import ThemedCss.Syntax.Lexeme

/-! Where a statement may end without a semicolon. -/
namespace ThemedCss.Syntax
namespace StatementEnd

/-- Blanks that may stand between the end of a statement and the end of its line. No-break spaces
are none. -/
def isSpace (c : Char) : Bool :=
  let n := c.toNat
  n == 0x20 || (0x09 ≤ n && n ≤ 0x0d) || n == 0x1680 || (0x2000 ≤ n && n ≤ 0x200a && n != 0x2007) ||
    n == 0x2028 || n == 0x2029 || n == 0x205f || n == 0x3000

/-- Line ends; the typed dialects know line feeds only. -/
def isLineEnd (typed : Bool) (c : Char) : Bool :=
  if typed then c == '\n' else Lexeme.isLineBreak c

/-- Skip blanks and comments. Fails before a slash that opens no comment. With `single`, stops after
a block comment and tells whether a line ended in one; it tells true in all other cases. -/
def skipGap (typed single : Bool) : Lexeme.Gap → Bool → List Char → Option (Bool × List Char)
  | .blanks, _, [] => some (true, [])
  | .line, _, [] => some (true, [])
  | .block, _, [] => some (true, [])
  | .blanks, ended, '/' :: '/' :: cs => skipGap typed single .line ended cs
  | .blanks, ended, '/' :: '*' :: cs => skipGap typed single .block ended cs
  | .blanks, ended, c :: cs =>
    if isSpace c then skipGap typed single .blanks ended cs
    else if c == '/' then none
    else some (true, c :: cs)
  | .line, ended, c :: cs =>
    if isLineEnd typed c then skipGap typed single .blanks ended cs
    else skipGap typed single .line ended cs
  | .block, ended, '*' :: '/' :: cs =>
    if single && cs.head? != some '/' then some (ended, cs)
    else skipGap typed single .blanks ended cs
  | .block, ended, c :: cs => skipGap typed single .block (ended || isLineEnd typed c) cs

/-- Letters for the purpose of telling a word from its beginning. -/
def isLetter (c : Char) : Bool :=
  c.isAlpha || (0x80 ≤ c.toNat && Lexeme.isWordPart c)

def startsWithLetter (cs : List Char) : Bool :=
  (cs.head?.map isLetter).getD false

/-- Whether what follows an `i` spells the operators `in` or `instanceof`. -/
def isRelation (cs : List Char) : Bool :=
  match cs with
  | 'n' :: r =>
    if startsWithLetter r then
      "stanceof".toList.isPrefixOf r && !startsWithLetter (r.drop 8)
    else true
  | _ => false

/-- Whether a line that starts with `cs` starts a new statement. `operators` tells whether a binary
operator could follow. -/
def opensStatement (typed operators : Bool) (cs : List Char) : Bool :=
  match cs with
  | [] => true
  | '+' :: r => r.head? == some '+'
  | '-' :: r => r.head? == some '-'
  | '!' :: r => r.head? != some '='
  | 'i' :: r => !isRelation r
  | '.' :: r => !typed && (r.head?.map Char.isDigit).getD false
  | c :: _ =>
    if c == '(' || c == '[' then typed && !operators
    else !("\x60,:;*%><=?^|&/".toList.contains c)

/-- Whether a statement ends where `cs` starts: at the end of the input, before a closing brace, or
at the end of a line unless the next line goes on. Comments on the way are looked into only in the
plain dialect, and end the statement only where no operator could follow. At most `bound` comments
are looked at. -/
def endsBefore (typed operators : Bool) : Nat → List Char → Bool
  | 0, _ => false
  | bound + 1, cs =>
    let cs := cs.dropWhile fun c => isSpace c && !isLineEnd typed c
    match cs with
    | [] => true
    | '}' :: r => !typed || operators || (r.dropWhile isSpace).head? != some ':'
    | '/' :: _ =>
      if typed then false
      else
        match skipGap typed true .blanks false cs with
        | none => false
        | some (ended, rest) =>
          if ended && !operators && rest.head? != some ',' && rest.head? != some '=' then true
          else
            match rest with
            | [] => false
            | c :: _ =>
              if c == '}' || isSpace c then endsBefore typed operators bound rest else false
    | c :: r =>
      if isLineEnd typed c then
        match skipGap typed false .blanks false r with
        | none => false
        | some (_, rest) => opensStatement typed operators rest
      else false

/-- The end of the comment that starts here, if one does. -/
def afterComment? : Lexeme.Gap → List Char → Option (List Char)
  | .blanks, '/' :: '/' :: cs => afterComment? .line cs
  | .blanks, '/' :: '*' :: cs => afterComment? .block cs
  | .blanks, _ => none
  | .line, [] => some []
  | .line, c :: cs => if Lexeme.endsComment c then some (c :: cs) else afterComment? .line cs
  | .block, [] => some []
  | .block, '*' :: '/' :: cs => some cs
  | .block, _ :: cs => afterComment? .block cs

/-- Whether a statement may end in the gap that `cs` starts with: asked at its start, and again
after each comment in it. At most `bound` comments are looked at. -/
def ends (typed operators : Bool) : Nat → List Char → Bool
  | 0, _ => false
  | bound + 1, cs =>
    endsBefore typed operators (bound + 1) cs ||
      match afterComment? .blanks (cs.dropWhile Lexeme.isBlank) with
      | some rest => ends typed operators bound rest
      | none => false

end StatementEnd
end ThemedCss.Syntax
