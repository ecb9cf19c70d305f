/-! Lexemes of JavaScript and TypeScript, read from the characters of a module. -/
namespace ThemedCss.Syntax

inductive Lexeme where
  | word (text : String)
  | privateWord (text : String)
  | number (text : String)
  | string (text : String)
  | mark (text : String)
  | backquote
  | endOfInput
  | stray
deriving DecidableEq, Repr, Inhabited

namespace Lexeme

/-- Characters that separate lexemes. -/
def isBlank (c : Char) : Bool :=
  let n := c.toNat
  n == 0x20 || (0x09 ≤ n && n ≤ 0x0d) || n == 0xa0 || n == 0x1680 || (0x2000 ≤ n && n ≤ 0x200b) ||
    n == 0x2028 || n == 0x2029 || n == 0x202f || n == 0x205f || n == 0x2060 || n == 0x3000 ||
    n == 0xfeff

/-- Characters after which a statement may end without a semicolon. -/
def isLineBreak (c : Char) : Bool :=
  c == '\n' || c.toNat == 0x2028 || c.toNat == 0x2029

/-- A name holds every character but blanks, controls and ASCII punctuation. -/
def isWordPart (c : Char) : Bool :=
  !isBlank c && 0x20 ≤ c.toNat && !(":;\x60\"'@#.,|^&<=>+-*/\\%?!~()[]\x7b\x7d".toList.contains c)

def isWordStart (c : Char) : Bool :=
  isWordPart c && !c.isDigit

/-- Between lexemes, in a line comment, or in a block comment. -/
inductive Gap where
  | blanks | line | block

def endsComment (c : Char) : Bool :=
  c == '\r' || isLineBreak c

/-- Skip blanks and comments: what remains, its byte offset, and whether a line ended on the way. -/
def skipGap : Gap → List Char → Nat → Bool → List Char × Nat × Bool
  | _, [], pos, broken => ([], pos, broken)
  | .blanks, '/' :: '/' :: cs, pos, broken => skipGap .line cs (pos + 2) broken
  | .blanks, '/' :: '*' :: cs, pos, broken => skipGap .block cs (pos + 2) broken
  | .blanks, c :: cs, pos, broken =>
    if isBlank c then skipGap .blanks cs (pos + c.utf8Size) (broken || isLineBreak c)
    else (c :: cs, pos, broken)
  | .line, c :: cs, pos, broken =>
    if endsComment c then skipGap .blanks cs (pos + c.utf8Size) (broken || isLineBreak c)
    else skipGap .line cs (pos + c.utf8Size) broken
  | .block, '*' :: '/' :: cs, pos, broken => skipGap .blanks cs (pos + 2) broken
  | .block, c :: cs, pos, broken => skipGap .block cs (pos + c.utf8Size) (broken || isLineBreak c)

def isHexDigit (c : Char) : Bool :=
  c.isDigit || ('a' ≤ c && c ≤ 'f') || ('A' ≤ c && c ≤ 'F')

def isOctalDigit (c : Char) : Bool :=
  '0' ≤ c && c ≤ '7'

/-- The length of a code point escape after its backslash: a `u` and four hexadecimal digits, or
some in braces. -/
def codePointLength? (cs : List Char) : Option Nat :=
  match cs with
  | 'u' :: '{' :: r =>
    let digits := r.takeWhile isHexDigit
    if !digits.isEmpty && (r.drop digits.length).head? == some '}' then
      some (digits.length + 3)
    else none
  | 'u' :: r => if (r.takeWhile isHexDigit).length ≥ 4 then some 5 else none
  | _ => none

/-- The length of an escape after its backslash, if it is one. -/
def escapeLength? (cs : List Char) : Option Nat :=
  match cs with
  | [] => none
  | 'u' :: _ => codePointLength? cs
  | 'x' :: r => if (r.takeWhile isHexDigit).length ≥ 2 then some 3 else none
  | c :: r =>
    if isOctalDigit c then some (min 3 (cs.takeWhile isOctalDigit).length)
    else if (c == '\r' || c == '?') && (r.head?.map isLineBreak).getD false then some 2
    else some 1

/-- Split off a name. Code point escapes belong to the name as they are written; the first `skip`
characters are part of one. -/
def splitWord : Nat → List Char → List Char × List Char
  | _, [] => ([], [])
  | skip + 1, c :: cs =>
    let (w, r) := splitWord skip cs
    (c :: w, r)
  | 0, '\\' :: cs =>
    match codePointLength? cs with
    | some n =>
      let (w, r) := splitWord n cs
      ('\\' :: w, r)
    | none => ([], '\\' :: cs)
  | 0, c :: cs =>
    if isWordPart c then
      let (w, r) := splitWord 0 cs
      (c :: w, r)
    else ([], c :: cs)

def splitRun (p : Char → Bool) (cs : List Char) : List Char × List Char :=
  (cs.takeWhile p, cs.dropWhile p)

/-- Split off digits, with single low lines between them. -/
def splitDigits (p : Char → Bool) : List Char → List Char × List Char
  | [] => ([], [])
  | '_' :: d :: cs =>
    if p d then
      let (w, r) := splitDigits p cs
      ('_' :: d :: w, r)
    else ([], '_' :: d :: cs)
  | c :: cs =>
    if p c then
      let (w, r) := splitDigits p cs
      (c :: w, r)
    else ([], c :: cs)

/-- Digits that start with a digit. -/
def splitNumeral (p : Char → Bool) (cs : List Char) : List Char × List Char :=
  if (cs.head?.map p).getD false then splitDigits p cs else ([], cs)

/-- The exponent after the digits of a decimal number. -/
def splitExponent (cs : List Char) : List Char × List Char :=
  match cs with
  | e :: r =>
    if e == 'e' || e == 'E' then
      let (sign, r) :=
        match r with
        | '+' :: r' => (['+'], r')
        | '-' :: r' => (['-'], r')
        | _ => ([], r)
      let (digits, rest) := splitNumeral Char.isDigit r
      if digits.isEmpty then ([], cs) else (e :: sign ++ digits, rest)
    else ([], cs)
  | [] => ([], [])

/-- Split off a number that starts with a digit, or with a point and a digit. A fraction or an
exponent follows zero, or digits with at most one zero before them; a big-integer mark follows
digits only. -/
def splitNumber (cs : List Char) : List Char × List Char :=
  let big (w r : List Char) : List Char × List Char :=
    match r with
    | 'n' :: rest => (w ++ ['n'], rest)
    | _ => (w, r)
  let based (x : Char) (p : Char → Bool) (r : List Char) : List Char × List Char :=
    let (digits, rest) := splitNumeral p r
    if digits.isEmpty then (['0'], x :: r) else big ('0' :: x :: digits) rest
  match cs with
  | '0' :: x :: r =>
    if x == 'x' || x == 'X' then based x isHexDigit r
    else if x == 'o' || x == 'O' then based x isOctalDigit r
    else if x == 'b' || x == 'B' then based x (fun c => c == '0' || c == '1') r
    else decimal big cs
  | _ => decimal big cs
where
  decimal (big : List Char → List Char → List Char × List Char) (cs : List Char) :
    List Char × List Char :=
    let (whole, r) := splitNumeral Char.isDigit cs
    let plain :=
      match whole with
      | '0' :: [] => true
      | '0' :: d :: _ => '1' ≤ d && d ≤ '9'
      | _ => true
    if !plain then big whole r
    else
      match r with
      | '.' :: r' =>
        let (digits, rest) := splitNumeral Char.isDigit r'
        let (exponent, rest) := splitExponent rest
        (whole ++ '.' :: digits ++ exponent, rest)
      | _ =>
        let (exponent, rest) := splitExponent r
        if exponent.isEmpty then big whole r else (whole ++ exponent, rest)

/-- Split off the rest of a quoted string, the closing quote included. The first `skip` characters
are part of an escape. -/
def splitString (quote : Char) : Nat → List Char → Option (List Char × List Char)
  | _, [] => none
  | skip + 1, c :: cs => (splitString quote skip cs).map fun (s, r) => (c :: s, r)
  | 0, c :: cs =>
    if c == '\\' then (escapeLength? cs).bind fun n =>
      (splitString quote n cs).map fun (s, r) => (c :: s, r)
    else if c == quote then some ([c], cs)
    else if c == '\n' || c == '\r' then none
    else (splitString quote 0 cs).map fun (s, r) => (c :: s, r)

/-- The length of a character reference after its ampersand: a name or a number, and a semicolon. -/
def referenceLength? (cs : List Char) : Option Nat :=
  let closed (skip least most : Nat) (p : Char → Bool) : Option Nat :=
    let n := ((cs.drop skip).takeWhile p).length
    if least ≤ n && n ≤ most && (cs.drop (skip + n)).head? == some ';' then
      some (skip + n + 1)
    else none
  match cs with
  | '#' :: 'x' :: _ | '#' :: 'X' :: _ => closed 2 1 6 isHexDigit
  | '#' :: _ => closed 1 1 5 Char.isDigit
  | _ => closed 0 1 30 Char.isAlpha

/-- Split off the rest of a markup attribute string: no escapes, line breaks allowed. An ampersand
before a letter or a number sign opens a character reference; another one takes the character after
it along. The first `skip` characters are part of one of these. -/
def splitMarkupString (quote : Char) : Nat → List Char → Option (List Char × List Char)
  | _, [] => none
  | skip + 1, c :: cs => (splitMarkupString quote skip cs).map fun (s, r) => (c :: s, r)
  | 0, c :: cs =>
    if c == quote then some ([c], cs)
    else
      let skip : Option Nat :=
        if c != '&' then some 0
        else if (cs.head?.map fun d => d == '#' || d.isAlpha).getD false then referenceLength? cs
        else some 1
      skip.bind fun n => (splitMarkupString quote n cs).map fun (s, r) => (c :: s, r)

/-- Split off the rest of a regular expression after its first slash, the closing slash included. -/
def splitRegex (inClass : Bool) : List Char → Option (List Char × List Char)
  | [] => none
  | '\\' :: c :: cs =>
    if c == '\n' then none else (splitRegex inClass cs).map fun (s, r) => ('\\' :: c :: s, r)
  | c :: cs =>
    if c == '\n' then none
    else if c == '/' && !inClass then some ([c], cs)
    else
      (splitRegex (if c == '[' then true else if c == ']' then false else inClass) cs).map
        fun (s, r) => (c :: s, r)

/-- Split off template text: it ends before a backquote or the opening of a substitution. Fails on
what is no escape, and at the end of the input. The first `skip` characters are part of an
escape. -/
def splitTemplateText : Nat → List Char → Option (List Char × List Char)
  | _, [] => none
  | skip + 1, c :: cs => (splitTemplateText skip cs).map fun (s, r) => (c :: s, r)
  | 0, '$' :: '{' :: cs => some ([], '$' :: '{' :: cs)
  | 0, c :: cs =>
    if c == '\x60' then some ([], c :: cs)
    else if c == '\\' then (escapeLength? cs).bind fun n =>
      (splitTemplateText n cs).map fun (s, r) => (c :: s, r)
    else if c.toNat == 0 then none
    else (splitTemplateText 0 cs).map fun (s, r) => (c :: s, r)

/-- Punctuation, longest first. -/
def marks : List String :=
  [">>>=", "...", "===", "!==", "**=", "<<=", ">>=", ">>>", "&&=", "||=", "??=", "=>", "==", "!=",
   "<=", ">=", "&&", "||", "??", "?.", "++", "--", "+=", "-=", "*=", "/=", "%=", "&=", "|=", "^=",
   "<<", ">>", "**", "\x7b", "\x7d", "(", ")", "[", "]", ";", ",", "<", ">", "+", "-", "*", "/",
   "%", "&", "|", "^", "!", "~", "?", ":", "=", ".", "@"]

/-- A question mark before a decimal point is no optional chain. -/
private def isMarkAt (cs : List Char) (mark : String) : Bool :=
  mark.toList.isPrefixOf cs &&
    !(mark == "?." && ((cs.drop 2).head?.map Char.isDigit).getD false)

/-- The first lexeme of a text that starts with one, and what follows it. -/
def next (cs : List Char) : Lexeme × List Char :=
  match cs with
  | [] => (.endOfInput, [])
  | '\x60' :: r => (.backquote, r)
  | '#' :: r =>
    let (w, rest) := splitWord 0 r
    if (w.head?.map fun c => c == '\\' || isWordStart c).getD false then
      (.privateWord (String.ofList ('#' :: w)), rest)
    else (.stray, r)
  | c :: r =>
    if c == '"' || c == '\'' then
      match splitString c 0 r with
      | some (s, rest) => (.string (String.ofList (c :: s)), rest)
      | none => (.stray, r)
    else if c.isDigit || (c == '.' && (r.head?.map Char.isDigit).getD false) then
      let (n, rest) := splitNumber cs
      (.number (String.ofList n), rest)
    else if isWordStart c || (c == '\\' && (codePointLength? r).isSome) then
      let (w, rest) := splitWord 0 cs
      (.word (String.ofList w), rest)
    else
      match marks.find? (isMarkAt cs) with
      | some m => (.mark m, cs.drop m.length)
      | none => (.stray, r)

end Lexeme
end ThemedCss.Syntax
