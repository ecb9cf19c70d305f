import ThemedCss.Text.Utf8
import ThemedCss.Yaml.Cursor

/-! Scalars, names and tags as they are written. -/
namespace ThemedCss.Yaml.Lexer

def atSeparator : Lexer Bool := do
  let c ← cursor
  let mark := c.rest.take 3
  return (mark == ['-', '-', '-'] || mark == ['.', '.', '.']) && isGap (c.peek 3)

def hexValue? (c : Char) : Option Nat :=
  if c.isDigit then some (c.toNat - 48)
  else if 'a' ≤ c && c ≤ 'f' then some (c.toNat - 87)
  else if 'A' ≤ c && c ≤ 'F' then some (c.toNat - 55)
  else none

/-- A number of exactly `width` hexadecimal digits. -/
def hexNumber (width : Nat) : Lexer Nat := do
  let cs := (← cursor).rest.take width
  let digits := cs.filterMap hexValue?
  if digits.length < width then malformed
  forward width
  return digits.foldl (fun n d => 16 * n + d) 0

/-- A code point that is not a surrogate is a character. -/
def ofUnit (n : Nat) : Char :=
  if 0xD800 ≤ n && n < 0xE000 then Char.ofNat 0xFFFD else Char.ofNat n

/-- Text from code units, where `high` is a surrogate that waits for its second half. A surrogate
that stays alone stands for nothing. -/
def ofUnits : Option Nat → List Nat → List Char
  | none, [] => []
  | some _, [] => [Char.ofNat 0xFFFD]
  | none, n :: rest =>
    if 0xD800 ≤ n && n < 0xDC00 then ofUnits (some n) rest else ofUnit n :: ofUnits none rest
  | some high, n :: rest =>
    if 0xDC00 ≤ n && n < 0xE000 then
      Char.ofNat (0x10000 + (high - 0xD800) * 0x400 + (n - 0xDC00)) :: ofUnits none rest
    else if 0xD800 ≤ n && n < 0xDC00 then Char.ofNat 0xFFFD :: ofUnits (some n) rest
    else Char.ofNat 0xFFFD :: ofUnit n :: ofUnits none rest

def simpleEscapes : List (Char × Nat) :=
  [('0', 0), ('a', 7), ('b', 8), ('t', 9), ('\t', 9), ('n', 10), ('v', 11), ('f', 12), ('r', 13),
   ('e', 27), (' ', 32), ('"', 34), ('\\', 92), ('/', 47), ('N', 0x85), ('_', 0xA0), ('L', 0x2028),
   ('P', 0x2029)]

def codeEscapes : List (Char × Nat) :=
  [('x', 2), ('u', 4), ('U', 8)]

def quotedBreaks : Nat → Lexer (List Char)
  | 0 => return []
  | bound + 1 => do
    if ← atSeparator then malformed
    let _ ← run fun c => c == ' ' || c == '\t'
    match ← lineBreak? with
    | some b => return b :: (← quotedBreaks bound)
    | none => return []

def quotedGap : Lexer (List Char) := do
  let blanks ← run fun c => c == ' ' || c == '\t'
  match ← lineBreak? with
  | some b =>
    let breaks ← quotedBreaks ((← remaining) + 1)
    return (if b != '\n' then [b] else if breaks.isEmpty then [' '] else []) ++ breaks
  | none =>
    if (← peek 0).isNone then malformed
    return blanks

/-- One escape of a double-quoted scalar, after the backslash. -/
def escapeSequence : Lexer (List Nat) := do
  match ← peek 0 with
  | none => malformed
  | some c =>
    match simpleEscapes.lookup c, codeEscapes.lookup c with
    | some n, _ =>
      forward 1
      return [n]
    | none, some width =>
      forward 1
      let n ← hexNumber width
      if 0x7FFFFFFF < n then throw .overflow
      if 0x10FFFF < n then throw .outOfRange
      return [n]
    | none, none =>
      if isBreak c then
        let _ ← lineBreak?
        return (← quotedBreaks ((← remaining) + 1)).map (·.toNat)
      else malformed

/-- The code units of a quoted scalar up to the closing quote. -/
def quotedUnits (double : Bool) : Nat → Lexer (List Nat)
  | 0 => malformed
  | bound + 1 => do
    match ← peek 0, ← peek 1 with
    | none, _ => malformed
    | some c, next =>
      if !double && c == '\'' then
        if next == some '\'' then
          forward 2
          return 39 :: (← quotedUnits double bound)
        else
          forward 1
          return []
      else if double && c == '"' then
        forward 1
        return []
      else if double && c == '\\' then
        forward 1
        let units ← escapeSequence
        return units ++ (← quotedUnits double bound)
      else if isGap (some c) then
        let gap ← quotedGap
        return gap.map (·.toNat) ++ (← quotedUnits double bound)
      else
        forward 1
        return c.toNat :: (← quotedUnits double bound)

def quotedScalar (double : Bool) : Lexer Token := do
  forward 1
  let units ← quotedUnits double ((← remaining) + 1)
  return .scalar (String.ofList (ofUnits none units)) false

/-- Blanks after a plain word. Nothing is left of them before a line that separates documents. -/
def plainGap : Lexer (List Char) := do
  let blanks ← run (· == ' ')
  match ← lineBreak? with
  | none => return blanks
  | some b =>
    allowKey true
    let breaks? ← breaks ((← remaining) + 1)
    match breaks? with
    | none => return []
    | some breaks =>
      return (if b != '\n' then [b] else if breaks.isEmpty then [' '] else []) ++ breaks
where
  /-- The empty lines that follow. -/
  breaks : Nat → Lexer (Option (List Char))
    | 0 => return some []
    | bound + 1 => do
      if ← atSeparator then return none
      skipSpaces
      match ← lineBreak? with
      | some b => return (← breaks bound).map (b :: ·)
      | none => return some []

/-- The length of a plain word: it ends at a gap, at a colon before a gap, and in flow collections
at brackets, commas and question marks. -/
def plainLength (inFlow : Bool) : List Char → Nat
  | [] => 0
  | c :: rest =>
    let next := rest.head?
    if isGap (some c) then 0
    else if c == ':' &&
      (isGap next || (inFlow &&
        (next.map fun n => ",[]\x7b\x7d".toList.contains n).getD false)) then 0
    else if inFlow && ",?[]\x7b\x7d".toList.contains c then 0
    else plainLength inFlow rest + 1

/-- The words of a plain scalar, `gap` being what stands before the next one. -/
def plainWords (indent : Int) (gap : List Char) : Nat → Lexer (List Char)
  | 0 => return []
  | bound + 1 => do
    let s ← get
    let length := if (← peek 0) == some '#' then 0 else plainLength (s.flow != 0) s.cursor.rest
    if length == 0 then return []
    let word := s.cursor.rest.take length
    allowKey false
    forward length
    let gap' ← plainGap
    let s ← get
    if gap'.isEmpty || (← peek 0) == some '#' || (s.flow == 0 && s.cursor.column < indent) then
      return gap ++ word
    return gap ++ word ++ (← plainWords indent gap' bound)

def plainScalar : Lexer Token := do
  let indent := (← get).indent + 1
  let text ← plainWords indent [] ((← remaining) + 1)
  return .scalar (String.ofList text) true

/-- How a block scalar ends: without line end, with one, or with all. -/
inductive Chomp where
  | strip
  | clip
  | keep

/-- The marks after the sign of a block scalar. -/
def blockMarks : Lexer (Chomp × Option Nat) := do
  let sign? : Lexer (Option Chomp) := do
    match ← peek 0 with
    | some '+' =>
      forward 1
      return some .keep
    | some '-' =>
      forward 1
      return some .strip
    | _ => return none
  let depth? : Lexer (Option Nat) := do
    match ← peek 0 with
    | some c =>
      if c.isDigit then
        if c == '0' then malformed
        forward 1
        return some (c.toNat - 48)
      else return none
    | none => return none
  let first ← sign?
  let depth ← depth?
  let chomp ← if first.isNone && depth.isSome then sign? else pure first
  let c ← peek 0
  unless c == some ' ' || isLineEnd c do malformed
  return (chomp.getD .clip, depth)

/-- Empty lines before the first line of a block scalar, and the deepest column reached in them. -/
def leadingLines (deepest : Nat) : Nat → Lexer (List Char × Nat)
  | 0 => return ([], deepest)
  | bound + 1 => do
    match ← peek 0 with
    | some ' ' =>
      forward 1
      leadingLines (max deepest (← cursor).column) bound
    | _ =>
      match ← lineBreak? with
      | some b =>
        let (breaks, deepest) ← leadingLines deepest bound
        return (b :: breaks, deepest)
      | none => return ([], deepest)

/-- Spaces up to a column. -/
def indentTo (column : Int) : Nat → Lexer Unit
  | 0 => return
  | bound + 1 => do
    if (← cursor).column < column && (← peek 0) == some ' ' then
      forward 1
      indentTo column bound

/-- Empty lines between the lines of a block scalar. -/
def blockBreaks (column : Int) : Nat → Lexer (List Char)
  | 0 => return []
  | bound + 1 => do
    indentTo column ((← remaining) + 1)
    match ← lineBreak? with
    | some b => return b :: (← blockBreaks column bound)
    | none => return []

/-- The lines of a block scalar from one that is deep enough. `breaks` are the empty lines before
it. -/
def blockLines (folded : Bool) (chomp : Chomp) (column : Int) (breaks : List Char) :
    Nat → Lexer (List Char)
  | 0 => return []
  | bound + 1 => do
    let startsBlank := (← peek 0) == some ' ' || (← peek 0) == some '\t'
    let text ← run (!isBreak ·)
    let lineEnd ← lineBreak?
    let ending := lineEnd.toList
    let after ← blockBreaks column ((← remaining) + 1)
    let next ← peek 0
    if (← cursor).column == column && next.isSome then
      let nextBlank := next == some ' ' || next == some '\t'
      let joint :=
        if folded && lineEnd == some '\n' && !startsBlank && !nextBlank then
          (if after.isEmpty then [' '] else [])
        else ending
      return breaks ++ text ++ joint ++ (← blockLines folded chomp column after bound)
    else
      let tail :=
        match chomp with
        | .strip => []
        | .clip => ending
        | .keep => ending ++ after
      return breaks ++ text ++ tail

def blockScalar (folded : Bool) : Lexer Token := do
  forward 1
  let (chomp, depth) ← blockMarks
  finishLine
  let least := max 1 ((← get).indent + 1)
  let bound := (← remaining) + 1
  let (breaks, column) ←
    match depth with
    | some d =>
      let column : Int := least + d - 1
      pure (← blockBreaks column bound, column)
    | none =>
      let (breaks, deepest) ← leadingLines 0 bound
      pure (breaks, max least (deepest : Int))
  let text ←
    if (← cursor).column == column && (← peek 0).isSome then
      blockLines folded chomp column breaks bound
    else
      match chomp with
      | .keep => pure breaks
      | _ => pure []
  return .scalar (String.ofList text) false

def wordName : Lexer String := do
  let cs ← run isWordChar
  if cs.isEmpty then malformed
  return String.ofList cs

def anchorName : Lexer String := do
  forward 1
  let name ← wordName
  let c ← peek 0
  unless isGap c || (c.map fun c => "?:,]\x7d%@\x60".toList.contains c).getD false do malformed
  return name

/-- A handle such as `!` or `!name!`. -/
def tagHandle : Lexer String := do
  unless (← peek 0) == some '!' do malformed
  if (← peek 1) == some ' ' then
    forward 1
    return "!"
  forward 1
  let name ← run isWordChar
  unless (← peek 0) == some '!' do malformed
  forward 1
  return String.ofList ('!' :: name ++ ['!'])

/-- Bytes written as percent signs with two digits each. -/
def escapedBytes : Nat → Lexer (List UInt8)
  | 0 => return []
  | bound + 1 => do
    if (← peek 0) == some '%' then
      forward 1
      let n ← hexNumber 2
      return UInt8.ofNat n :: (← escapedBytes bound)
    return []

def uriParts : Nat → Lexer (List Char)
  | 0 => return []
  | bound + 1 => do
    match ← peek 0 with
    | some '%' =>
      let bytes ← escapedBytes ((← remaining) + 1)
      match Text.decode bytes with
      | .ok cs => return cs ++ (← uriParts bound)
      | .error _ => malformed
    | some c =>
      if isUriChar c then
        forward 1
        return c :: (← uriParts bound)
      else return []
    | none => return []

def tagUri : Lexer String := do
  let start := (← remaining)
  let cs ← uriParts (start + 1)
  if (← remaining) == start then malformed
  return String.ofList cs

/-- A tag: a full name in angle brackets, a lone exclamation mark, or a handle with a name. -/
def tag : Lexer Token := do
  let c ← peek 1
  let t ←
    if c == some '<' then
      forward 2
      let name ← tagUri
      unless (← peek 0) == some '>' do malformed
      forward 1
      pure (Token.tag none name)
    else if isGap c then
      forward 1
      pure (Token.tag none "!")
    else
      let word := ((← cursor).rest.drop 1).takeWhile fun c => c != ' ' && !isBreak c
      let handle ← if word.contains '!' then tagHandle else
        forward 1
        pure "!"
      pure (Token.tag (some handle) (← tagUri))
  let c ← peek 0
  unless c == some ' ' || isLineEnd c do malformed
  return t

def versionNumber : Lexer Nat := do
  let cs ← run Char.isDigit
  if cs.isEmpty then malformed
  return cs.foldl (fun n c => 10 * n + (c.toNat - 48)) 0

def directive : Lexer Token := do
  forward 1
  let name ← wordName
  let c ← peek 0
  unless c == some ' ' || isLineEnd c do malformed
  let d ←
    match name with
    | "YAML" =>
      skipSpaces
      let major ← versionNumber
      unless (← peek 0) == some '.' do malformed
      forward 1
      let _ ← versionNumber
      pure (Directive.version major)
    | "TAG" =>
      skipSpaces
      let handle ← tagHandle
      unless (← peek 0) == some ' ' do malformed
      skipSpaces
      pure (Directive.tag handle (← tagUri))
    | _ =>
      let _ ← run (!isBreak ·)
      pure Directive.other
  let c ← peek 0
  unless c == some ' ' || isLineEnd c do malformed
  finishLine
  return .directive d

end ThemedCss.Yaml.Lexer
