import ThemedCss.Syntax.Lexeme

/-! Finding the bracket that closes another one without reading what stands between them. -/
namespace ThemedCss.Syntax
namespace Lexeme

/-- What a balanced scan is inside of. -/
inductive Frame where
  | closer (c : Char)
  | quoted (c : Char)
  | template
  | lineComment
  | blockComment
  | regex
  | regexClass

/-- A slash after one of these characters opens a regular expression. -/
def precedesRegex (c : Char) : Bool :=
  "(,=:[!&|?\x7b\x7d;+-*%<>~^".toList.contains c

/-- What follows the closing of the innermost open bracket. `last` is the last character of code
seen. -/
def afterClosing (last : Char) : List Frame → List Char → Option (List Char)
  | [], cs => some cs
  | _ :: _, [] => none
  | .quoted q :: fs, '\\' :: _ :: cs => afterClosing last (.quoted q :: fs) cs
  | .quoted q :: fs, c :: cs =>
    if c == q || c == '\n' then afterClosing c fs cs else afterClosing last (.quoted q :: fs) cs
  | .template :: fs, '\\' :: _ :: cs => afterClosing last (.template :: fs) cs
  | .template :: fs, '$' :: '{' :: cs => afterClosing '{' (.closer '}' :: .template :: fs) cs
  | .template :: fs, c :: cs =>
    if c == '\x60' then afterClosing c fs cs else afterClosing last (.template :: fs) cs
  | .lineComment :: fs, c :: cs =>
    afterClosing last (if endsComment c then fs else .lineComment :: fs) cs
  | .blockComment :: fs, '*' :: '/' :: cs => afterClosing last fs cs
  | .blockComment :: fs, _ :: cs => afterClosing last (.blockComment :: fs) cs
  | .regex :: fs, '\\' :: _ :: cs => afterClosing last (.regex :: fs) cs
  | .regex :: fs, c :: cs =>
    if c == '[' then afterClosing last (.regexClass :: fs) cs
    else if c == '/' || c == '\n' then afterClosing c fs cs
    else afterClosing last (.regex :: fs) cs
  | .regexClass :: fs, '\\' :: _ :: cs => afterClosing last (.regexClass :: fs) cs
  | .regexClass :: fs, c :: cs =>
    afterClosing last (if c == ']' || c == '\n' then .regex :: fs else .regexClass :: fs) cs
  | .closer k :: fs, '/' :: '/' :: cs => afterClosing last (.lineComment :: .closer k :: fs) cs
  | .closer k :: fs, '/' :: '*' :: cs => afterClosing last (.blockComment :: .closer k :: fs) cs
  | .closer k :: fs, c :: cs =>
    if c == k then afterClosing c fs cs
    else if c == '(' then afterClosing c (.closer ')' :: .closer k :: fs) cs
    else if c == '[' then afterClosing c (.closer ']' :: .closer k :: fs) cs
    else if c == '{' then afterClosing c (.closer '}' :: .closer k :: fs) cs
    else if c == '\x60' then afterClosing c (.template :: .closer k :: fs) cs
    else if c == '"' || c == '\'' then afterClosing c (.quoted c :: .closer k :: fs) cs
    else if c == '/' && precedesRegex last then afterClosing c (.regex :: .closer k :: fs) cs
    else afterClosing (if isBlank c then last else c) (.closer k :: fs) cs

end Lexeme
end ThemedCss.Syntax
