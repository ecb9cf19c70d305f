import ThemedCss.Report.Emoji
import ThemedCss.Report.Style
import ThemedCss.Report.Width

/-! Text with style tags in brackets, and the plain text it shows. -/
namespace ThemedCss.Report
open ThemedCss.Text

/-- Whether a bracket before this character opens a tag. -/
def startsTag (c : Char) : Bool :=
  ('a' ≤ c && c ≤ 'z') || c == '#' || c == '/' || c == '@'

/-- The tag whose opening bracket stands before the given text. -/
def tag? : List Char → Option (List Char)
  | [] => none
  | c :: rest =>
    let body := rest.takeWhile fun c => c != '[' && c != ']'
    if startsTag c && (rest.drop body.length).head? == some ']' then some (c :: body) else none

inductive Piece where
  | plain (text : List Char)
  | tag (body : List Char)
deriving DecidableEq, Repr

/-- Split a marked text. `text` is the plain text just before, backwards, and `slashes` counts the
backslashes after it, of which an odd one makes a tag plain text. The first `skip` characters are
already read. -/
def pieces (text : List Char) : Nat → Nat → List Char → List Piece
  | slashes, _, [] => [.plain (text.reverse ++ List.replicate slashes '\\')]
  | slashes, skip + 1, _ :: rest => pieces text slashes skip rest
  | slashes, 0, c :: rest =>
    if c == '\\' then pieces text (slashes + 1) 0 rest
    else if c == '[' then
      match tag? rest with
      | some body =>
        let here := if slashes % 2 == 1 then Piece.plain ('[' :: body ++ [']']) else .tag body
        .plain text.reverse :: .plain (List.replicate (slashes / 2) '\\') :: here ::
          pieces [] 0 (body.length + 1) rest
      | none => pieces ('[' :: List.replicate (slashes - 1) '\\' ++ text) 0 0 rest
    else pieces (c :: List.replicate slashes '\\' ++ text) 0 0 rest

/-- The text of some pieces, or nothing if a style is closed that is not open. `stack` holds the
open styles. -/
def showPieces? : List String → List Piece → Option (List Char)
  | _, [] => some []
  | stack, .plain text :: rest => (showPieces? stack rest).map (showEmoji 0 text ++ ·)
  | stack, .tag body :: rest =>
    match body.takeWhile (· != '=') with
    | '/' :: name =>
      if (trim name).isEmpty then
        if stack.isEmpty then none else showPieces? stack.tail rest
      else if stack.contains (styleName name) then showPieces? (stack.erase (styleName name)) rest
      else none
    | name => showPieces? (styleName name :: stack) rest

/-- Control characters that are not shown: bell, backspace, vertical tab, form feed and carriage
return. -/
def isHidden (c : Char) : Bool :=
  [7, 8, 11, 12, 13].contains c.toNat

/-- The plain text of a marked one. Fails if a tag is closed that is not open. -/
def plain? (cs : List Char) : Option (List Char) :=
  (showPieces? [] (pieces [] 0 0 cs)).map (·.filter (!isHidden ·))

def lines? (cs : List Char) : Option (List (List Char)) :=
  (plain? cs).map fun text => (Query.splitAt '\n' text).map expandTabs

/-- Double the backslashes before each tag and put one more there. -/
def escapeFrom : Nat → List Char → List Char
  | slashes, [] => List.replicate slashes '\\' ++ (if slashes == 1 then ['\\'] else [])
  | slashes, c :: rest =>
    if c == '\\' then escapeFrom (slashes + 1) rest
    else if c == '[' && (tag? rest).isSome then
      List.replicate (2 * slashes + 1) '\\' ++ '[' :: escapeFrom 0 rest
    else List.replicate slashes '\\' ++ c :: escapeFrom 0 rest

/-- A text in which tags count as text. -/
def escape (s : String) : String :=
  String.ofList (escapeFrom 0 s.toList)

def styled (style text : String) : String :=
  s!"[{style}]{text}[/{style}]"

end ThemedCss.Report
