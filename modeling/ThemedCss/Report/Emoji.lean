import ThemedCss.Report.EmojiNames
import ThemedCss.Report.Width
import ThemedCss.Text.Basic

/-! Emoji that are written as codes: a name between colons. -/
namespace ThemedCss.Report
open ThemedCss.Text

/-- The end of a code: its length, and the mark that it asks for. -/
def codeEnd? (cs : List Char) : Option (Nat × List Char) :=
  if [':'].isPrefixOf cs then some (1, [])
  else if "-emoji:".toList.isPrefixOf cs then some (7, [emojiMark])
  else if "-text:".toList.isPrefixOf cs then some (6, [textMark])
  else none

/-- The code after a colon: its name, the mark that it asks for, and its length. There are no blanks
in a name. -/
def code? : List Char → Option (List Char × List Char × Nat)
  | [] => none
  | c :: rest =>
    match codeEnd? (c :: rest) with
    | some (length, mark) => some ([], mark, length)
    | none =>
      if isBlank c then none else (code? rest).map fun (name, mark, length) =>
        (c :: name, mark, length + 1)

def emoji? (name : List Char) : Option (List Char) :=
  (emojiNames.lookup (String.ofList (lowerAll name))).map (·.toList)

/-- A text with emoji in place of their codes. A code without a name that is known stays, with both
of its colons. The first `skip` characters are already read. -/
def showEmoji : Nat → List Char → List Char
  | _, [] => []
  | skip + 1, _ :: rest => showEmoji skip rest
  | 0, c :: rest =>
    if c == ':' then
      match code? rest with
      | some (name, mark, length) =>
        let shown := match emoji? name with
          | some emoji => emoji ++ mark
          | none => c :: rest.take length
        shown ++ showEmoji length rest
      | none => c :: showEmoji 0 rest
    else c :: showEmoji 0 rest

end ThemedCss.Report
