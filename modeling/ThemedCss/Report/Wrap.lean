import ThemedCss.Report.Width
import ThemedCss.Text.Basic

/-! Lines that are cut or go on below when there is no room for them. -/
namespace ThemedCss.Report
open ThemedCss.Text

/-- Characters that are shown in one place, and the columns they take. -/
structure Glyph where
  text : List Char
  columns : Nat
deriving DecidableEq, Repr

/-- The glyphs of a text so far, the last one first. `joining` tells that the next character joins
the last one, and `growing` is a character that may still grow. -/
structure Glyphs where
  done : List Glyph
  joining : Bool
  growing : Option Char

namespace Glyphs

/-- A character that goes with the last glyph, if there is one. -/
def attach (g : Glyphs) (c : Char) (more : Nat) : Glyphs :=
  match g.done with
  | [] => { g with done := [⟨[c], 0⟩], joining := false }
  | last :: rest => { g with done := ⟨last.text ++ [c], last.columns + more⟩ :: rest }

def push (g : Glyphs) (c : Char) : Glyphs :=
  if g.joining then { g.attach c 0 with joining := false }
  else if c == joiner then { g with joining := true }.attach c 0
  else if c == emojiMark then
    if g.growing.any (inRanges growingRanges) then { g.attach c 1 with growing := none }
    else g.attach c 0
  else if columns c = 0 then g.attach c 0
  else { g with done := ⟨[c], columns c⟩ :: g.done, growing := some c }

end Glyphs

def glyphs (cs : List Char) : List Glyph :=
  (cs.foldl Glyphs.push ⟨[], false, none⟩).done.reverse

/-- As many glyphs as fit into `room` columns; half a glyph is a blank. -/
def cropGlyphs (room : Nat) : List Glyph → List Char
  | [] => []
  | g :: rest =>
    if g.columns ≤ room then g.text ++ cropGlyphs (room - g.columns) rest
    else if room = 0 then []
    else [' ']

def crop (room : Nat) (cs : List Char) : List Char :=
  cropGlyphs room (glyphs cs)

/-- Glyphs in parts of at most `limit` columns; `part` is the one being filled. -/
def chopGlyphs (limit : Nat) (part : List Char) (filled : Nat) : List Glyph → List (List Char)
  | [] => [part]
  | g :: rest =>
    if filled + g.columns ≤ limit then chopGlyphs limit (part ++ g.text) (filled + g.columns) rest
    else part :: chopGlyphs limit g.text g.columns rest

/-- Runs of characters that start where a blank is followed by another character. -/
def blankRuns : List Char → List (List Char)
  | [] => []
  | c :: rest =>
    match blankRuns rest with
    | [] => [[c]]
    | run :: runs =>
      if isBlank c && !(run.head?.all isBlank) then [c] :: run :: runs else (c :: run) :: runs

/-- Words with the blanks after them; the first has those before it too. -/
def wordRuns (cs : List Char) : List (List Char) :=
  match blankRuns cs with
  | first :: second :: runs =>
    if first.all isBlank then (first ++ second) :: runs else first :: second :: runs
  | runs => runs

/-- What is done with a word that is longer than a line: it is cut, or it goes on below. -/
inductive Overflow where
  | cut | below
deriving DecidableEq, Repr

/-- Spread words over lines of `limit` columns. `line` is the one being filled, of which `filled`
columns are taken. -/
def wrapWords (limit : Nat) (overflow : Overflow) (line : List Char) (filled : Nat) :
    List (List Char) → List (List Char)
  | [] => [line]
  | word :: rest =>
    let need := width (trimEnd word)
    let before := if line.isEmpty then [] else [line]
    if filled + need ≤ limit then wrapWords limit overflow (line ++ word) (filled + width word) rest
    else if need ≤ limit || overflow = .cut then
      before ++ wrapWords limit overflow word (width word) rest
    else
      let parts := chopGlyphs limit [] 0 (glyphs word)
      let last := parts.getLastD []
      before ++ parts.dropLast ++ wrapWords limit overflow last (width last) rest

/-- Take blanks off the end of a line that has more than `limit` characters. -/
def stripEnd (limit : Nat) (line : List Char) : List Char :=
  let blanks := line.length - (trimEnd line).length
  line.take (line.length - min blanks (line.length - limit))

/-- A line with no more than `limit` columns. A cut word ends in an ellipsis. -/
def truncate (limit : Nat) (overflow : Overflow) (line : List Char) : List Char :=
  if width line ≤ limit then line
  else if overflow = .cut then crop (limit - 1) line ++ ['…']
  else crop limit line

def wrap (limit : Nat) (overflow : Overflow) (text : List Char) : List (List Char) :=
  (splitWhere (· == '\n') text).flatMap fun line =>
    (wrapWords limit overflow [] 0 (wordRuns (expandTabs line))).map fun part =>
      truncate limit overflow (stripEnd limit part)

def endsLine (c : Char) : Bool :=
  let n := c.toNat
  (10 ≤ n && n ≤ 13) || (28 ≤ n && n ≤ 30) || n == 0x85 || n == 0x2028 || n == 0x2029

/-- The columns that the longest line of a text asks for. Tabs ask for none. -/
def wantedWidth (text : List Char) : Nat :=
  ((splitWhere endsLine text).map width).foldl max 0

end ThemedCss.Report
