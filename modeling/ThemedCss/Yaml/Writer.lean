import ThemedCss.Data.Graph
import ThemedCss.Text.Base64
import ThemedCss.Yaml.Literal

/-! Data as YAML text in block style, with the keys of mappings in order. -/
namespace ThemedCss.Yaml
open ThemedCss.Data ThemedCss.Number ThemedCss.Text

/-- What the characters of a scalar allow. -/
structure Analysis where
  empty : Bool
  multiline : Bool
  /-- It may stand without quotes. -/
  plain : Bool
  /-- It may stand in single quotes. -/
  single : Bool
  /-- It may stand as a literal block. -/
  block : Bool

/-- What is seen while reading a scalar from left to right. -/
structure Marks where
  indicators : Bool := false
  lineBreaks : Bool := false
  special : Bool := false
  breakSpace : Bool := false
  spaceBreak : Bool := false

/-- Look at the characters after `before`, which is none at the start. -/
def marksOf (m : Marks) (before : Option Char) : List Char → Marks
  | [] => m
  | c :: rest =>
    let afterGap := isGap before
    let beforeGap := isGap rest.head?
    let indicator :=
      match before with
      | none =>
        "#,[]\x7b\x7d&*!|>'\"%@\x60".toList.contains c ||
          ((c == '?' || c == ':' || c == '-') && beforeGap)
      | some _ => (c == ':' && beforeGap) || (c == '#' && afterGap)
    let m :=
      { indicators := m.indicators || indicator
        lineBreaks := m.lineBreaks || isBreak c
        special := m.special || !(c == '\n' || (0x20 ≤ c.toNat && c.toNat ≤ 0x7E))
        breakSpace := m.breakSpace || (c == ' ' && before.any isBreak)
        spaceBreak := m.spaceBreak || (isBreak c && before == some ' ') }
    marksOf m (some c) rest

def analyze (s : String) : Analysis :=
  let cs := s.toList
  if cs.isEmpty then ⟨true, false, true, true, false⟩
  else
    let m := marksOf {} none cs
    let separator := s.startsWith "---" || s.startsWith "..."
    let edge (c : Option Char) : Bool := c.any fun c => c == ' ' || isBreak c
    let edges := edge cs.head? || edge cs.getLast?
    let broken := m.spaceBreak || m.special
    { empty := false
      multiline := m.lineBreaks
      plain := !(edges || m.breakSpace || broken || m.lineBreaks || m.indicators || separator)
      single := !(m.breakSpace || broken)
      block := !(cs.getLast? == some ' ' || broken) }

/-- The text written so far, the column reached, whether a blank stands before, whether only blanks
and dashes stand in the line, whether the document needs an end mark, and the places of the cells
that are written already. -/
structure Page where
  text : List String
  column : Nat
  blank : Bool
  margin : Bool
  openEnded : Bool
  written : List Nat

namespace Page

def empty : Page :=
  ⟨[], 0, true, true, false, []⟩

/-- Lines are broken after this column. -/
def width : Nat := 80

def write (s : String) (p : Page) : Page :=
  { p with text := s :: p.text, column := p.column + s.length }

def newLine (p : Page) (c : String) : Page :=
  { p with text := c :: p.text, column := 0, blank := true, margin := true }

/-- Go to a column, on a new line if need be. -/
def indentTo (column : Nat) (p : Page) : Page :=
  let p :=
    if !p.margin || column < p.column || (p.column == column && !p.blank) then p.newLine "\n" else p
  if p.column < column then
    { p.write (String.ofList (List.replicate (column - p.column) ' ')) with blank := true }
  else p

/-- A mark, with a blank before it if one is needed. `margin` tells whether the line stays a margin
after it. -/
def indicator (mark : String) (spaced thenBlank margin : Bool) (p : Page) : Page :=
  let p := { p.write (if p.blank || !spaced then mark else " " ++ mark) with openEnded := false }
  { p with blank := thenBlank, margin := p.margin && margin }

end Page

/-- Words of a text: a run of blanks, a run of line ends, or a run of other characters. -/
inductive Piece where
  | word (s : List Char)
  | blanks (n : Nat)
  | breaks (s : List Char)

def pieces : List Char → List Piece
  | [] => []
  | c :: rest =>
    let tail := pieces rest
    if c == ' ' then
      match tail with
      | .blanks n :: more => .blanks (n + 1) :: more
      | _ => .blanks 1 :: tail
    else if isBreak c then
      match tail with
      | .breaks s :: more => .breaks (c :: s) :: more
      | _ => .breaks [c] :: tail
    else
      match tail with
      | .word s :: more => .word (c :: s) :: more
      | _ => .word [c] :: tail

def spaces (n : Nat) : String :=
  String.ofList (List.replicate n ' ')

/-- Words without quotes. A single blank may become a line end. -/
def writePlain (indent : Nat) (split : Bool) : List Piece → Page → Page
  | [], p => p
  | .blanks n :: rest, p =>
    let p :=
      if n == 1 && Page.width < p.column && split && !rest.isEmpty then
        { p.indentTo indent with blank := false, margin := false }
      else p.write (spaces n)
    writePlain indent split rest p
  | .word s :: rest, p => writePlain indent split rest (p.write (String.ofList s))
  | .breaks _ :: rest, p => writePlain indent split rest p

def plain (indent : Nat) (split root : Bool) (s : String) (p : Page) : Page :=
  let p := { p with openEnded := p.openEnded || root }
  if s.isEmpty then p
  else
    let p := if p.blank then p else p.write " "
    writePlain indent split (pieces s.toList) { p with blank := false, margin := false }

/-- Words in single quotes. A single blank inside may become a line end, and a line end is written
twice. -/
def writeSingle (indent : Nat) (split first : Bool) : List Piece → Page → Page
  | [], p => p
  | .blanks n :: rest, p =>
    let p :=
      if n == 1 && Page.width < p.column && split && !first && !rest.isEmpty then p.indentTo indent
      else p.write (spaces n)
    writeSingle indent split false rest p
  | .breaks s :: rest, p =>
    let p := if s.head? == some '\n' then p.newLine "\n" else p
    let p := s.foldl (fun p c => p.newLine c.toString) p
    writeSingle indent split false rest (p.indentTo indent)
  | .word s :: rest, p =>
    let doubled := s.flatMap fun c => if c == '\'' then ['\'', '\''] else [c]
    writeSingle indent split false rest (p.write (String.ofList doubled))

def single (indent : Nat) (split : Bool) (s : String) (p : Page) : Page :=
  let p := p.indicator "'" true false false
  (writeSingle indent split true (pieces s.toList) p).indicator "'" false false false

def escapeNames : List (Nat × String) :=
  [(0, "0"), (7, "a"), (8, "b"), (9, "t"), (10, "n"), (11, "v"), (12, "f"), (13, "r"), (27, "e"),
   (34, "\""), (92, "\\"), (0x85, "N"), (0xA0, "_"), (0x2028, "L"), (0x2029, "P")]

/-- A character between double quotes, if it has to be escaped. -/
def escape? (c : Char) : Option String :=
  let n := c.toNat
  if c != '"' && c != '\\' && 0x20 ≤ n && n ≤ 0x7E then none
  else
    match escapeNames.lookup n with
    | some name => some ("\\" ++ name)
    | none =>
      let hex (width : Nat) := (hexDigits width n).toUpper
      some (if n ≤ 0xFF then "\\x" ++ hex 2
        else if n ≤ 0xFFFF then "\\u" ++ hex 4
        else "\\U" ++ hex 8)

/-- Characters in double quotes. `pending` are those not written yet, in reverse; a line may be
broken at a blank or after an escape. -/
def writeDouble (indent : Nat) (split first : Bool) (pending : List Char) : List Char → Page → Page
  | [], p => if pending.isEmpty then p else p.write (String.ofList pending.reverse)
  | c :: rest, p =>
    let escaped := escape? c
    let (p, pending, fresh) :=
      match escaped with
      | some e =>
        ((if pending.isEmpty then p else p.write (String.ofList pending.reverse)).write e, [], true)
      | none => (p, pending, pending.isEmpty)
    let reached := if escaped.isSome then p.column - 1 else p.column + pending.length
    let breaks := !first && !rest.isEmpty && (c == ' ' || fresh) && Page.width < reached && split
    if breaks then
      let p := (p.write (String.ofList pending.reverse ++ "\\")).indentTo indent
      let p := { p with blank := false, margin := false }
      match escaped with
      | some _ =>
        let p := if rest.head? == some ' ' then p.write "\\" else p
        writeDouble indent split false [] rest p
      | none =>
        let p := if c == ' ' then p.write "\\" else p
        writeDouble indent split false [c] rest p
    else
      match escaped with
      | some _ => writeDouble indent split false [] rest p
      | none => writeDouble indent split false (c :: pending) rest p

def double (indent : Nat) (split : Bool) (s : String) (p : Page) : Page :=
  let p := p.indicator "\"" true false false
  (writeDouble indent split true [] s.toList p).indicator "\"" false false false

/-- Lines below a mark, each of them complete. -/
def literal (indent : Nat) (lines : List String) (p : Page) : Page :=
  let p := (p.indicator "|" true false false).newLine "\n"
  lines.foldl (fun p line => ((p.indentTo indent).write line).newLine "\n") p

def scalarForm : Value → Option (String × Tag)
  | .null => some ("null", .null)
  | .bool b => some (if b then "true" else "false", .bool)
  | .int n => some (toString n, .int)
  | .float x =>
    let s := match x with
      | .nan => ".nan"
      | .infinite negative => if negative then "-.inf" else ".inf"
      | _ => x.text
    let cs := s.toList
    some (if cs.contains '.' || !cs.contains 'e' then s
      else String.ofList (cs.takeWhile (· != 'e') ++ ".0".toList ++ cs.dropWhile (· != 'e')),
        .float)
  | .text s => some (s, .text)
  | .date d => some (d.text, .time)
  | .moment t => some (t.text " ", .time)
  | _ => none

def tagWidth : Tag → Nat
  | .null | .bool => 6
  | .float => 7
  | .binary => 8
  | .time => 11
  | _ => 5

structure Spot where
  root : Bool
  /-- It is a value of a mapping. -/
  inMapping : Bool
  /-- It is a key on one line. -/
  asKey : Bool

def writeScalar (indent : Nat) (spot : Spot) (s : String) (tag : Tag) (p : Page) : Page :=
  let a := analyze s
  let split := !spot.asKey
  if Literal.tagOf s == tag && a.plain && !(spot.asKey && (a.empty || a.multiline)) then
    plain indent split spot.root s p
  else if a.single && !(spot.asKey && a.multiline) then single indent split s p
  else double indent split s p

/-- Lines of 76 characters. -/
def chunksOf : Nat → List Char → List String
  | 0, _ => []
  | bound + 1, cs =>
    if cs.isEmpty then [] else String.ofList (cs.take 76) :: chunksOf bound (cs.drop 76)

/-- Bytes are split before they are encoded: each line stands for 57 of them. -/
def binaryLines (b : Bytes) : List String :=
  let cs := Base64.encodeChars b
  chunksOf cs.length cs

/-- Keys of one kind have an order. -/
def keyLess? (a b : Value) : Option Bool :=
  match a, b with
  | .text s, .text t => some (s < t)
  | .bytes s, .bytes t => some (s.map (·.toNat) < t.map (·.toNat))
  | .date d, .date e => some ([d.year, d.month, d.day] < [e.year, e.month, e.day])
  | .moment t, .moment u =>
    if t.offset.isSome == u.offset.isSome then some (t.instant < u.instant) else none
  | _, _ =>
    let number : Value → Option Double := fun v =>
      match v with
      | .float x => some x
      | _ => v.int?.map Double.ofInt
    match a.int?, b.int? with
    | some m, some n => some (m < n)
    | _, _ => do return (← number a).less (← number b)

/-- The length of the run that a list starts with: items none of which is less than the one before,
or, if `falling`, all of which are. -/
def runLength {α : Type} (less : α → α → Bool) (falling : Bool) : List α → Nat
  | a :: b :: rest => if less b a == falling then runLength less falling (b :: rest) + 1 else 1
  | items => items.length

/-- Where an item goes between the positions `low` and `high` of a sorted list: the middle is asked
first, and an item goes after those it is not less than. -/
def searchPosition {α : Type} (less : α → α → Bool) (items : Array α) (a : α) :
    Nat → Nat → Nat → Nat
  | 0, low, _ => low
  | bound + 1, low, high =>
    if low < high then
      let middle := (low + high) / 2
      match items[middle]? with
      | some b =>
        if less a b then searchPosition less items a bound low middle
        else searchPosition less items a bound (middle + 1) high
      | none => low
    else low

/-- Sort by insertion, from the run that the list starts with. -/
def insertionSort {α : Type} (less : α → α → Bool) (items : List α) : List α :=
  let falling :=
    match items with
    | a :: b :: _ => less b a
    | _ => false
  let n := runLength less falling items
  let run := if falling then (items.take n).reverse else items.take n
  ((items.drop n).foldl (fun (sorted : Array α) a =>
    let i := searchPosition less sorted a (sorted.size + 1) 0 sorted.size
    (sorted.toList.insertIdx i a).toArray) run.toArray).toList

/-- Sort. The items of a short list may have no order; then the way they are compared tells. -/
def sortItems {α : Type} (less : α → α → Bool) (items : List α) : List α :=
  if items.length < 64 then insertionSort less items else items.mergeSort fun a b => !less b a

/-- Entries in the order of their keys; if some keys cannot be compared, as they are. -/
def sortEntries (cells : Array Cell) (entries : List (Part × Part)) : List (Part × Part) :=
  let key (e : Part × Part) : Value := (Graph.lone? cells e.1).getD .null
  match entries with
  | [] => []
  | first :: _ =>
    if entries.length == 1 || entries.all fun e => (keyLess? (key first) (key e)).isSome then
      sortItems (fun a b => (keyLess? (key a) (key b)).getD false) entries
    else entries

/-- The parts of a cell in the order in which they are written. -/
def writtenParts (cells : Array Cell) : Cell → List Part
  | .lone _ => []
  | .list items => items
  | .pair a b => [a, b]
  | .set members => (sortEntries cells (members.map (·, .plain .null))).map (·.1)
  | .map entries => (sortEntries cells entries).flatMap fun (k, v) => [k, v]

/-- Numbers have no names. -/
def hasName : Cell → Bool
  | .lone (.float _) => false
  | _ => true

/-- The places met on the way through a part, and those of them that were met again, in the order in
which they were. -/
def sharedFrom (cells : Array Cell) : Nat → List Nat × List Nat → Part → List Nat × List Nat
  | _, found, .plain _ => found
  | 0, found, .cell _ => found
  | bound + 1, (met, shared), .cell p =>
    match cells[p]? with
    | none => (met, shared)
    | some c =>
      if !hasName c then (met, shared)
      else if met.contains p then (met, if shared.contains p then shared else shared ++ [p])
      else (writtenParts cells c).foldl (sharedFrom cells bound) (p :: met, shared)

def shared (g : Graph) : List Nat :=
  (sharedFrom g.cells (g.cells.size + 1) ([], []) g.root).2

def anchor? (shared : List Nat) : Part → Option String
  | .plain _ => none
  | .cell p =>
    if shared.contains p then some ("id" ++ digits 3 (shared.findIdx (· == p) + 1)) else none

def isWritten (p : Page) : Part → Bool
  | .plain _ => false
  | .cell place => p.written.contains place

/-- Whether a key fits on one line before its value. -/
def isSimpleKey (cells : Array Cell) (shared : List Nat) (p : Page) (k : Part) : Bool :=
  let name := (anchor? shared k).getD ""
  if isWritten p k && !name.isEmpty then true
  else
    match Graph.lone? cells k with
    | some (.bytes _) | none => false
    | some v =>
      match scalarForm v with
      | some (s, tag) =>
        let a := analyze s
        name.length + tagWidth tag + s.length < 128 && !a.empty && !a.multiline
      | none => false

/-- Write a part below a column; there is none at the root. A shared cell is written once, with its
name. -/
def writePart (cells : Array Cell) (shared : List Nat) :
    Nat → Option Nat → Spot → Part → Page → Page
  | 0, _, _, _, p => p
  | depth + 1, column, spot, part, p =>
    let writeBelow := writePart cells shared depth
    let entries (es : List (Part × Part)) (p : Page) : Page :=
      if es.isEmpty then (p.indicator "\x7b" true true false).indicator "\x7d" false false false
      else
        let here := (column.map (· + 2)).getD 0
        es.foldl
          (fun p (k, v) =>
            let p := p.indentTo here
            if isSimpleKey cells shared p k then
              let p := writeBelow (some here) ⟨false, true, true⟩ k p
              writeBelow (some here) ⟨false, true, false⟩ v (p.indicator ":" false false false)
            else
              let p :=
                writeBelow (some here) ⟨false, true, false⟩ k (p.indicator "?" true false true)
              writeBelow (some here) ⟨false, true, false⟩ v
                ((p.indentTo here).indicator ":" true false true)) p
    let items (parts : List Part) (p : Page) : Page :=
      if parts.isEmpty then (p.indicator "[" true true false).indicator "]" false false false
      else
        let here :=
          match column with
          | none => 0
          | some c => if spot.inMapping && !p.margin then c else c + 2
        parts.foldl
          (fun p v => writeBelow (some here) ⟨false, false, false⟩ v
            ((p.indentTo here).indicator "-" true false true)) p
    let scalar (v : Value) (p : Page) : Page :=
      let indent := (column.map (· + 2)).getD 2
      match v with
      | .bytes b =>
        let p := p.indicator "!!binary" true false false
        if b.isEmpty || spot.asKey then double indent (!spot.asKey) (String.join (binaryLines b)) p
        else literal indent (binaryLines b) p
      | _ =>
        match scalarForm v with
        | some (s, tag) => writeScalar indent spot s tag p
        | none => p
    match part with
    | .plain v => scalar v p
    | .cell place =>
      let name? := anchor? shared part
      match name? with
      | some name =>
        if p.written.contains place then p.indicator ("*" ++ name) true false false
        else
          let p := p.indicator ("&" ++ name) true false false
          content entries items scalar place { p with written := place :: p.written }
      | none => content entries items scalar place p
where
  /-- What a cell holds. -/
  content (entries : List (Part × Part) → Page → Page) (items : List Part → Page → Page)
    (scalar : Value → Page → Page)
      (place : Nat) (p : Page) : Page :=
    match cells[place]? with
    | none => p
    | some (.lone v) => scalar v p
    | some (.list parts) => items parts p
    | some (.pair a b) => items [a, b] p
    | some (.map es) => entries (sortEntries cells es) p
    | some (.set members) =>
      entries (sortEntries cells (members.map (·, .plain .null)))
        (p.indicator "!!set" true false false)

def write (g : Graph) : String :=
  let p := writePart g.cells (shared g) (g.cells.size + 2) none ⟨true, false, false⟩ g.root .empty
  let p := p.indentTo 0
  let p := if p.openEnded then (p.indicator "..." true false false).indentTo 0 else p
  String.join p.text.reverse

end ThemedCss.Yaml
