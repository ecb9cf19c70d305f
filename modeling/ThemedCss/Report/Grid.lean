import ThemedCss.Report.Markup
import ThemedCss.Report.Wrap

/-! Tables with two columns. -/
namespace ThemedCss.Report
open ThemedCss.Text

def fillTo (n : Nat) (cs : List Char) : List Char :=
  cs ++ List.replicate (n - width cs) ' '

/-- The lines of a row between bars; a short cell is filled up below. -/
def rowLines (bar : String) (left right : Nat) (a b : List Char) : List String :=
  let first := wrap left .cut a
  let second := wrap right .cut b
  (List.range (max first.length second.length)).map fun i =>
    let l := String.ofList (fillTo left (first.getD i []))
    let r := String.ofList (fillTo right (second.getD i []))
    s!"{bar} {l} {bar} {r} {bar}"

/-- A line across the table. -/
def rule (start fill cross stop : Char) (left right : Nat) : String :=
  String.ofList (start :: List.replicate (left + 2) fill ++ cross ::
    List.replicate (right + 2) fill ++ [stop])

def centred (columns : Nat) (line : List Char) : String :=
  let line := trimEnd line
  String.ofList (fillTo columns (List.replicate ((columns - width line) / 2) ' ' ++ line))

/-- A table with a title and a head. All texts are marked; it fails if one of them closes a style
that is not open. -/
def grid? (title : String) (head : String × String) (rows : List (String × String)) :
    Option (List String) := do
  let title ← plain? title.toList
  let cells ← (head :: rows).mapM fun (a, b) => do return (← plain? a.toList, ← plain? b.toList)
  let left := (cells.map fun (a, _) => wantedWidth a).foldl max 0
  let right := (cells.map fun (_, b) => wantedWidth b).foldl max 0
  let across := left + right + 7
  match cells with
  | [] => none
  | (a, b) :: body =>
    return (wrap across .below title).map (centred across) ++ [rule '┏' '━' '┳' '┓' left right] ++
      rowLines "┃" left right a b ++ [rule '┡' '━' '╇' '┩' left right] ++
      (body.flatMap fun (a, b) => rowLines "│" left right a b) ++ [rule '└' '─' '┴' '┘' left right]

end ThemedCss.Report
