import ThemedCss.Data.Value
import ThemedCss.Report.Markup

/-! Nested data as an outline. -/
namespace ThemedCss.Report
open ThemedCss.Data

/-- A line of an outline with those below it. -/
inductive Branch where
  | node (label : String) (below : List Branch)

mutual
def branches : List (Value × Value) → List Branch
  | [] => []
  | (k, v) :: rest => branch (escape k.shown) v :: branches rest

/-- Mappings go on below their key, other values stand beside it. -/
def branch (key : String) : Value → Branch
  | .map entries => .node (styled "bold" key) (branches entries)
  | v => .node (key ++ " " ++ styled "info" ("= " ++ escape v.shown)) []
end

/-- The lines of a label, the first after one guide and the others after another. -/
def labelLines? (first other label : String) : Option (List String) :=
  (lines? label.toList).map fun ls =>
    match ls with
    | [] => []
    | l :: rest => (first ++ String.ofList l) :: rest.map fun l => other ++ String.ofList l

mutual
/-- The lines of branches that stand below one another after `guide`. -/
def branchLines? (guide : String) : List Branch → Option (List String)
  | [] => some []
  | [.node label below] => nodeLines? (guide ++ "└── ") (guide ++ "    ") label below
  | .node label below :: next :: rest => do
    return (← nodeLines? (guide ++ "├── ") (guide ++ "│   ") label below) ++
      (← branchLines? guide (next :: rest))

def nodeLines? (first other label : String) : List Branch → Option (List String)
  | below => do return (← labelLines? first other label) ++ (← branchLines? other below)
end

def outline? (label : String) (entries : List (Value × Value)) : Option (List String) := do
  return (← labelLines? "" "" label) ++ (← branchLines? "" (branches entries))

end ThemedCss.Report
