import ThemedCss.Syntax.Node

/-! The names that patterns, declarations and assignments bind or change. -/
namespace ThemedCss.Syntax.Node

mutual
/-- Every name bound by a pattern, nested ones included. -/
def patternNames : Node → List String
  | ⟨kind, _, _, _, text, children⟩ =>
    match kind with
    | .identifier | .shorthandPattern => [text]
    | .requiredParameter | .optionalParameter => patternNamesAt .pattern children
    | .assignmentPattern | .shorthandDefault => patternNamesAt .left children
    | .pairPattern => patternNamesAt .value children
    | .objectPattern | .arrayPattern | .restPattern | .formalParameters => patternNamesAll children
    | _ => []

def patternNamesAt (role : Role) : List Node → List String
  | [] => []
  | n :: ns => if n.role = role then n.patternNames else patternNamesAt role ns

def patternNamesAll : List Node → List String
  | [] => []
  | n :: ns => n.patternNames ++ patternNamesAll ns
end

def declarators (n : Node) : List Node :=
  n.children.filter (·.kind == .declarator)

def declaredNames (n : Node) : List String :=
  match n.kind with
  | .lexicalDeclaration | .variableDeclaration =>
    n.declarators.flatMap (patternNamesAt .name ·.children)
  | .functionDeclaration | .generatorDeclaration | .classDeclaration =>
    ((n.child? .name).map (·.text)).toList
  | _ => []

mutual
/-- The names `var` declares in a node that is part of a function body; nested functions keep their
own. -/
def hoistedNames : Node → List String
  | ⟨kind, role, start, stop, text, children⟩ =>
    if kind.isFunction then []
    else if kind = .variableDeclaration then
      declaredNames ⟨kind, role, start, stop, text, children⟩ ++ hoistedNamesAll children
    else hoistedNamesAll children

def hoistedNamesAll : List Node → List String
  | [] => []
  | n :: ns => n.hoistedNames ++ hoistedNamesAll ns
end

mutual
/-- The names whose value changes when the node is assigned: to assign `a.b` changes `a`. -/
def writtenNames : Node → List String
  | ⟨kind, role, start, stop, text, children⟩ =>
    match kind with
    | .member | .subscript | .parenthesized =>
      (writtenNamesAt .object children).getD (writtenNamesFirst children)
    | _ => patternNames ⟨kind, role, start, stop, text, children⟩

def writtenNamesAt (role : Role) : List Node → Option (List String)
  | [] => none
  | n :: ns => if n.role = role then some n.writtenNames else writtenNamesAt role ns

def writtenNamesFirst : List Node → List String
  | [] => []
  | n :: ns => if n.kind.isNamed then n.writtenNames else writtenNamesFirst ns
end

/-- The names an assignment, an update or a loop head without a declaration changes. -/
def reassignedNames (n : Node) : List String :=
  match n.kind with
  | .assignment | .augmentedAssignment => (writtenNamesAt .left n.children).getD []
  | .update => (writtenNamesAt .argument n.children).getD []
  | .forInStatement => if (n.child? .binding).isSome then [] else patternNamesAt .left n.children
  | _ => []

end ThemedCss.Syntax.Node
