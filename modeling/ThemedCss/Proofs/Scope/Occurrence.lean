import ThemedCss.Scope.Read

/-! Where code reads names and has effects, and which names are bound there, by the rules of the
language alone. -/
namespace ThemedCss.Scope
open ThemedCss.Syntax

/-- A name that is read or an effect, with the byte where it stands. -/
inductive Occurrence where
  | effect (pos : Nat)
  | name (name : String) (pos : Nat)
deriving DecidableEq, Repr

namespace Occurrence

def name? : Occurrence → Option String
  | effect _ => none
  | name x _ => some x

def Avoids (o : Occurrence) (names : List String) : Prop :=
  ∀ x ∈ o.name?, x ∉ names

instance (o : Occurrence) (names : List String) : Decidable (o.Avoids names) :=
  inferInstanceAs (Decidable (∀ x ∈ o.name?, x ∉ names))

end Occurrence

def Read.occurrence : Read → Occurrence
  | effect pos => .effect pos
  | name x _ pos => .name x pos

inductive Position where
  /-- Evaluated along with the node. -/
  | operand
  /-- The body of a function, which runs when the function is called. -/
  | body
  | parameter
  /-- The computed name of a method. -/
  | methodName
  | methodDecorator
  /-- What a handler of exceptions binds. -/
  | caught
  /-- A pattern inside a pattern. -/
  | element
  /-- The value that an element takes if it gets none. -/
  | fallback
  /-- The computed key of an entry of a pattern. -/
  | key
  /-- The value that a parameter with a type takes if it gets none. -/
  | typedFallback
  | parameterDecorator
deriving DecidableEq, Repr

/-- Names in a pattern are bound, not read. -/
def Position.isPattern : Position → Bool
  | parameter | caught | element => true
  | _ => false

/-- A part of `parent` that is evaluated or bound. `scope` are the names that `parent` binds and
whose scope holds the part. -/
structure Part where
  position : Position
  parent : Node
  scope : List String
  node : Node
deriving Repr

end ThemedCss.Scope

namespace ThemedCss.Syntax.Node
open ThemedCss.Scope

mutual
/-- The names that `var` declares for the function around a node. Nested functions, static blocks
and namespaces keep theirs. -/
def varNames : Node → List String
  | ⟨kind, role, start, stop, text, children⟩ =>
    if kind.isFunction then []
    else
      match kind with
      | .staticBlock | .namespaceDeclaration | .moduleDeclaration => []
      | .variableDeclaration =>
        declaredNames ⟨kind, role, start, stop, text, children⟩ ++ varNamesAll children
      | _ => varNamesAll children

def varNamesAll : List Node → List String
  | [] => []
  | n :: ns => n.varNames ++ varNamesAll ns
end

def ownNames (n : Node) : List String :=
  (((n.child? .name).filter (·.kind == .identifier)).map (·.text)).toList

def elementsAt (n : Node) (role : Role) : List Node :=
  (n.child? role).toList.flatMap (·.children)

/-- The parameters of a function. A single one may stand without parentheses. -/
def parameterNodes (n : Node) : List Node :=
  if (n.child? .parameters).isSome then n.elementsAt .parameters else n.elementsAt .parameter

def parameterNames (n : Node) : List String :=
  ((n.child? .parameters).or (n.child? .parameter)).toList.flatMap patternNames

def partsAt (n : Node) (position : Position) (scope : List String) (ns : List Node) : List Part :=
  ns.map fun m => ⟨position, n, scope, m⟩

/-- The parts of a node that are evaluated with it, or when a function that it makes runs, and the
patterns that are bound then. Not every scope is listed: to leave out a name that is bound only asks
for more to be reported. -/
def evaluatedParts (n : Node) : List Part :=
  if n.kind.isFunction then
    let around := n.ownNames ++ n.parameterNames
    let body := (n.child? .body).toList
    n.partsAt .methodName [] ((n.child? .name).filter (·.kind == .computedName)).toList ++
      n.partsAt .methodDecorator [] (n.children.filter (·.kind == .decorator)) ++
      n.partsAt .parameter around n.parameterNodes ++
      n.partsAt .body (around ++ body.flatMap varNames) body
  else
    match n.kind with
    | .propertyName | .privateName | .labelName | .shorthandPattern | .typeAscription |
        .typeArguments | .typeParameters
    | .identifier | .shorthand => []
    | .member => n.partsAt .operand [] (n.child? .object).toList
    | .block | .classBody | .program | .switchBody =>
      n.partsAt .operand (blockNames n.children) n.children
    | .forStatement | .forInStatement => n.partsAt .operand (loopNames n.children) n.children
    | .catchClause =>
      let bound := (n.child? .parameter).toList
      n.partsAt .caught (bound.flatMap patternNames) bound ++
        n.partsAt .operand (bound.flatMap patternNames) (n.child? .body).toList
    | .declarator =>
      n.partsAt .element [] (n.elementsAt .name) ++ n.partsAt .operand [] (n.child? .value).toList
    | .pair | .pairPattern =>
      n.partsAt .operand [] (((n.child? .key).filter (·.kind == .computedName)).toList ++
        (n.child? .value).toList)
    | .classDeclaration | .classExpression =>
      n.partsAt .operand [] (n.children.filter (·.kind != .identifier))
    | _ => n.partsAt .operand [] n.children

/-- The parts of a pattern: patterns, and what is evaluated when they are bound. Keys, types and
modifiers count as elements too; they are no patterns, so nothing is read in them as elements. -/
def patternParts (n : Node) : List Part :=
  match n.kind with
  | .objectPattern | .arrayPattern | .restPattern => n.partsAt .element [] n.children
  | .pairPattern =>
    n.partsAt .key [] (n.children.filter (·.kind == .computedName)) ++
      n.partsAt .element [] n.children
  | .assignmentPattern | .shorthandDefault =>
    n.partsAt .fallback [] (n.child? .right).toList ++ n.partsAt .element [] (n.elementsAt .left)
  | .requiredParameter | .optionalParameter =>
    n.partsAt .parameterDecorator [] (n.children.filter (·.kind == .decorator)) ++
      n.partsAt .element [] n.children ++ n.partsAt .typedFallback [] (n.child? .value).toList
  | _ => []

def partsOf (inPattern : Bool) (n : Node) : List Part :=
  if inPattern then n.patternParts else n.evaluatedParts

end ThemedCss.Syntax.Node

namespace ThemedCss.Scope
open ThemedCss.Syntax

/-- `way` leads from a node, which is a pattern or is evaluated, to something read inside it. -/
inductive Occurs : Bool → Node → List Part → Occurrence → Prop
  | name {n : Node} : n.kind = .identifier ∨ n.kind = .shorthand →
      Occurs false n [] (.name n.text n.start)
  | effect {n : Node} : n.kind.isEffect → Occurs false n [] (.effect n.start)
  | part {inPattern : Bool} {n : Node} {p : Part} {way : List Part} {o : Occurrence} :
      p ∈ n.partsOf inPattern →
      Occurs p.position.isPattern p.node way o → Occurs inPattern n (p :: way) o

/-- No binder on the way binds the name where it is read. -/
def Free (way : List Part) (o : Occurrence) : Prop :=
  ∀ p ∈ way, o.Avoids p.scope

instance (way : List Part) (o : Occurrence) : Decidable (Free way o) :=
  inferInstanceAs (Decidable (∀ p ∈ way, o.Avoids p.scope))

/-- The way that goes from part to part by their numbers, and the name where it ends. -/
def follow : List Nat → Bool → Node → Option (List Part × Occurrence)
  | [], inPattern, n =>
    if inPattern = false ∧ n.kind = .identifier then some ([], .name n.text n.start) else none
  | i :: rest, inPattern, n => do
    let p ← (n.partsOf inPattern)[i]?
    let (way, o) ← follow rest p.position.isPattern p.node
    return (p :: way, o)

theorem Occurs.of_follow {steps : List Nat} {inPattern : Bool} {n : Node} {way : List Part}
    {o : Occurrence} (h : follow steps inPattern n = some (way, o)) : Occurs inPattern n way o := by
  induction steps generalizing inPattern n way with
  | nil =>
    rw [follow] at h
    by_cases hend : inPattern = false ∧ n.kind = .identifier
    · rw [if_pos hend] at h
      cases h
      obtain ⟨rfl, hk⟩ := hend
      exact .name (.inl hk)
    · rw [if_neg hend] at h
      cases h
  | cons i rest ih =>
    simp only [follow, Option.bind_eq_bind, Option.bind_eq_some_iff, Option.pure_def,
      Option.some.injEq, Prod.mk.injEq, Prod.exists] at h
    obtain ⟨p, hp, below, _, hbelow, rfl, rfl⟩ := h
    exact .part (List.mem_of_getElem? hp) (ih hbelow)

end ThemedCss.Scope
