import ThemedCss.Scope.Name

/-! What an expression reads: free names with the member chains that hang off them, and effects. -/
namespace ThemedCss.Scope

/-- Something an expression depends on. `pos` is the byte where it stands. -/
inductive Read where
  /-- Evaluation changes state, or depends on how the code is called. -/
  | effect (pos : Nat)
  /-- A name from outside; `a.b.c` reads `a` with the chain `b`, `c`. -/
  | name (name : String) (chain : List String) (pos : Nat)
deriving DecidableEq, Repr

/-- A name is read unless it is bound. -/
def Read.unlessBound (bound : List String) (name : String) (chain : List String) (pos : Nat) :
    List Read :=
  if bound.contains name then [] else [.name name chain pos]

end ThemedCss.Scope

namespace ThemedCss.Syntax.Node
open ThemedCss.Scope

mutual
/-- The name at the bottom of a chain of plain member accesses, with the chain from its end. -/
def chain? : Node → Option (String × Nat × List String)
  | ⟨kind, _, start, _, text, children⟩ =>
    match kind with
    | .identifier => some (text, start, [])
    | .member =>
      match children.find? (·.role == .property) with
      | some property =>
        if property.kind = .propertyName then
          (objectChain? children).map fun (base, pos, chain) => (base, pos, property.text :: chain)
        else none
      | none => none
    | _ => none

def objectChain? : List Node → Option (String × Nat × List String)
  | [] => none
  | n :: ns => if n.role = .object then n.chain? else objectChain? ns
end

/-- The names in scope throughout a block: those its own statements declare, `var` apart. -/
def blockNames (statements : List Node) : List String :=
  statements.flatMap fun s => if s.kind = .variableDeclaration then [] else s.declaredNames

/-- The names in scope throughout a function, its own name included where an expression gives it
one. -/
def functionNames (kind : Kind) (children : List Node) : List String :=
  let own :=
    match children.find? (·.role == .name) with
    | some n => if n.kind = .identifier ∧ kind ≠ .functionDeclaration then [n.text] else []
    | none => []
  let parameters :=
    if children.any (·.role == .parameters) then patternNamesAt .parameters children
    else patternNamesAt .parameter children
  let hoisted :=
    match children.find? (·.role == .body) with
    | some body => if body.kind = .block then hoistedNamesAll body.children else []
    | none => []
  own ++ parameters ++ hoisted

def loopNames (children : List Node) : List String :=
  let declared := children.flatMap fun c => if c.kind.isDeclaration then c.declaredNames else []
  let left := if children.any (·.role == .binding) then patternNamesAt .left children else []
  declared ++ left

mutual
/-- What evaluating a node may read, names in `bound` left out. -/
def reads (bound : List String) : Node → List Read
  | ⟨kind, role, start, stop, text, children⟩ =>
    (if kind.isEffect then [Read.effect start] else []) ++
    match kind with
    | .propertyName | .privateName | .labelName | .shorthandPattern
    | .typeAscription | .typeArguments | .typeParameters => []
    | .identifier | .shorthand => Read.unlessBound bound text [] start
    | .member =>
      match chain? ⟨kind, role, start, stop, text, children⟩ with
      | some (base, pos, chain) => Read.unlessBound bound base chain.reverse pos
      | none => readsAt bound .object children
    | .arrowFunction | .functionExpression | .functionDeclaration | .generatorExpression |
        .generatorDeclaration
    | .method =>
      let scope := bound ++ functionNames kind children
      (if children.any (·.role == .parameters) then defaultsAt scope .parameters children
        else defaultsAt scope .parameter children) ++ readsAt scope .body children
    | .block | .classBody | .program | .switchBody =>
      readsAll (bound ++ blockNames children) children
    | .forStatement | .forInStatement => readsAll (bound ++ loopNames children) children
    | .catchClause => readsAt (bound ++ patternNamesAt .parameter children) .body children
    | .declarator => defaultsAt bound .name children ++ readsAt bound .value children
    | .pair | .pairPattern => readsComputed bound .key children ++ readsAt bound .value children
    | .classDeclaration | .classExpression => readsExceptNames bound children
    | _ => readsAll bound children

def readsAll (bound : List String) : List Node → List Read
  | [] => []
  | n :: ns => n.reads bound ++ readsAll bound ns

/-- What the first child that plays `role` reads. -/
def readsAt (bound : List String) (role : Role) : List Node → List Read
  | [] => []
  | n :: ns => if n.role = role then n.reads bound else readsAt bound role ns

/-- A key reads only if it is computed. -/
def readsComputed (bound : List String) (role : Role) : List Node → List Read
  | [] => []
  | n :: ns =>
    if n.role = role then (if n.kind = .computedName then n.reads bound else [])
    else readsComputed bound role ns

def readsExceptNames (bound : List String) : List Node → List Read
  | [] => []
  | n :: ns => (if n.kind = .identifier then [] else n.reads bound) ++ readsExceptNames bound ns

/-- What the default values in the parts of a pattern read. -/
def defaults (bound : List String) : List Node → List Read
  | [] => []
  | ⟨kind, _, _, _, _, children⟩ :: ns =>
    (match kind with
      | .assignmentPattern | .shorthandDefault =>
        readsAt bound .right children ++ defaultsAt bound .left children
      | .pairPattern | .objectPattern | .arrayPattern | .restPattern | .requiredParameter |
          .optionalParameter =>
        defaults bound children
      | _ => []) ++ defaults bound ns

def defaultsAt (bound : List String) (role : Role) : List Node → List Read
  | [] => []
  | ⟨_, role', _, _, _, children⟩ :: ns =>
    if role' = role then defaults bound children else defaultsAt bound role ns
end

end ThemedCss.Syntax.Node
