import ThemedCss.Syntax.Kind

/-! Syntax trees with UTF-8 byte spans, and the questions every analysis asks of a node. -/
namespace ThemedCss.Syntax

/-- A node covers the bytes from `start` up to `stop`. `text` is the source text of a leaf and empty
elsewhere. Of the comments only those with the marks of markup are nodes. -/
structure Node where
  kind : Kind
  role : Role
  start : Nat
  stop : Nat
  text : String
  children : List Node
deriving Repr

namespace Node

instance : Inhabited Node := ⟨⟨.error, .plain, 0, 0, "", []⟩⟩

def withRole (n : Node) (role : Role) : Node :=
  { n with role }

/-- Children other than punctuation. -/
def named (n : Node) : List Node :=
  n.children.filter (·.kind.isNamed)

def child? (n : Node) (role : Role) : Option Node :=
  n.children.find? (·.role == role)

def hasChild (n : Node) (kind : Kind) : Bool :=
  n.children.any (·.kind == kind)

mutual
def hasError : Node → Bool
  | ⟨kind, _, _, _, _, children⟩ => kind == .error || anyError children

def anyError : List Node → Bool
  | [] => false
  | n :: ns => n.hasError || anyError ns
end

mutual
/-- The node and all its descendants, each before its children. -/
def preorder : Node → List Node
  | ⟨kind, role, start, stop, text, children⟩ =>
    ⟨kind, role, start, stop, text, children⟩ :: preorderAll children

def preorderAll : List Node → List Node
  | [] => []
  | n :: ns => n.preorder ++ preorderAll ns
end

theorem preorder_eq (n : Node) : n.preorder = n :: preorderAll n.children := by
  cases n
  rw [preorder]

theorem preorderAll_append (ns ms : List Node) :
    preorderAll (ns ++ ms) = preorderAll ns ++ preorderAll ms := by
  induction ns with
  | nil => simp [preorderAll]
  | cons n ns ih => rw [List.cons_append, preorderAll, ih, preorderAll, List.append_assoc]

mutual
/-- Strip redundant parentheses. Parentheses around more than one node stay. -/
def unwrap : Node → Node
  | ⟨kind, role, start, stop, text, children⟩ =>
    if kind = .parenthesized then
      (unwrapSole children).getD ⟨kind, role, start, stop, text, children⟩
    else ⟨kind, role, start, stop, text, children⟩

/-- The only named node of a list, unwrapped. -/
def unwrapSole : List Node → Option Node
  | [] => none
  | n :: ns =>
    if n.kind.isNamed then
      if ns.any (·.kind.isNamed) then none else some n.unwrap
    else unwrapSole ns
end

end Node

/-- Text without its quotes; escapes stay as they are written. -/
def unquote (text : String) : String :=
  match text.toList with
  | c :: cs => if (c == '\'' || c == '"') && !cs.isEmpty then String.ofList cs.dropLast else text
  | [] => text

/-- A key or module name: strings lose their quotes. -/
def Node.plainText (n : Node) : String :=
  if n.kind = .string then unquote n.text else n.text

end ThemedCss.Syntax
