/-! Dialects of the module language, kinds of syntax nodes, and the roles children play. -/
namespace ThemedCss.Syntax

/-- A dialect, chosen by file suffix: `typed` modules have type syntax, `markup` modules have
element literals. -/
structure Dialect where
  typed : Bool
  markup : Bool
deriving DecidableEq, Repr, Inhabited

namespace Dialect

def script : Dialect := ⟨false, true⟩

def typedScript : Dialect := ⟨true, false⟩

def typedMarkup : Dialect := ⟨true, true⟩

/-- The dialects by suffix; suffixes are compared in lower case. -/
def table : List (String × Dialect) :=
  [(".js", script), (".jsx", script), (".mjs", script), (".cjs", script), (".ts", typedScript),
   (".mts", typedScript), (".tsx", typedMarkup)]

/-- No letter outside ASCII becomes one of these suffixes in lower case. -/
def ofSuffix? (suffix : String) : Option Dialect :=
  table.lookup suffix.toLower

end Dialect

/-- What a node is. The two keyword kinds at the end are the only punctuation kept in a tree: they
tell a default export from a named one, and a loop head that declares its variable from one that
assigns it. -/
inductive Kind where
  | program | hashBang | importStatement | importClause | namespaceImport | namedImports
  | importSpecifier | importAttribute | exportStatement | exportClause | exportSpecifier
  | namespaceExport
  | expressionStatement | variableDeclaration | lexicalDeclaration | usingDeclaration | declarator
  | block | ifStatement | elseClause | switchStatement | switchBody | switchCase | switchDefault
  | forStatement | forInStatement | whileStatement | doStatement | tryStatement | catchClause
  | finallyClause | withStatement | breakStatement | continueStatement | debuggerStatement
  | returnStatement | throwStatement | emptyStatement | labeledStatement
  | parenthesized | sequence | assignment | augmentedAssignment | await | unary | binary | ternary
  | update | new | yield | member | subscript | call | arguments | spread | object | array | pair
  | method | computedName | functionExpression | functionDeclaration | generatorExpression
  | generatorDeclaration | arrowFunction | formalParameters | classExpression | classDeclaration
  | classHeritage | classBody | field | staticBlock | decorator | template | substitution | regex
  | number | string | this | super | trueLiteral | falseLiteral | nullLiteral | undefined
  | metaProperty | importCallee
  | identifier | propertyName | privateName | shorthand | shorthandPattern | labelName
  | objectPattern | arrayPattern | pairPattern | assignmentPattern | shorthandDefault | restPattern
  | jsxElement | jsxSelfClosing | jsxOpening | jsxClosing | jsxExpression | jsxAttribute | jsxText
  | jsxNamespace | typeAscription | typeArguments | typeParameters | typeParameter | typeName
  | qualifiedTypeName | qualifiedName | asExpression | satisfiesExpression | nonNull | instantiation
  | typeAssertion
  | requiredParameter | optionalParameter | methodSignature | abstractMethodSignature
  | propertySignature | indexSignature | callSignature | constructSignature | functionSignature
  | interfaceDeclaration | interfaceBody | typeAlias | enumDeclaration | enumBody | enumMember
  | ambientDeclaration | namespaceDeclaration | moduleDeclaration | abstractClassDeclaration
  | importAlias | importRequire | extendsClause | implementsClause | extendsTypes | modifier
  | predefinedType | unionType | intersectionType | functionType | constructorType | arrayType
  | tupleType | literalType | typeQuery | indexTypeQuery | lookupType | conditionalType | inferType
  | readonlyType | optionalType | restType | parenthesizedType | genericType | objectType
  | typePredicate | predicateAscription | asserts | assertsAscription | mappedTypeClause
  | templateType | templateTypeHole | thisType | typeConstraint | defaultType
  | markupComment | error
  | defaultKeyword | bindingKeyword
deriving DecidableEq, Repr, Inhabited

/-- The part a child plays in its parent; `plain` children are told apart by position only. -/
inductive Role where
  | plain | name | newName | value | left | right | object | property | callee | arguments
  | argument | parameter | parameters | body | pattern | key | declaration | source | binding
deriving DecidableEq, Repr, Inhabited

namespace Kind

/-- Punctuation kept in the tree is not a named node. -/
def isNamed : Kind → Bool
  | defaultKeyword | bindingKeyword => false
  | _ => true

/-- Nodes that open a function scope. -/
def isFunction : Kind → Bool
  | arrowFunction | functionExpression | functionDeclaration | generatorExpression |
      generatorDeclaration | method =>
    true
  | _ => false

/-- `const`, `let` and `var` statements. -/
def isDeclaration : Kind → Bool
  | lexicalDeclaration | variableDeclaration => true
  | _ => false

/-- Expressions whose evaluation changes state or depends on the calling context. -/
def isEffect : Kind → Bool
  | assignment | augmentedAssignment | update | new | await | yield | this | super | metaProperty |
      importCallee =>
    true
  | _ => false

def isTypedParameter : Kind → Bool
  | requiredParameter | optionalParameter => true
  | _ => false

end Kind
end ThemedCss.Syntax
