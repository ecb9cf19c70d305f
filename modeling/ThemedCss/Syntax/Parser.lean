import ThemedCss.Syntax.Parser.Statement

/-! Reading a module as a syntax tree. -/
namespace ThemedCss.Syntax

/-- One step of every recursive rule. -/
def rule (rules : Rules) : Goal → Parser Node
  | .statement => Parser.statement rules
  | .assignment => Parser.assignment rules
  | .operand => Parser.operand rules
  | .binding => Parser.binding rules
  | .type => Parser.type rules
  | .typeOperand => Parser.typeOperand rules
  | .element => Parser.element rules

def rulesUpTo : Nat → Rules
  | 0 => fun _ => failure
  | depth + 1 => fun goal => rule (rulesUpTo depth) goal

/-- The node of a module. One without code is empty and lies where its code would begin. -/
def program (start : Nat) (children : List Node) : Parser Node :=
  return ⟨.program, .plain, start, max start (← Parser.last), "", children⟩

/-- A whole module: an optional interpreter line, then statements to the end. -/
def moduleBody (rules : Rules) : Parser Node := do
  let s ← get
  let line ←
    match s.here with
    | '#' :: '!' :: _ =>
      let (text, rest) := Lexeme.splitRun (· != '\n') s.here
      let text := String.ofList text
      let stop := s.start + text.utf8ByteSize
      set (s.moveTo rest stop)
      pure [(⟨.hashBang, .plain, s.start, stop, text, []⟩ : Node)]
    | _ => pure []
  let body ← Parser.statements rules
  match ← Parser.current with
  | .endOfInput => program s.start (line ++ body)
  | _ =>
    if (← get).recovering then
      -- stray closing braces: each opens a new run of statements
      let rest ← Parser.many do
        match ← Parser.current with
        | .endOfInput => return none
        | _ =>
          let start ← Parser.here
          Parser.advance
          let fault ← Parser.node .error start []
          return some (fault :: (← Parser.statements rules))
      program s.start (line ++ body ++ rest.flatten)
    else failure

/-- Every rule that calls another without reading on does so a few times at most. -/
def depthFor (cs : List Char) : Nat :=
  8 * (cs.length + 4)

def runParser (recovering : Bool) (dialect : Dialect) (cs : List Char) : Option Node :=
  let blank : State :=
    { size := cs.length, dialect, recovering, context := {}, here := [], start := 0,
      lexeme := .endOfInput, after := [], stop := 0, broken := false, tail := [], last := 0 }
  ((moduleBody (rulesUpTo (depthFor cs))).run (blank.moveTo cs 0)).map (·.1)

/-- The tree of a module. Faults are tolerated: what cannot be read becomes an error node. -/
def parse (dialect : Dialect) (cs : List Char) : Node :=
  match runParser false dialect cs with
  | some n => n
  | none =>
    (runParser true dialect cs).getD
      ⟨.program, .plain, 0, (String.ofList cs).utf8ByteSize, "", [⟨.error, .plain, 0, 0, "", []⟩]⟩

end ThemedCss.Syntax
