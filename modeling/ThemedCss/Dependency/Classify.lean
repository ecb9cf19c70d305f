import ThemedCss.Dependency.Graph
import ThemedCss.Dependency.Program
import ThemedCss.Scope.Read
import ThemedCss.Settings
import ThemedCss.Style.Basic

/-! Whether the value of an interpolation is known at build time. -/
namespace ThemedCss.Dependency
open ThemedCss.Syntax ThemedCss.Scope ThemedCss.Style

/-- All that answers may rest on. `allows` tells which chains of members the theme has. -/
structure Context where
  program : Program
  settings : Settings
  allows : List String → Bool
  path : Path
  main : Module

/-- All that answers about a module rest on, when its tree is known. -/
def Context.ofTree (files : FileTree) (settings : Settings) (allows : List String → Bool)
    (path : Path) (root : Node) : Context :=
  let program := Program.ofTree files path root
  { program, settings, allows, path, main := (program.module? path).getD .empty }

/-- The names a style function declares, with what defines them. -/
structure StyleScope where
  callSite : Nat
  parameters : Parameters
  locals : Table String (Option Node)

namespace StyleScope

def declared (statement : Node) : List (String × Option Node) :=
  match statement.kind with
  | .lexicalDeclaration | .variableDeclaration =>
    statement.declarators.flatMap fun d =>
      (Node.patternNamesAt .name d.children).map (·, d.child? .value)
  | .functionDeclaration | .generatorDeclaration => statement.declaredNames.map (·, some statement)
  | .classDeclaration => statement.declaredNames.map (·, none)
  | _ => []

/-- The names a function body declares: those of its own statements, and each `var` further
inside. -/
def localsOf (body : Node) : Table String (Option Node) :=
  if body.kind = .block then
    let own := Table.insertAll (body.named.flatMap declared) []
    let inner :=
      body.preorder.flatMap fun n => if n.kind = .variableDeclaration then n.declaredNames else []
    inner.foldl (fun t name => if t.has name then t else t.insert name none) own
  else []

def ofCall {ι : Type} (call : Call ι) : StyleScope :=
  ⟨call.callSite, call.parameters, ((call.function.child? .body).map localsOf).getD []⟩

end StyleScope

namespace Context

def exportKey (c : Context) (path : Path) (name : String) : Answer :=
  Dependency.exportKey c.program c.settings.pureModules (exportDepth c.program) [] path name

def importKey (c : Context) (m : Module) (source name : String) : Answer :=
  Dependency.importKey c.settings.pureModules c.exportKey m source name

/-- What a read at the top level of a module depends on. -/
def globalKey (c : Context) (path : Path) (m : Module) : Read → Answer
  | .effect _ => .dynamic
  | .name name chain _ =>
    match m.bindings.get? name with
    | none =>
      if isPureGlobal name chain || name = c.settings.marker then ⟨.static, [], none⟩ else .dynamic
    | some (.namespaceOf source) =>
      match chain with
      | [] => .dynamic
      | member :: _ => if m.reassigned.contains name then .dynamic else c.importKey m source member
    | some _ => ⟨.global path name, [], none⟩

/-- What a read in a style function depends on. -/
def localKey (c : Context) (s : StyleScope) : Read → Answer
  | .effect pos => c.globalKey c.path c.main (.effect pos)
  | .name name chain pos =>
    if s.locals.has name then ⟨.local c.path s.callSite name, [], none⟩
    else
      match s.parameters.theme.get? name with
      | some way =>
        if c.main.reassigned.contains name then .dynamic
        else if c.allows (way ++ chain) then ⟨.static, [], none⟩
        else .dynamic
      | none =>
        if name = s.parameters.tag then ⟨.static, [], none⟩
        else if s.parameters.others.contains name then .dynamic
        else c.globalKey c.path c.main (.name name chain pos)

def globalReads (c : Context) (path : Path) (name : String) : List Answer :=
  match c.program.module? path with
  | none => [.dynamic]
  | some m =>
    if m.reassigned.contains name then [.dynamic]
    else
      match m.bindings.get? name with
      | some (.imported source name') => [c.importKey m source name']
      | some (.node n) => (n.reads []).map (c.globalKey path m)
      | _ => [.dynamic]

def localReads (c : Context) (s : StyleScope) (name : String) : List Answer :=
  match s.locals.get? name with
  | some (some n) =>
    if c.main.reassigned.contains name then [.dynamic] else (n.reads []).map (c.localKey s)
  | _ => [.dynamic]

def reads (c : Context) (scopes : List StyleScope) : Key → List Answer
  | .dynamic | .static => []
  | .global path name => c.globalReads path name
  | .local _ callSite name =>
    match scopes.find? (·.callSite = callSite) with
    | some s => c.localReads s name
    | none => [.dynamic]

end Context

/-- More than the number of nodes a graph can have. -/
def keyCount (c : Context) (scopes : List StyleScope) : Nat :=
  (c.program.map fun (_, m) => ((m.map (·.bindings.length)).getD 0)).foldr (· + ·) 0 +
    (scopes.map (·.locals.length)).foldr (· + ·) 0 + 3

/-- The given nodes and all they depend on, each with what it reads. Each round adds a node, so
there are no more rounds than names. -/
def explore (c : Context) (scopes : List StyleScope) (keys : List Key) : Table Key (List Answer) :=
  Table.grow (c.reads scopes) (·.map (·.key)) (keyCount c scopes) keys
    [(.dynamic, []), (.static, [])]

structure Classification where
  calls : List (Call Labelled)
  graph : Graph Key
  dynamic : List Key
  /-- The modules that were looked into, and whether they could be read. -/
  modules : List (Path × Bool)

/-- What an interpolation depends on, unless an earlier pass has settled it. -/
def interpolationReads (c : Context) (s : StyleScope) (i : Interpolation) : List Answer :=
  if i.wrapped || i.placeholder.isSome then [] else (i.node.reads []).map (c.localKey s)

/-- Settled interpolations keep their label; any other is dynamic if one of its reads is. -/
def labelOf (c : Context) (dynamic : List Key) (s : StyleScope) (i : Interpolation) : Label :=
  if i.wrapped then .static
  else if i.placeholder.isSome then .dynamic
  else if (interpolationReads c s i).any fun a => dynamic.contains a.key then .dynamic
  else .static

def callReads (c : Context) (call : Call Interpolation) : List Answer :=
  let s := StyleScope.ofCall call
  (call.blocks.flatMap (·.interpolations)).flatMap (interpolationReads c s)

def labelCall (c : Context) (dynamic : List Key) (call : Call Interpolation) : Call Labelled :=
  let s := StyleScope.ofCall call
  call.map fun i => { i with label := labelOf c dynamic s i }

/-- Follow answers one after the other, each with all that its node reads in turn, up to the first
fault. `seen` are the nodes that need not be followed. Each level adds a node, so there are no more
levels than nodes. -/
def follow (c : Context) (scopes : List StyleScope) :
    Nat → List Answer → List Key → Except LinkFault (List Key)
  | 0, _, seen => .ok seen
  | depth + 1, answers, seen =>
    answers.foldlM
      (fun seen a =>
        match a.fault with
        | some f => .error f
        | none =>
          if seen.contains a.key then .ok seen
          else follow c scopes depth (c.reads scopes a.key) (seen ++ [a.key]))
      seen

def classify (files : FileTree) (settings : Settings) (allows : List String → Bool) (path : Path)
    (root : Node) (calls : List (Call Interpolation)) : Except LinkFault Classification :=
  let c := Context.ofTree files settings allows path root
  let scopes := calls.map StyleScope.ofCall
  let answers := calls.flatMap (callReads c)
  match follow c scopes (keyCount c scopes) answers [.dynamic, .static] with
  | .error f => .error f
  | .ok _ =>
    let found := explore c scopes (answers.map (·.key))
    let asked := answers ++ found.flatMap (·.2)
    let graph : Graph Key := found.map fun (k, answers) => (k, (answers.map (·.key)).eraseDups)
    let dynamic := graph.reaching .dynamic
    .ok
      { calls := calls.map (labelCall c dynamic)
        graph
        dynamic
        modules := (path :: asked.flatMap (·.consulted)).eraseDups.map fun p =>
          (p, (c.program.module? p).isSome) }

end ThemedCss.Dependency
