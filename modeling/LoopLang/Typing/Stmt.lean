import LoopLang.Typing.Expr

namespace LoopLang

namespace Check

structure Body where
  globals : Globals
  function : Function

namespace Body

def resolve (b : Body) (position : Position) (type : Ty) : Check Ty :=
  liftM (m := Except Error) (type.resolve b.globals position)

def condition (b : Body) (e : Expr) : Check Unit := do
  let type ← expr b.globals e
  unless type = .bool do fail e.position (.conditionNotBool type)

/-- The variable that an assignment begins with may be assigned to: constants never, and
    parameters by value only in their parts. -/
def assignable (b : Body) (root : String) (path : List Step) (position : Position) :
    Check Unit := do
  match ← binding? root with
  | some binding =>
    match binding.mutability with
    | .mutable => return
    | .constant => fail position (.assignmentToConstant root)
    | .parameter => if path.isEmpty then fail position (.assignmentToParameter root)
  | none => if b.globals.isEnum root then fail position (.assignmentToEnum root)

def assign (b : Body) (position : Position) (target : Node) (root : String)
    (path : List Step) (value : Expr) : Check Unit := do
  let type ← expr b.globals value
  b.assignable root path position
  let reached ← Check.root b.globals root target.position
  -- A target is no call of a method, as the statement holds nothing but its root and its path.
  let (place, inString) ← steps b.globals target.position reached path
  if inString then fail position .assignmentToCharacter
  record target place
  unless place.accepts type do fail value.position (.assignmentMismatch type root place)

/-- A function that declares a type returns values of it, and one that does not returns none. -/
def returned (b : Body) (value : Option Expr) (position : Position) : Check Unit := do
  match value, b.function.returns with
  | some e, some returns =>
    let type ← expr b.globals e
    unless returns.accepts type do
      fail e.position (.returnMismatch type b.function.name returns)
  | some _, none => fail position (.returnOfValue b.function.name)
  | none, some returns => fail position (.returnWithoutValue b.function.name returns)
  | none, none => return

def call (b : Body) (node : Node) (callee : String) (args : List Expr) : Check Unit := do
  -- The statement holds the parts of its call, so that it cannot be one of anything else.
  let s ← Check.function b.globals callee node.position
  argumentCount callee s.params args node.position
  arguments b.globals callee s.params args
  s.returns.forM (record node)

def methodCall (b : Body) (node : Node) (root : String) (path : List Step) (name : String)
    (nameAt : Position) (args : List Expr) : Check Unit := do
  let reached ← Check.root b.globals root node.position
  let (receiver, _) ← steps b.globals node.position reached path
  let s ← Check.method root receiver name nameAt
  argumentCount name s.params args nameAt
  arguments b.globals name s.params args
  s.returns.forM (record node)

def control (inLoop : Bool) (keyword : Keyword) (position : Position) : Check Unit :=
  if inLoop then return else fail position (.controlOutsideLoop keyword.spelling)

mutual

def stmt (b : Body) (inLoop : Bool) : Stmt → Check Unit
  | .declare node name type => do
    let type ← b.resolve node.position type
    unless b.globals.hasDefault type do fail node.position (.noDefaultValue name type)
    record node type
    declare name type .mutable node.position
  | .define node name type value isConst => do
    let type ← b.resolve node.position type
    let valueType ← expr b.globals value
    unless type.accepts valueType do
      fail value.position (.definitionMismatch valueType name type)
    record node type
    declare name type (if isConst then .constant else .mutable) node.position
  | .assign position target root path value => b.assign position target root path value
  | .loop _ body => inBlock (stmts b true body)
  | .choose _ ⟨test, body⟩ elifs otherwise => do
    b.condition test
    inBlock (stmts b inLoop body)
    branches b inLoop elifs
    match otherwise with
    | some body => inBlock (stmts b inLoop body)
    | none => return
  | .return position value => b.returned value position
  | .break position => control inLoop .break_ position
  | .continue position => control inLoop .continue_ position
  | .call _ node callee args => b.call node callee args
  | .place position _ _ _ => fail position .placeAsStatement
  | .method _ node root path name nameAt args => b.methodCall node root path name nameAt args
termination_by structural s => s

def stmts (b : Body) (inLoop : Bool) : List Stmt → Check Unit
  | [] => return
  | s :: rest => do
    stmt b inLoop s
    stmts b inLoop rest
termination_by structural body => body

def branches (b : Body) (inLoop : Bool) : List (Branch Stmt) → Check Unit
  | [] => return
  | ⟨test, body⟩ :: rest => do
    b.condition test
    inBlock (stmts b inLoop body)
    branches b inLoop rest
termination_by structural elifs => elifs

end

end Body

def params : List Param → Check Unit
  | [] => return
  | p :: ps => do
    declare p.name p.type (if p.byReference then .mutable else .parameter) p.position
    params ps

def functionBody (g : Globals) (f : Function) (types : TypeTable) : Except Error TypeTable := do
  let body : Check Unit := do
    params f.params
    Body.stmts ⟨g, f⟩ false f.body
  let (_, c) ← body.run ⟨types, Scopes.empty⟩
  return c.types

end Check
end LoopLang
