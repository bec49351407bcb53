import LoopLang.Execution.Machine
import LoopLang.Execution.Operation

namespace LoopLang

namespace Program

-- Every function below takes fuel, which bounds the depth of its recursion: one unit for each
-- expression inside another, for each statement after another and for each pass of a loop.

mutual

def eval (p : Program) : (fuel : Nat) → Expr → Run Value
  | 0, _ => throw .outOfFuel
  | fuel + 1, e =>
    match e with
    | .literal node value => Run.lift (p.literal node value)
    | .place node root steps => do
      if (← get).scopes.contains root then
        let cell ← Run.cellOf root node.position
        let path ← evalSteps p fuel steps
        let v ← Run.fetch cell node.position
        Run.lift (v.read path)
      else
        match steps with
        | [.member name _] =>
          if p.globals.isEnum root then return .enum root name
          else Run.fail (.internal (.unknownVariable root) node.position)
        | _ => Run.fail (.internal (.unknownVariable root) node.position)
    | .method node root steps name nameAt args => do
      match ← evalMethod p fuel node.position root steps name nameAt args with
      | some v => return v
      | none => Run.fail (.internal .methodWithoutValue node.position)
    | .call node callee args => do
      match ← evalCall p fuel callee args node.position with
      | some v => return v
      | none => Run.fail (.internal (.functionWithoutValue callee) node.position)
    | .math node op left right => do
      let a ← eval p fuel left
      let b ← eval p fuel right
      Run.lift (p.math node op a b)
    | .compare node op left right => do
      let a ← eval p fuel left
      let b ← eval p fuel right
      Run.lift (op.apply a b node.position)
    | .unary node op operand => do
      let v ← eval p fuel operand
      Run.lift (p.unary node op v)
    | .build node name given => do
      match p.globals.struct? name with
      | none => Run.fail (.internal (.unknownStruct name) node.position)
      | some s =>
        let fields ← evalFields p fuel s [] given
        return .struct name (← Run.lift (p.withDefaults node.position s.members fields))

def evalList (p : Program) : (fuel : Nat) → List Expr → Run (List Value)
  | 0, _ => throw .outOfFuel
  | _ + 1, [] => return []
  | fuel + 1, e :: es => do
    let v ← eval p fuel e
    return v :: (← evalList p fuel es)

def evalSteps (p : Program) : (fuel : Nat) → List Step → Run (List PathStep)
  | 0, _ => throw .outOfFuel
  | _ + 1, [] => return []
  | fuel + 1, .member name position :: steps => do
    return .field name position :: (← evalSteps p fuel steps)
  | fuel + 1, .index e :: steps => do
    let v ← eval p fuel e
    match v.int? with
    | some i => return .index i e.position :: (← evalSteps p fuel steps)
    | none => Run.fail (.internal (.index v.kind) e.position)

def evalFields (p : Program) :
    (fuel : Nat) → Struct → List (String × Value) → List Field → Run (List (String × Value))
  | 0, _, _, _ => throw .outOfFuel
  | _ + 1, _, fields, [] => return fields
  | fuel + 1, s, fields, .mk name position value :: rest => do
    match s.member? name with
    | none => Run.fail (.internal (.unknownMember s.name name) position)
    | some m =>
      let v ← eval p fuel value
      evalFields p fuel s (Value.insertField name (v.coerce m.type) fields) rest

/-- A call of a method: the steps, then the arguments, then the method on what is then there. -/
def evalMethod (p : Program) (fuel : Nat) (position : Position) (root : String)
    (steps : List Step) (name : String) (nameAt : Position) (args : List Expr) :
    Run (Option Value) :=
  match fuel with
  | 0 => throw .outOfFuel
  | fuel + 1 => do
    let cell ← Run.cellOf root position
    let path ← evalSteps p fuel steps
    let args ← evalList p fuel args
    Run.change cell nameAt fun v => v.update (Method.call name args nameAt) path

def evalCall (p : Program) (fuel : Nat) (callee : String) (args : List Expr)
    (position : Position) : Run (Option Value) :=
  match fuel with
  | 0 => throw .outOfFuel
  | fuel + 1 => do
    match p.globals.function? callee with
    | some f =>
      let cells ← bindArguments p fuel f.params args
      invoke p fuel f cells position
    | none =>
      match Builtin.ofName? callee with
      | none => Run.fail (.internal (.unknownFunction callee) position)
      | some b =>
        let args ← evalList p fuel args
        let line? ← Run.lift (b.apply args position)
        line?.forM Run.print
        return none

/-- The cells of a call's parameters: the caller's own by reference, else new ones. -/
def bindArguments (p : Program) : (fuel : Nat) → List Param → List Expr → Run (List CellId)
  | 0, _, _ => throw .outOfFuel
  | fuel + 1, param :: params, arg :: args => do
    let cell ←
      if param.byReference then
        match arg.bareName? with
        | some name => Run.cellOf name arg.position
        | none => Run.fail (.internal .referenceArgument arg.position)
      else do
        let v ← eval p fuel arg
        Run.newCell (v.coerce param.type)
    return cell :: (← bindArguments p fuel params args)
  | _ + 1, _, _ => return []

def invoke (p : Program) (fuel : Nat) (f : Function) (cells : List CellId)
    (position : Position) : Run (Option Value) :=
  match fuel with
  | 0 => throw .outOfFuel
  | fuel + 1 => do
    if Machine.maxDepth ≤ (← get).depth then
      Run.fail (.runtime (.stackOverflow f.name Machine.maxDepth position))
    else
      let flow ← Run.inCall (Scopes.ofArguments f.params cells) (execBlock p fuel f.body)
      match f.returns, flow.returned? with
      | some type, some v => return some (v.coerce type)
      | some _, none => Run.fail (.runtime (.missingReturnValue f.name position))
      | none, _ => return none

def execBlock (p : Program) : (fuel : Nat) → List Stmt → Run Flow
  | 0, _ => throw .outOfFuel
  | _ + 1, [] => return .normal
  | fuel + 1, s :: rest => do
    match ← exec p fuel s with
    | .normal => execBlock p fuel rest
    | flow => return flow

def exec (p : Program) : (fuel : Nat) → Stmt → Run Flow
  | 0, _ => throw .outOfFuel
  | fuel + 1, s =>
    match s with
    | .declare node name _ => do
      let type ← Run.lift (p.typeOf node)
      let v ← Run.lift (p.defaultValue node.position type)
      Run.define name v node.position
      return .normal
    | .define node name _ value _ => do
      let type ← Run.lift (p.typeOf node)
      let v ← eval p fuel value
      Run.define name (v.coerce type) node.position
      return .normal
    | .assign _ target root steps value => do
      let v ← eval p fuel value
      let type ← Run.lift (p.typeOf target)
      let cell ← Run.cellOf root target.position
      let path ← evalSteps p fuel steps
      Run.change cell target.position fun old => do
        return (Flow.normal, ← old.write (v.coerce type) path)
    | .loop _ body => Run.inFrame (repeatBlock p fuel body)
    | .choose _ first elifs otherwise => execBranches p fuel (first :: elifs) otherwise
    | .return _ value =>
      match value with
      | some e => do return .return (some (← eval p fuel e))
      | none => return .return none
    | .break _ => return .break
    | .continue _ => return .continue
    | .call _ node callee args => do
      let _ ← evalCall p fuel callee args node.position
      return .normal
    | .place _ node root steps => do
      let _ ← eval p fuel (.place node root steps)
      return .normal
    | .method _ node root steps name nameAt args => do
      let _ ← evalMethod p fuel node.position root steps name nameAt args
      return .normal

def execBranches (p : Program) :
    (fuel : Nat) → List (Branch Stmt) → Option (List Stmt) → Run Flow
  | 0, _, _ => throw .outOfFuel
  | fuel + 1, branch :: branches, otherwise => do
    let v ← eval p fuel branch.condition
    match v.bool? with
    | some true => Run.inFrame (execBlock p fuel branch.body)
    | some false => execBranches p fuel branches otherwise
    | none => Run.fail (.internal (.condition v.kind) branch.condition.position)
  | fuel + 1, [], some body => Run.inFrame (execBlock p fuel body)
  | _ + 1, [], none => return .normal

/-- Runs the body of a loop in the innermost frame again and again. The frame is emptied before
    each further pass. -/
def repeatBlock (p : Program) : (fuel : Nat) → List Stmt → Run Flow
  | 0, _ => throw .outOfFuel
  | fuel + 1, body => do
    match ← execBlock p fuel body with
    | .normal | .continue =>
      modify fun m => { m with scopes := m.scopes.clear }
      repeatBlock p fuel body
    | .break => return .normal
    | .return value => return .return value

end

def main (p : Program) (fuel : Nat) : Run Unit := do
  match p.globals.function? "main" with
  | none => Run.fail (.runtime .noMain)
  | some f =>
    if !f.params.isEmpty then Run.fail (.runtime (.mainWithParams f.position))
    else
      let _ ← invoke p fuel f [] f.position
      return ()

end Program

/-- How a run ends. A run without end is `unfinished` with any fuel. -/
inductive Outcome where
  | done
  | failed (fault : Fault)
  | unfinished
  deriving DecidableEq, Repr

namespace Program

/-- Fuel for any run that has an end: a billion units a second would last for thirty years. -/
def ampleFuel : Nat := Nat.pow 10 18

def runOn (p : Program) (fuel : Nat) (m : Machine) : Outcome × Machine :=
  match p.main fuel m with
  | .ok _ m => (.done, m)
  | .error (.fault fault) m => (.failed fault, m)
  | .error .outOfFuel m => (.unfinished, m)

/-- The outcomes of several runs on one machine, each with the number of lines printed so far. -/
def runTimes (p : Program) (fuel : Nat) : (times : Nat) → Machine → List (Outcome × Nat) × Machine
  | 0, m => ([], m)
  | times + 1, m =>
    let (outcome, m) := p.runOn fuel m
    let (outcomes, final) := p.runTimes fuel times m
    ((outcome, m.lines.size) :: outcomes, final)

def run (p : Program) : Outcome × Array Line :=
  let (outcome, m) := p.runOn ampleFuel Machine.initial
  (outcome, m.lines)

end Program
end LoopLang
