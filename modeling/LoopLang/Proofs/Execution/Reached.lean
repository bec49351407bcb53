import LoopLang.Proofs.Execution.Outcome

namespace LoopLang

/-- What the interpreter is to do: one constructor for each of its functions. -/
inductive Task where
  | value (e : Expr)
  | values (args : List Expr)
  | path (steps : List Step)
  | fields (s : Struct) (before : List (String × Value)) (given : List Field)
  | method (position : Position) (root : String) (steps : List Step) (name : String)
      (nameAt : Position) (args : List Expr)
  | call (callee : String) (args : List Expr) (position : Position)
  | bind (params : List Param) (args : List Expr)
  | invoke (f : Function) (cells : List CellId) (position : Position)
  | block (body : List Stmt)
  | statement (s : Stmt)
  | branches (choices : List (Branch Stmt)) (otherwise : Option (List Stmt))
  | pass (body : List Stmt)

namespace Task

def final (p : Program) (n : Nat) (m : Machine) : Task → Machine
  | value e => (p.eval n e).final m
  | values args => (p.evalList n args).final m
  | path steps => (p.evalSteps n steps).final m
  | fields s before given => (p.evalFields n s before given).final m
  | method position root steps name nameAt args =>
    (p.evalMethod n position root steps name nameAt args).final m
  | call callee args position => (p.evalCall n callee args position).final m
  | bind params args => (p.bindArguments n params args).final m
  | invoke f cells position => (p.invoke n f cells position).final m
  | block body => (p.execBlock n body).final m
  | statement s => (p.exec n s).final m
  | branches choices otherwise => (p.execBranches n choices otherwise).final m
  | pass body => (p.repeatBlock n body).final m

end Task

namespace Stmt

def bind (g : Globals) (names : Scopes Binding) (node : Node) (name : String) (written : Ty)
    (mutability : Mutability) : Scopes Binding :=
  match written.resolve g node.position with
  | .ok type => (names.define? name ⟨type, mutability⟩).getD names
  | .error _ => names

def declared (g : Globals) (names : Scopes Binding) : Stmt → Scopes Binding
  | .declare node name written => bind g names node name written .mutable
  | .define node name written _ isConst =>
    bind g names node name written (if isConst then .constant else .mutable)
  | _ => names

end Stmt

/-- A function that has begun and not ended: its names as they are declared and as they are
    bound. -/
structure Activation where
  names : Scopes Binding
  scopes : Scopes CellId

/-- Where a run has come to: what is to be done next, on which machine, and what the names in
    scope are declared with, in the function that runs and in those that wait for it. -/
structure Point where
  fuel : Nat
  task : Task
  machine : Machine
  names : Scopes Binding
  callers : List Activation

namespace Program

-- What a task begins, with the fuel that is left for it and on which machine: each part after those
-- before it.

inductive InExpr (p : Program) (n : Nat) (m : Machine) : Task → Task → Machine → Prop where
  | place {node root steps} :
    m.scopes.contains root = true →
    InExpr p n m (.value (.place node root steps)) (.path steps) m
  | method {node root steps name nameAt args} :
    InExpr p n m (.value (.method node root steps name nameAt args))
      (.method node.position root steps name nameAt args) m
  | call {node callee args} :
    InExpr p n m (.value (.call node callee args)) (.call callee args node.position) m
  | mathLeft {node op left right} :
    InExpr p n m (.value (.math node op left right)) (.value left) m
  | mathRight {node op left right a m'} :
    p.eval n left m = .ok a m' →
    InExpr p n m (.value (.math node op left right)) (.value right) m'
  | compareLeft {node op left right} :
    InExpr p n m (.value (.compare node op left right)) (.value left) m
  | compareRight {node op left right a m'} :
    p.eval n left m = .ok a m' →
    InExpr p n m (.value (.compare node op left right)) (.value right) m'
  | operand {node op operand} :
    InExpr p n m (.value (.unary node op operand)) (.value operand) m
  | build {node name given s} :
    p.globals.struct? name = some s →
    InExpr p n m (.value (.build node name given)) (.fields s [] given) m
  | first {e es} : InExpr p n m (.values (e :: es)) (.value e) m
  | others {e es v m'} :
    p.eval n e m = .ok v m' →
    InExpr p n m (.values (e :: es)) (.values es) m'
  | index {e steps} : InExpr p n m (.path (.index e :: steps)) (.value e) m
  | indexed {e steps v m'} :
    p.eval n e m = .ok v m' →
    v.int?.isSome →
    InExpr p n m (.path (.index e :: steps)) (.path steps) m'
  | member {name position steps} :
    InExpr p n m (.path (.member name position :: steps)) (.path steps) m
  | field {s before name position value rest k} :
    s.member? name = some k →
    InExpr p n m (.fields s before (.mk name position value :: rest)) (.value value) m
  | moreFields {s before name position value rest k v m'} :
    s.member? name = some k →
    p.eval n value m = .ok v m' →
    InExpr p n m (.fields s before (.mk name position value :: rest))
      (.fields s (Value.insertField name (v.coerce k.type) before) rest) m'

inductive InCall (p : Program) (n : Nat) (m : Machine) : Task → Task → Machine → Prop where
  | methodPath {position root steps name nameAt args cell} :
    m.scopes.get? root = some cell →
    InCall p n m (.method position root steps name nameAt args) (.path steps) m
  | methodArguments {position root steps name nameAt args cell path m'} :
    m.scopes.get? root = some cell →
    p.evalSteps n steps m = .ok path m' →
    InCall p n m (.method position root steps name nameAt args) (.values args) m'
  | arguments {callee args position f} :
    p.globals.function? callee = some f →
    InCall p n m (.call callee args position) (.bind f.params args) m
  | invoke {callee args position f cells m'} :
    p.globals.function? callee = some f →
    p.bindArguments n f.params args m = .ok cells m' →
    InCall p n m (.call callee args position) (.invoke f cells position) m'
  | builtin {callee args position b} :
    p.globals.function? callee = none →
    Builtin.ofName? callee = some b →
    InCall p n m (.call callee args position) (.values args) m
  | argument {param params arg args} :
    param.byReference = false →
    InCall p n m (.bind (param :: params) (arg :: args)) (.value arg) m
  | afterValue {param params arg args v m' cell m''} :
    param.byReference = false →
    p.eval n arg m = .ok v m' →
    Run.newCell (v.coerce param.type) m' = .ok cell m'' →
    InCall p n m (.bind (param :: params) (arg :: args)) (.bind params args) m''
  | afterReference {param params arg args name cell} :
    param.byReference = true →
    arg.bareName? = some name →
    m.scopes.get? name = some cell →
    InCall p n m (.bind (param :: params) (arg :: args)) (.bind params args) m

/-- Parts of statements that are done with the same names. -/
inductive InStmt (p : Program) (n : Nat) (m : Machine) : Task → Task → Machine → Prop where
  | statement {s rest} : InStmt p n m (.block (s :: rest)) (.statement s) m
  | defined {node name type value isConst found} :
    p.typeOf node = .ok found →
    InStmt p n m (.statement (.define node name type value isConst)) (.value value) m
  | assigned {position target root steps value} :
    InStmt p n m (.statement (.assign position target root steps value)) (.value value) m
  | assignedPlace {position target root steps value v m' found cell} :
    p.eval n value m = .ok v m' →
    p.typeOf target = .ok found →
    m'.scopes.get? root = some cell →
    InStmt p n m (.statement (.assign position target root steps value)) (.path steps) m'
  | choose {position first elifs otherwise} :
    InStmt p n m (.statement (.choose position first elifs otherwise))
      (.branches (first :: elifs) otherwise) m
  | returned {position e} :
    InStmt p n m (.statement (.return position (some e))) (.value e) m
  | callStatement {position node callee args} :
    InStmt p n m (.statement (.call position node callee args))
      (.call callee args node.position) m
  | placeStatement {position node root steps} :
    InStmt p n m (.statement (.place position node root steps)) (.value (.place node root steps)) m
  | methodStatement {position node root steps name nameAt args} :
    InStmt p n m (.statement (.method position node root steps name nameAt args))
      (.method node.position root steps name nameAt args) m
  | condition {branch branches otherwise} :
    InStmt p n m (.branches (branch :: branches) otherwise) (.value branch.condition) m
  | nextBranch {branch branches otherwise v m'} :
    p.eval n branch.condition m = .ok v m' →
    v.bool? = some false →
    InStmt p n m (.branches (branch :: branches) otherwise) (.branches branches otherwise) m'
  | passBlock {body} : InStmt p n m (.pass body) (.block body) m
  | nextPass {body flow m'} :
    p.execBlock n body m = .ok flow m' →
    flow = .normal ∨ flow = .continue →
    InStmt p n m (.pass body) (.pass body) { m' with scopes := m'.scopes.clear }

/-- Blocks that are done in a frame of their own. -/
inductive InFrame (p : Program) (n : Nat) (m : Machine) : Task → Task → Machine → Prop where
  | loop {position body} : InFrame p n m (.statement (.loop position body)) (.pass body) m
  | branch {branch branches otherwise v m'} :
    p.eval n branch.condition m = .ok v m' →
    v.bool? = some true →
    InFrame p n m (.branches (branch :: branches) otherwise) (.block branch.body) m'
  | otherwise {body} : InFrame p n m (.branches [] (some body)) (.block body) m

inductive Reached (p : Program) : Point → Prop where
  | main {fuel f m} :
    p.Resting m →
    p.globals.function? "main" = some f →
    f.params = [] →
    Reached p ⟨fuel, .invoke f [] f.position, m, Scopes.empty, []⟩
  | part {n task task' m m' names callers} :
    Reached p ⟨n + 1, task, m, names, callers⟩ →
    p.InExpr n m task task' m' ∨ p.InCall n m task task' m' ∨ p.InStmt n m task task' m' →
    Reached p ⟨n, task', m', names, callers⟩
  | frame {n task task' m m' names callers} :
    Reached p ⟨n + 1, task, m, names, callers⟩ →
    p.InFrame n m task task' m' →
    Reached p ⟨n, task', { m' with scopes := m'.scopes.push }, names.push, callers⟩
  | rest {n s rest m m' names callers} :
    Reached p ⟨n + 1, .block (s :: rest), m, names, callers⟩ →
    p.exec n s m = .ok .normal m' →
    Reached p ⟨n, .block rest, m', s.declared p.globals names, callers⟩
  | body {n f cells position m names callers} :
    Reached p ⟨n + 1, .invoke f cells position, m, names, callers⟩ →
    m.depth < Machine.maxDepth →
    Reached p ⟨n, .block f.body,
      { m with scopes := Scopes.ofArguments f.params cells, depth := m.depth + 1 },
      Scopes.ofParams f.params, ⟨names, m.scopes⟩ :: callers⟩

theorem Reached.main_body {p : Program} {f : Function} {m : Machine} (fuel : Nat)
    (resting : p.Resting m) (found : p.globals.function? "main" = some f)
    (none_taken : f.params = []) :
    p.Reached ⟨fuel, .block f.body, { m with scopes := Scopes.empty, depth := 1 }, Scopes.empty,
      [⟨Scopes.empty, Scopes.empty⟩]⟩ := by
  have called : p.Reached ⟨fuel + 1, .invoke f [] f.position, m, Scopes.empty, []⟩ :=
    .main resting found none_taken
  obtain ⟨no_names, outermost⟩ := resting.idle
  have shallow : m.depth < Machine.maxDepth := by
    rw [outermost]
    decide
  have begun := called.body shallow
  rw [none_taken, no_names, outermost] at begun
  exact begun

/-- Whether the second statement of `main` is a call that begins in this way: with which function,
    on which cells and on which machine. -/
def callsWhere (p : Program) (m : Machine) (begins : Function → List CellId → Machine → Bool) :
    Bool :=
  (p.globals.function? "main").any fun main => main.params.isEmpty && match main.body with
    | s :: .call _ _ callee args :: _ => (p.globals.function? callee).any fun f =>
      match p.exec 60 s { m with scopes := Scopes.empty, depth := 1 } with
      | .ok .normal m1 =>
        match p.bindArguments 57 f.params args m1 with
        | .ok cells m2 => begins f cells m2
        | .error _ _ => false
      | _ => false
    | _ => false

theorem reached_of_callsWhere {p : Program} {m : Machine}
    {begins : Function → List CellId → Machine → Bool} (resting : p.Resting m)
    (h : p.callsWhere m begins = true) :
    ∃ main s callAt node callee args rest f cells m' names callers,
      p.globals.function? "main" = some main ∧
      main.body = s :: .call callAt node callee args :: rest ∧
      p.globals.function? callee = some f ∧
      p.Reached ⟨57, .invoke f cells node.position, m', names, callers⟩ ∧
      begins f cells m' = true := by
  obtain ⟨main, found, h⟩ := (Option.any_eq_true _ _).mp h
  rw [Bool.and_eq_true, List.isEmpty_iff] at h
  obtain ⟨none_taken, h⟩ := h
  split at h
  · rename_i s callAt node callee args rest body
    obtain ⟨f, called, h⟩ := (Option.any_eq_true _ _).mp h
    split at h
    · rename_i m1 ran
      split at h
      · rename_i cells m2 bound
        have block := Reached.main_body 61 resting found none_taken
        rw [body] at block
        have statement := (block.rest ran).part (.inr (.inr .statement))
        have call := statement.part (.inr (.inr .callStatement))
        have reached := call.part (.inr (.inl (.invoke called bound)))
        exact ⟨main, s, callAt, node, callee, args, rest, f, cells, m2, _, _, found, body, called,
          reached, h⟩
      · cases h
    · cases h
  · cases h

end Program
end LoopLang
