import LoopLang.Proofs.Execution.Outcome
import LoopLang.Proofs.Tree.Calls

namespace LoopLang

namespace Run

/-- At depth `d` in calls, the computation does not run out of fuel, and stays at this depth. -/
def Halts {α : Type} (x : Run α) (d : Nat) : Prop :=
  ∀ m : Machine, m.depth = d →
    match x m with
    | .ok _ m' => m'.depth = d
    | .error stop _ => stop ≠ .outOfFuel

variable {α β : Type} {d : Nat}

theorem Halts.pure {a : α} : (pure a : Run α).Halts d := fun _ depth => depth

theorem Halts.bind {x : Run α} {f : α → Run β} (first : x.Halts d)
    (second : ∀ a, (f a).Halts d) : (x >>= f).Halts d := by
  intro m depth
  have now := first m depth
  cases run : x m with
  | error stop m' =>
    rw [run] at now
    rw [bind_of_error run]
    exact now
  | ok a m' =>
    rw [run] at now
    rw [bind_of_ok run]
    exact second a m' now

theorem Halts.fail {fault : Fault} : (Run.fail fault : Run α).Halts d :=
  fun _ _ same => Stop.noConfusion same

theorem Halts.lift {x : Except Fault α} : (Run.lift x).Halts d := by
  cases x with
  | error fault => exact .fail
  | ok a => exact .pure

theorem Halts.get_bind {f : Machine → Run β} (rest : ∀ m, m.depth = d → (f m).Halts d) :
    (get >>= f).Halts d := fun m depth => rest m depth m depth

theorem Halts.modify {f : Machine → Machine} (keeps : ∀ m, (f m).depth = m.depth) :
    (modify f : Run Unit).Halts d := fun m depth => (keeps m).trans depth

theorem Halts.cellOf {name : String} {position : Position} : (cellOf name position).Halts d := by
  refine .get_bind fun m _ => ?_
  split
  · exact .pure
  · exact .fail

theorem Halts.newCell {v : Value} : (newCell v).Halts d := fun _ depth => depth

theorem Halts.define {name : String} {v : Value} {position : Position} :
    (define name v position).Halts d := by
  refine Halts.newCell.bind fun cell => .get_bind fun m _ => ?_
  split
  · exact .modify fun _ => rfl
  · exact .fail

theorem Halts.fetch {cell : CellId} {position : Position} : (fetch cell position).Halts d := by
  refine .get_bind fun m _ => ?_
  split
  · exact .fail
  · exact .pure

theorem Halts.borrow {cell : CellId} {body : Run α} (h : body.Halts d) :
    (borrow cell body).Halts d := by
  intro m depth
  have inside := h { m with borrowed := cell :: m.borrowed } depth
  unfold Run.borrow
  dsimp only
  cases ran : body { m with borrowed := cell :: m.borrowed } with
  | ok a m' =>
    rw [ran] at inside
    exact inside
  | error stop m' =>
    rw [ran] at inside
    exact inside

theorem Halts.change {act : Value → Except Fault (α × Value)} {cell : CellId}
    {position : Position} : (change cell position act).Halts d := by
  refine Halts.fetch.bind fun v => .borrow (Halts.lift.bind fun (_, v) => ?_)
  exact Halts.bind (.modify fun _ => rfl) fun _ => .pure

theorem Halts.inFrame {body : Run α} (h : body.Halts d) : (inFrame body).Halts d := by
  intro m depth
  have inside := h { m with scopes := m.scopes.push } depth
  unfold Run.inFrame
  cases ran : body { m with scopes := m.scopes.push } with
  | ok a m' =>
    rw [ran] at inside
    exact inside
  | error stop m' =>
    rw [ran] at inside
    exact inside

theorem Halts.inCall {scopes : Scopes CellId} {body : Run α} (h : body.Halts (d + 1)) :
    (inCall scopes body).Halts d := by
  intro m depth
  have inside := h { m with scopes, depth := m.depth + 1 } (congrArg (· + 1) depth)
  unfold Run.inCall
  dsimp only
  cases ran : body { m with scopes, depth := m.depth + 1 } with
  | ok a m' => exact depth
  | error stop m' =>
    rw [ran] at inside
    exact inside

end Run

theorem Node.sizeOf_pos (node : Node) : 0 < sizeOf node := by
  cases node
  rw [Node.mk.sizeOf_spec]
  omega

theorem Position.sizeOf_pos (position : Position) : 0 < sizeOf position := by
  cases position
  rw [Position.mk.sizeOf_spec]
  omega

theorem Expr.sizeOf_pos (e : Expr) : 0 < sizeOf e := by
  cases e <;> simp +arith

theorem Stmt.sizeOf_pos (s : Stmt) : 0 < sizeOf s := by
  cases s <;> simp +arith

theorem sizeOf_list_pos {α : Type} [SizeOf α] (items : List α) : 0 < sizeOf items := by
  cases items with
  | nil => exact Nat.one_pos
  | cons item items =>
    rw [List.cons.sizeOf_spec]
    omega

namespace Program

/-- The fuel to keep back for the calls that may still be made inside of `d` calls. -/
noncomputable def reserve (p : Program) (d : Nat) : Nat :=
  (Machine.maxDepth - d) * sizeOf p.globals.functions

theorem reserve_of_lt {p : Program} {d : Nat} (shallow : d < Machine.maxDepth) :
    p.reserve d = sizeOf p.globals.functions + p.reserve (d + 1) := by
  have more : Machine.maxDepth - d = Machine.maxDepth - (d + 1) + 1 := by omega
  rw [reserve, more, Nat.succ_mul, Nat.add_comm, reserve]

theorem sizeOf_body_lt {p : Program} {f : Function} (reachable : p.globals.Reachable f) :
    sizeOf f.body < sizeOf p.globals.functions := by
  have inside : sizeOf f < sizeOf p.globals.functions := List.sizeOf_lt_of_mem reachable.mem
  have part : sizeOf f.body < sizeOf f := by
    cases f
    simp only [Function.mk.sizeOf_spec]
    omega
  exact Nat.lt_trans part inside

/-- With fuel `n`, every function of the interpreter comes to an end on code that is small enough,
    and that leads to functions without loops only. -/
structure Halting (p : Program) (n : Nat) : Prop where
  eval : ∀ e {d}, p.globals.Leads e.callees → sizeOf e + p.reserve d ≤ n → (p.eval n e).Halts d
  evalList : ∀ args {d}, p.globals.Leads (Expr.calleesOf args) →
    sizeOf args + p.reserve d ≤ n → (p.evalList n args).Halts d
  evalSteps : ∀ steps {d}, p.globals.Leads (Step.calleesOf steps) →
    sizeOf steps + p.reserve d ≤ n → (p.evalSteps n steps).Halts d
  evalFields : ∀ {s fields} given {d}, p.globals.Leads (Field.calleesOf given) →
    sizeOf given + p.reserve d ≤ n → (p.evalFields n s fields given).Halts d
  evalMethod : ∀ {position root} steps {name nameAt} args {d},
    p.globals.Leads (Step.calleesOf steps) → p.globals.Leads (Expr.calleesOf args) →
    sizeOf steps + sizeOf args + p.reserve d ≤ n →
    (p.evalMethod n position root steps name nameAt args).Halts d
  evalCall : ∀ callee args {position d}, p.globals.Leads (callee :: Expr.calleesOf args) →
    sizeOf args + p.reserve d < n → (p.evalCall n callee args position).Halts d
  bindArguments : ∀ {params} args {d}, p.globals.Leads (Expr.calleesOf args) →
    sizeOf args + p.reserve d ≤ n → (p.bindArguments n params args).Halts d
  invoke : ∀ {f cells position d}, p.globals.Reachable f →
    p.reserve d < n → (p.invoke n f cells position).Halts d
  execBlock : ∀ body {d}, p.globals.Leads (Stmt.calleesOf body) → Stmt.looplessAll body →
    sizeOf body + p.reserve d ≤ n → (p.execBlock n body).Halts d
  exec : ∀ s {d}, p.globals.Leads s.callees → s.loopless →
    sizeOf s + p.reserve d ≤ n → (p.exec n s).Halts d
  execBranches : ∀ branches otherwise {d}, p.globals.Leads (Stmt.calleesOfBranches branches) →
    Stmt.looplessBranches branches →
    (∀ body ∈ otherwise, p.globals.Leads (Stmt.calleesOf body) ∧ Stmt.looplessAll body) →
    sizeOf branches + sizeOf otherwise + p.reserve d ≤ n →
    (p.execBranches n branches otherwise).Halts d

variable {p : Program} {n d : Nat}

section Expressions

variable (ih : p.Halting n)
include ih

theorem eval_halts (e : Expr) (leads : p.globals.Leads e.callees)
    (small : sizeOf e + p.reserve d ≤ n + 1) : (p.eval (n + 1) e).Halts d := by
  cases e with
  | literal node value =>
    rw [eval]
    exact .lift
  | place node root steps =>
    rw [Expr.place.sizeOf_spec] at small
    rw [eval.eq_def]
    refine .get_bind fun m _ => ?_
    split
    · refine Run.Halts.cellOf.bind fun cell => ?_
      refine (ih.evalSteps steps leads (by omega)).bind fun path => ?_
      exact Run.Halts.fetch.bind fun v => .lift
    · split
      · split
        · exact .pure
        · exact .fail
      · exact .fail
  | method node root steps name nameAt args =>
    rw [Expr.method.sizeOf_spec] at small
    obtain ⟨inSteps, inArgs⟩ := Globals.Leads.append.mp leads
    rw [eval]
    refine (ih.evalMethod steps args inSteps inArgs (by omega)).bind fun result => ?_
    split
    · exact .pure
    · exact .fail
  | call node callee args =>
    rw [Expr.call.sizeOf_spec] at small
    have := node.sizeOf_pos
    rw [eval]
    refine (ih.evalCall callee args leads (by omega)).bind fun result => ?_
    split
    · exact .pure
    · exact .fail
  | math node op left right =>
    rw [Expr.math.sizeOf_spec] at small
    obtain ⟨inLeft, inRight⟩ := Globals.Leads.append.mp leads
    rw [eval]
    refine (ih.eval left inLeft (by omega)).bind fun a => ?_
    exact (ih.eval right inRight (by omega)).bind fun b => .lift
  | compare node op left right =>
    rw [Expr.compare.sizeOf_spec] at small
    obtain ⟨inLeft, inRight⟩ := Globals.Leads.append.mp leads
    rw [eval]
    refine (ih.eval left inLeft (by omega)).bind fun a => ?_
    exact (ih.eval right inRight (by omega)).bind fun b => .lift
  | unary node op operand =>
    rw [Expr.unary.sizeOf_spec] at small
    rw [eval]
    exact (ih.eval operand leads (by omega)).bind fun v => .lift
  | build node name given =>
    rw [Expr.build.sizeOf_spec] at small
    rw [eval]
    split
    · exact .fail
    · refine (ih.evalFields given leads (by omega)).bind fun fields => ?_
      exact Run.Halts.lift.bind fun v => .pure

theorem evalList_halts (args : List Expr) (leads : p.globals.Leads (Expr.calleesOf args))
    (small : sizeOf args + p.reserve d ≤ n + 1) : (p.evalList (n + 1) args).Halts d := by
  cases args with
  | nil =>
    rw [evalList]
    exact .pure
  | cons e es =>
    rw [List.cons.sizeOf_spec] at small
    obtain ⟨inFirst, inRest⟩ := Globals.Leads.append.mp leads
    rw [evalList]
    refine (ih.eval e inFirst (by omega)).bind fun v => ?_
    exact (ih.evalList es inRest (by omega)).bind fun vs => .pure

theorem evalSteps_halts (steps : List Step) (leads : p.globals.Leads (Step.calleesOf steps))
    (small : sizeOf steps + p.reserve d ≤ n + 1) : (p.evalSteps (n + 1) steps).Halts d := by
  cases steps with
  | nil =>
    rw [evalSteps]
    exact .pure
  | cons step steps =>
    rw [List.cons.sizeOf_spec] at small
    cases step with
    | member name position =>
      rw [evalSteps]
      exact (ih.evalSteps steps leads (by omega)).bind fun path => .pure
    | index e =>
      rw [Step.index.sizeOf_spec] at small
      obtain ⟨inIndex, inRest⟩ := Globals.Leads.append.mp leads
      rw [evalSteps]
      refine (ih.eval e inIndex (by omega)).bind fun v => ?_
      split
      · exact (ih.evalSteps steps inRest (by omega)).bind fun path => .pure
      · exact .fail

theorem evalFields_halts {s : Struct} {fields : List (String × Value)} (given : List Field)
    (leads : p.globals.Leads (Field.calleesOf given))
    (small : sizeOf given + p.reserve d ≤ n + 1) :
    (p.evalFields (n + 1) s fields given).Halts d := by
  cases given with
  | nil =>
    rw [evalFields]
    exact .pure
  | cons field rest =>
    obtain ⟨name, position, value⟩ := field
    rw [List.cons.sizeOf_spec, Field.mk.sizeOf_spec] at small
    obtain ⟨inValue, inRest⟩ := Globals.Leads.append.mp leads
    rw [evalFields]
    split
    · exact .fail
    · refine (ih.eval value inValue (by omega)).bind fun v => ?_
      exact ih.evalFields rest inRest (by omega)

theorem evalMethod_halts {position : Position} {root : String} (steps : List Step)
    {name : String} {nameAt : Position} (args : List Expr)
    (inSteps : p.globals.Leads (Step.calleesOf steps))
    (inArgs : p.globals.Leads (Expr.calleesOf args))
    (small : sizeOf steps + sizeOf args + p.reserve d ≤ n + 1) :
    (p.evalMethod (n + 1) position root steps name nameAt args).Halts d := by
  have stepsSize : 0 < sizeOf steps := sizeOf_list_pos steps
  have argsSize : 0 < sizeOf args := sizeOf_list_pos args
  rw [evalMethod]
  refine Run.Halts.cellOf.bind fun cell => ?_
  refine (ih.evalSteps steps inSteps (by omega)).bind fun path => ?_
  exact (ih.evalList args inArgs (by omega)).bind fun vs => .change

theorem evalCall_halts (callee : String) (args : List Expr) {position : Position}
    (leads : p.globals.Leads (callee :: Expr.calleesOf args))
    (small : sizeOf args + p.reserve d < n + 1) :
    (p.evalCall (n + 1) callee args position).Halts d := by
  have argsSize : 0 < sizeOf args := sizeOf_list_pos args
  obtain ⟨called, inArgs⟩ := Globals.Leads.cons.mp leads
  rw [evalCall]
  split
  · rename_i f found
    refine (ih.bindArguments args inArgs (by omega)).bind fun cells => ?_
    exact ih.invoke (called f found) (by omega)
  · split
    · exact .fail
    · refine (ih.evalList args inArgs (by omega)).bind fun vs => Run.Halts.lift.bind fun line? => ?_
      cases line? with
      | none => exact .pure
      | some line => exact Run.Halts.bind (.modify fun _ => rfl) fun _ => .pure

theorem bindArguments_halts {params : List Param} (args : List Expr)
    (leads : p.globals.Leads (Expr.calleesOf args))
    (small : sizeOf args + p.reserve d ≤ n + 1) :
    (p.bindArguments (n + 1) params args).Halts d := by
  rcases params with _ | ⟨param, params⟩
  · rw [bindArguments]
    · exact .pure
    · simp
  rcases args with _ | ⟨arg, args⟩
  · rw [bindArguments]
    · exact .pure
    · simp
  rw [List.cons.sizeOf_spec] at small
  obtain ⟨inFirst, inRest⟩ := Globals.Leads.append.mp leads
  have rest : ∀ cell, (do return cell :: (← p.bindArguments n params args)).Halts d :=
    fun cell => (ih.bindArguments args inRest (by omega)).bind fun cells => .pure
  rw [bindArguments]
  split
  · split
    · exact Run.Halts.cellOf.bind rest
    · exact .fail
  · exact (ih.eval arg inFirst (by omega)).bind fun v => Run.Halts.newCell.bind rest

theorem invoke_halts (loopless : ∀ f, p.globals.Reachable f → Stmt.looplessAll f.body)
    {f : Function} {cells : List CellId} {position : Position}
    (reachable : p.globals.Reachable f) (small : p.reserve d < n + 1) :
    (p.invoke (n + 1) f cells position).Halts d := by
  rw [invoke]
  refine .get_bind fun m depth => ?_
  rw [depth]
  split
  · exact .fail
  · rename_i shallow
    rw [reserve_of_lt (Nat.not_le.mp shallow)] at small
    have size := sizeOf_body_lt reachable
    have body := ih.execBlock f.body (d := d + 1) reachable.leads (loopless f reachable) (by omega)
    refine (Run.Halts.inCall body).bind fun flow => ?_
    split
    · exact .pure
    · exact .fail
    · exact .pure

end Expressions

section Statements

variable (ih : p.Halting n)
include ih

theorem execBlock_halts (body : List Stmt) (leads : p.globals.Leads (Stmt.calleesOf body))
    (loopless : Stmt.looplessAll body) (small : sizeOf body + p.reserve d ≤ n + 1) :
    (p.execBlock (n + 1) body).Halts d := by
  cases body with
  | nil =>
    rw [execBlock]
    exact .pure
  | cons s rest =>
    rw [List.cons.sizeOf_spec] at small
    obtain ⟨inFirst, inRest⟩ := Globals.Leads.append.mp leads
    obtain ⟨first, others⟩ := Bool.and_eq_true_iff.mp loopless
    rw [execBlock]
    refine (ih.exec s inFirst first (by omega)).bind fun flow => ?_
    split
    · exact ih.execBlock rest inRest others (by omega)
    · exact .pure

theorem execBranches_halts (branches : List (Branch Stmt)) (otherwise : Option (List Stmt))
    (leads : p.globals.Leads (Stmt.calleesOfBranches branches))
    (loopless : Stmt.looplessBranches branches)
    (last : ∀ body ∈ otherwise,
      p.globals.Leads (Stmt.calleesOf body) ∧ Stmt.looplessAll body)
    (small : sizeOf branches + sizeOf otherwise + p.reserve d ≤ n + 1) :
    (p.execBranches (n + 1) branches otherwise).Halts d := by
  rcases branches with _ | ⟨⟨test, body⟩, branches⟩
  · rcases otherwise with _ | body
    · rw [execBranches]
      exact .pure
    · rw [List.nil.sizeOf_spec, Option.some.sizeOf_spec] at small
      rw [execBranches]
      obtain ⟨inBody, bodyLoopless⟩ := last body rfl
      exact .inFrame (ih.execBlock body inBody bodyLoopless (by omega))
  · rw [List.cons.sizeOf_spec, Branch.mk.sizeOf_spec] at small
    obtain ⟨inFirst, inRest⟩ := Globals.Leads.append.mp leads
    obtain ⟨inTest, inBody⟩ := Globals.Leads.append.mp inFirst
    obtain ⟨first, others⟩ := Bool.and_eq_true_iff.mp loopless
    rw [execBranches]
    refine (ih.eval test inTest (by omega)).bind fun v => ?_
    split
    · exact .inFrame (ih.execBlock body inBody first (by omega))
    · exact ih.execBranches branches otherwise inRest others last (by omega)
    · exact .fail

theorem exec_halts (s : Stmt) (leads : p.globals.Leads s.callees) (loopless : s.loopless)
    (small : sizeOf s + p.reserve d ≤ n + 1) : (p.exec (n + 1) s).Halts d := by
  cases s with
  | declare node name type =>
    rw [exec]
    refine Run.Halts.lift.bind fun type => Run.Halts.lift.bind fun v => ?_
    exact Run.Halts.define.bind fun _ => .pure
  | define node name type value isConst =>
    rw [Stmt.define.sizeOf_spec] at small
    rw [exec]
    refine Run.Halts.lift.bind fun type => (ih.eval value leads (by omega)).bind fun v => ?_
    exact Run.Halts.define.bind fun _ => .pure
  | assign position target root steps value =>
    rw [Stmt.assign.sizeOf_spec] at small
    obtain ⟨inValue, inSteps⟩ := Globals.Leads.append.mp leads
    rw [exec]
    refine (ih.eval value inValue (by omega)).bind fun v => Run.Halts.lift.bind fun type => ?_
    refine Run.Halts.cellOf.bind fun cell => ?_
    exact (ih.evalSteps steps inSteps (by omega)).bind fun path => .change
  | loop position body => cases loopless
  | choose position first elifs otherwise =>
    obtain ⟨test, body⟩ := first
    rw [Stmt.choose.sizeOf_spec] at small
    rw [Stmt.callees.eq_def] at leads
    rw [Stmt.loopless.eq_def] at loopless
    obtain ⟨inBranches, inLast⟩ := Globals.Leads.append.mp leads
    obtain ⟨branches, last⟩ := Bool.and_eq_true_iff.mp loopless
    have := position.sizeOf_pos
    rw [exec]
    refine ih.execBranches _ otherwise inBranches branches (fun body given => ?_) ?_
    · cases given
      exact ⟨inLast, last⟩
    · rw [List.cons.sizeOf_spec]
      omega
  | «return» position value =>
    rcases value with _ | e
    · rw [exec]
      exact .pure
    · rw [Stmt.return.sizeOf_spec, Option.some.sizeOf_spec] at small
      rw [exec]
      exact (ih.eval e leads (by omega)).bind fun v => .pure
  | «break» position | «continue» position =>
    rw [exec]
    exact .pure
  | call position node callee args =>
    rw [Stmt.call.sizeOf_spec] at small
    have := node.sizeOf_pos
    rw [exec]
    exact (ih.evalCall callee args leads (by omega)).bind fun _ => .pure
  | place position node root steps =>
    rw [Stmt.place.sizeOf_spec] at small
    have := position.sizeOf_pos
    rw [exec]
    refine (ih.eval (.place node root steps) leads ?_).bind fun _ => .pure
    rw [Expr.place.sizeOf_spec]
    omega
  | method position node root steps name nameAt args =>
    rw [Stmt.method.sizeOf_spec] at small
    obtain ⟨inSteps, inArgs⟩ := Globals.Leads.append.mp leads
    rw [exec]
    exact (ih.evalMethod steps args inSteps inArgs (by omega)).bind fun _ => .pure

end Statements

theorem halting_zero : p.Halting 0 := by
  constructor
  · intro e d _ small
    have := e.sizeOf_pos
    omega
  · intro args d _ small
    have := sizeOf_list_pos args
    omega
  · intro steps d _ small
    have := sizeOf_list_pos steps
    omega
  · intro s fields given d _ small
    have := sizeOf_list_pos given
    omega
  · intro position root steps name nameAt args d _ _ small
    have := sizeOf_list_pos steps
    omega
  · intro callee args position d _ small
    exact absurd small (Nat.not_lt_zero _)
  · intro params args d _ small
    have := sizeOf_list_pos args
    omega
  · intro f cells position d _ small
    exact absurd small (Nat.not_lt_zero _)
  · intro body d _ _ small
    have := sizeOf_list_pos body
    omega
  · intro s d _ _ small
    have := s.sizeOf_pos
    omega
  · intro branches otherwise d _ _ _ small
    have := sizeOf_list_pos branches
    omega

/-- The induction is on the fuel, as that is what the interpreter recurses on. -/
theorem halting (loopless : ∀ f, p.globals.Reachable f → Stmt.looplessAll f.body) (n : Nat) :
    p.Halting n := by
  induction n with
  | zero => exact halting_zero
  | succ n ih =>
    constructor
    · exact fun e => eval_halts ih e
    · exact fun args => evalList_halts ih args
    · exact fun steps => evalSteps_halts ih steps
    · exact fun given => evalFields_halts ih given
    · exact fun steps _ _ args => evalMethod_halts ih steps args
    · exact fun callee args => evalCall_halts ih callee args
    · exact fun args => bindArguments_halts ih args
    · exact invoke_halts ih loopless
    · exact fun body => execBlock_halts ih body
    · exact fun s => exec_halts ih s
    · exact fun branches otherwise => execBranches_halts ih branches otherwise

theorem main_halts (loopless : ∀ f, p.globals.Reachable f → Stmt.looplessAll f.body)
    {fuel : Nat} (enough : p.reserve 0 < fuel) (d : Nat) : (p.main fuel).Halts d := by
  have reserved : p.reserve d ≤ p.reserve 0 :=
    Nat.mul_le_mul_right _ (Nat.sub_le_sub_left d.zero_le _)
  rcases main_cases p fuel with ⟨f, found, _, calls⟩ | ⟨error, fails⟩
  · rw [calls]
    refine ((halting loopless fuel).invoke (.main found) ?_).bind fun _ => .pure
    exact Nat.lt_of_le_of_lt reserved enough
  · rw [fails]
    exact .fail

/-- A run of a compiled program in which calls lead from `main` to no function with a loop comes
    to an end, however its functions call each other. What it needs for that does not depend on the
    machine. As it has no internal fault either, all default values that it needs are there. -/
theorem ends_of_loopless {source : String} (compiled : compile source = .ok p)
    (loopless : ∀ f, p.globals.Reachable f → Stmt.looplessAll f.body) :
    ∃ fuel, ∀ more ≥ fuel, ∀ m, p.Resting m →
      (p.runOn more m).1 = .done ∨ (∃ error, (p.runOn more m).1 = .failed (.runtime error)) ∨
        ∃ position, (p.runOn more m).1 = .failed (.assertion position) := by
  have typed := typed_of_compile compiled
  refine ⟨p.reserve 0 + 1, fun more enough m resting => ?_⟩
  obtain ⟨d, stored⟩ := resting.stored typed
  have safe := main_safe typed stored more
  have halts := main_halts loopless enough m.depth m rfl
  unfold Run.Safe at safe
  unfold runOn
  cases ran : p.main more m with
  | ok _ m' => exact .inl rfl
  | error stop m' =>
    rw [ran] at safe halts
    cases stop with
    | outOfFuel => exact absurd rfl halts
    | fault fault =>
      cases fault with
      | runtime error => exact .inr (.inl ⟨error, rfl⟩)
      | assertion position => exact .inr (.inr ⟨position, rfl⟩)
      | internal defect position => exact safe.1.elim

def bouncing : String :=
  "struct Ball { weight: u8 = 1 } struct Court { ball: Ball } " ++
  "func ping(n: u8) { pong(n); } func pong(n: u8) { if (n > 0) { ping(n); } } " ++
  "func wait() { loop { } } func main() { court: Court; ping(court.ball.weight); }"

def bouncers : List String := ["main", "ping", "pong"]

theorem bouncing_ends : ∃ p, compile bouncing = .ok p ∧
    (∃ f ∈ p.globals.functions, ¬Stmt.looplessAll f.body) ∧
    ∃ fuel, ∀ more ≥ fuel, ∀ m, p.Resting m →
      (p.runOn more m).1 = .done ∨ (∃ error, (p.runOn more m).1 = .failed (.runtime error)) ∨
        ∃ position, (p.runOn more m).1 = .failed (.assertion position) := by
  have facts : (compile bouncing).toOption.any fun p =>
      (p.globals.functions.any fun f => !Stmt.looplessAll f.body) &&
      p.globals.functions.all fun f => !bouncers.contains f.name ||
        (Stmt.calleesOf f.body).all bouncers.contains && Stmt.looplessAll f.body := by
    decide +kernel
  obtain ⟨p, compiled, facts⟩ := exists_of_any facts
  obtain ⟨waits, others⟩ := Bool.and_eq_true_iff.mp facts
  have bounces : ∀ f ∈ p.globals.functions, f.name ∈ bouncers →
      Stmt.calleesOf f.body ⊆ bouncers ∧ Stmt.looplessAll f.body := by
    intro f inside named
    have checked := List.all_eq_true.mp others f inside
    rw [List.contains_iff_mem.mpr named] at checked
    obtain ⟨calls, loopless⟩ := Bool.and_eq_true_iff.mp checked
    exact ⟨fun name called => List.contains_iff_mem.mp (List.all_eq_true.mp calls name called),
      loopless⟩
  obtain ⟨wait, inside, loops⟩ := List.any_eq_true.mp waits
  refine ⟨p, compiled, ⟨wait, inside, by simpa using loops⟩, ?_⟩
  refine ends_of_loopless compiled fun f reachable => (bounces f reachable.mem ?_).2
  exact reachable.name_mem (by decide) fun f inside named => (bounces f inside named).1

end Program
end LoopLang
