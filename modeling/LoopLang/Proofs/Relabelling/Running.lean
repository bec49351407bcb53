import LoopLang.Proofs.Execution.Runs
import LoopLang.Proofs.Relabelling.Values

namespace LoopLang

namespace Run

variable {α β γ δ : Type}

/-- With other labels `y` does what `x` does. A machine holds no numbers of nodes. -/
def Follows (r : Relabelling) (act : α → β) (x : Run α) (y : Run β) : Prop :=
  ∀ m : Machine, y (m.moved r.place) =
    match x m with
    | .ok a n => .ok (act a) (n.moved r.place)
    | .error stop n => .error (stop.relabelled r) (n.moved r.place)

namespace Follows

variable {r : Relabelling} {act : α → β} {act' : γ → δ}

theorem pure (a : α) : Follows r act (pure a) (pure (act a)) := fun _ => rfl

theorem stop (stop : Stop) : Follows r act (throw stop) (throw (stop.relabelled r)) := fun _ => rfl

theorem bind {x : Run α} {y : Run β} {g : α → Run γ} {h : β → Run δ} (first : Follows r act x y)
    (rest : ∀ a, Follows r act' (g a) (h (act a))) : Follows r act' (x >>= g) (y >>= h) := by
  intro m
  have start := first m
  cases run : x m with
  | ok a n =>
    rw [run] at start
    rw [bind_of_ok start, bind_of_ok run]
    exact rest a n
  | error stop n =>
    rw [run] at start
    rw [bind_of_error start, bind_of_error run]

theorem next {x y : Run α} {g : α → Run γ} {h : α → Run δ} (first : Follows r id x y)
    (rest : ∀ a, Follows r act' (g a) (h a)) : Follows r act' (x >>= g) (y >>= h) :=
  first.bind rest

theorem lift {x : Except Fault α} {y : Except Fault β} (h : y = carry (Fault.relabelled r) act x) :
    Follows r act (Run.lift x) (Run.lift y) := by
  subst h
  cases x with
  | error fault => exact .stop _
  | ok a => exact .pure a

end Follows
end Run

variable {r : Relabelling}

namespace Run.Follows

variable {α β : Type} {act : α → β}

theorem fail (fault : Fault) : Follows r act (Run.fail fault) (Run.fail (fault.relabelled r)) :=
  .stop (.fault fault)

theorem get_bind {g : Machine → Run α} {h : Machine → Run β}
    (rest : ∀ m, Follows r act (g m) (h (m.moved r.place))) :
    Follows r act (get >>= g) (get >>= h) :=
  fun m => rest m m

theorem newCell (v : Value) : Follows r id (Run.newCell v) (Run.newCell v) := fun _ => rfl

theorem cellOf (name : String) (position : Position) :
    Follows r id (Run.cellOf name position) (Run.cellOf name (r.place position)) := by
  refine get_bind fun m => ?_
  have same : (m.moved r.place).scopes = m.scopes := rfl
  rw [same]
  cases m.scopes.get? name with
  | some cell => exact .pure cell
  | none => exact .fail _

theorem define (name : String) (v : Value) (position : Position) :
    Follows r id (Run.define name v position) (Run.define name v (r.place position)) := by
  refine (newCell v).next fun cell => get_bind fun m => ?_
  have same : (m.moved r.place).scopes = m.scopes := rfl
  rw [same]
  cases m.scopes.define? name cell with
  | some scopes => exact fun _ => rfl
  | none => exact .fail _

theorem fetch (cell : CellId) (position : Position) :
    Follows r id (Run.fetch cell position) (Run.fetch cell (r.place position)) := by
  refine get_bind fun m => ?_
  have same : (m.moved r.place).borrowed = m.borrowed := rfl
  rw [same]
  split
  · exact .fail _
  · exact .pure (m.load cell)

theorem within {x : Run α} {y : Run β} (h : Follows r act x y) (before after : Machine → Machine)
    (enters : ∀ m, before (m.moved r.place) = (before m).moved r.place)
    (leaves : ∀ m, after (m.moved r.place) = (after m).moved r.place) (m : Machine) :
    (match y (before (m.moved r.place)) with
      | .ok b n => EStateM.Result.ok b (after n)
      | .error stop n => .error stop (after n)) =
      match (match x (before m) with
        | .ok a n => EStateM.Result.ok a (after n)
        | .error stop n => .error stop (after n) : EStateM.Result Stop Machine α) with
      | .ok a n => .ok (act a) (n.moved r.place)
      | .error stop n => .error (stop.relabelled r) (n.moved r.place) := by
  rw [enters, h (before m)]
  cases x (before m) with
  | ok a n => exact congrArg (EStateM.Result.ok (act a)) (leaves n)
  | error stop n => exact congrArg (EStateM.Result.error (stop.relabelled r)) (leaves n)

theorem inFrame {x : Run α} {y : Run β} (h : Follows r act x y) :
    Follows r act (Run.inFrame x) (Run.inFrame y) := by
  intro m
  exact h.within (fun m => { m with scopes := m.scopes.push })
    (fun m => { m with scopes := m.scopes.pop }) (fun _ => rfl) (fun _ => rfl) m

theorem inCall {x : Run α} {y : Run β} (scopes : Scopes CellId) (h : Follows r act x y) :
    Follows r act (Run.inCall scopes x) (Run.inCall scopes y) := by
  intro m
  exact h.within (fun n => { n with scopes, depth := n.depth + 1 })
    (fun n => { n with scopes := m.scopes, depth := m.depth }) (fun _ => rfl) (fun _ => rfl) m

theorem borrow {x : Run α} {y : Run β} (cell : CellId) (h : Follows r act x y) :
    Follows r act (Run.borrow cell x) (Run.borrow cell y) := by
  intro m
  exact h.within (fun n => { n with borrowed := cell :: n.borrowed })
    (fun n => { n with borrowed := m.borrowed }) (fun _ => rfl) (fun _ => rfl) m

theorem change (cell : CellId) (position : Position) {act act' : Value → Except Fault (α × Value)}
    (same : ∀ v, act' v = carry (Fault.relabelled r) id (act v)) :
    Follows r id (Run.change cell position act) (Run.change cell (r.place position) act') := by
  refine (fetch cell position).next fun v => .borrow cell ((lift (same v)).next fun found => ?_)
  have store : Follows r id (modify fun m => m.store cell found.2 : Run Unit)
      (modify fun m => m.store cell found.2) := fun _ => rfl
  exact store.next fun _ => .pure found.1

theorem print (line : Line) : Follows r id (Run.print line) (Run.print (line.moved r.place)) := by
  intro m
  have pushed : (m.lines.push line).map (Line.moved r.place) =
      (m.lines.map (Line.moved r.place)).push (line.moved r.place) := Array.map_push
  change _ = EStateM.Result.ok () { m with lines := (m.lines.push line).map (Line.moved r.place) }
  rw [pushed]
  rfl

end Run.Follows

namespace Scopes

theorem ofArguments_relabelled (params : List Param) (cells : List CellId) :
    ofArguments (params.map (Param.moved r.place)) cells = ofArguments params cells := by
  rw [ofArguments, List.zip_map_left, List.foldl_map]
  rfl

end Scopes

namespace Program

/-- With this fuel every function of the interpreter does with a program of other labels what it
does with the program itself. -/
structure RunsAs (r : Relabelling) (p p' : Program) (n : Nat) : Prop where
  same : p.Matches r p'
  eval (e : Expr) : Run.Follows r id (p.eval n e) (p'.eval n (e.relabelled r))
  evalList (args : List Expr) :
    Run.Follows r id (p.evalList n args) (p'.evalList n (Expr.relabelledAll r args))
  evalSteps (steps : List Step) :
    Run.Follows r (List.map (PathStep.moved r.place)) (p.evalSteps n steps)
      (p'.evalSteps n (Step.relabelledAll r steps))
  evalFields (s : Struct) (fields : List (String × Value)) (given : List Field) :
    Run.Follows r id (p.evalFields n s fields given)
      (p'.evalFields n (s.relabelled r) fields (Field.relabelledAll r given))
  evalMethod (position : Position) (root : String) (steps : List Step) (name : String)
      (nameAt : Position) (args : List Expr) :
    Run.Follows r id (p.evalMethod n position root steps name nameAt args)
      (p'.evalMethod n (r.place position) root (Step.relabelledAll r steps) name (r.place nameAt)
        (Expr.relabelledAll r args))
  evalCall (callee : String) (args : List Expr) (position : Position) :
    Run.Follows r id (p.evalCall n callee args position)
      (p'.evalCall n callee (Expr.relabelledAll r args) (r.place position))
  bindArguments (params : List Param) (args : List Expr) :
    Run.Follows r id (p.bindArguments n params args)
      (p'.bindArguments n (params.map (Param.moved r.place)) (Expr.relabelledAll r args))
  invoke (g : Function) (cells : List CellId) (position : Position) :
    Run.Follows r id (p.invoke n g cells position)
      (p'.invoke n (g.relabelled r) cells (r.place position))
  execBlock (body : List Stmt) :
    Run.Follows r id (p.execBlock n body) (p'.execBlock n (Stmt.relabelledAll r body))
  exec (s : Stmt) : Run.Follows r id (p.exec n s) (p'.exec n (s.relabelled r))
  execBranches (branches : List (Branch Stmt)) (otherwise : Option (List Stmt)) :
    Run.Follows r id (p.execBranches n branches otherwise)
      (p'.execBranches n (Stmt.relabelledBranches r branches)
        (otherwise.map (Stmt.relabelledAll r)))
  repeatBlock (body : List Stmt) :
    Run.Follows r id (p.repeatBlock n body) (p'.repeatBlock n (Stmt.relabelledAll r body))

namespace RunsAs

variable {p p' : Program} {n : Nat}

theorem zero (same : p.Matches r p') : RunsAs r p p' 0 := by
  refine ⟨same, ?_, ?_, ?_, ?_, ?_, ?_, ?_, ?_, ?_, ?_, ?_, ?_⟩ <;> intros
  · rw [Program.eval, Program.eval]; exact .stop .outOfFuel
  · rw [Program.evalList, Program.evalList]; exact .stop .outOfFuel
  · rw [Program.evalSteps, Program.evalSteps]; exact .stop .outOfFuel
  · rw [Program.evalFields, Program.evalFields]; exact .stop .outOfFuel
  · rw [Program.evalMethod, Program.evalMethod]; exact .stop .outOfFuel
  · rw [Program.evalCall, Program.evalCall]; exact .stop .outOfFuel
  · rw [Program.bindArguments, Program.bindArguments]; exact .stop .outOfFuel
  · rw [Program.invoke, Program.invoke]; exact .stop .outOfFuel
  · rw [Program.execBlock, Program.execBlock]; exact .stop .outOfFuel
  · rw [Program.exec, Program.exec]; exact .stop .outOfFuel
  · rw [Program.execBranches, Program.execBranches]; exact .stop .outOfFuel
  · rw [Program.repeatBlock, Program.repeatBlock]; exact .stop .outOfFuel

variable (ih : RunsAs r p p' n)
include ih

theorem evalPlace_succ (node : Node) (root : String) (steps : List Step) :
    Run.Follows r id (p.eval (n + 1) (.place node root steps))
      (p'.eval (n + 1) ((Expr.place node root steps).relabelled r)) := by
  rw [Expr.relabelled, Program.eval.eq_def, Program.eval.eq_def]
  refine .get_bind fun m => ?_
  have same : (m.moved r.place).scopes = m.scopes := rfl
  rw [same]
  split
  · refine (Run.Follows.cellOf root node.position).next fun cell => ?_
    refine (ih.evalSteps steps).bind fun path => ?_
    exact (Run.Follows.fetch cell node.position).next fun v => .lift (v.read_relabelled path)
  · rcases steps with _ | ⟨_ | ⟨name, nameAt⟩, _ | ⟨_, _⟩⟩
    case cons.member.nil =>
      simp only [Step.relabelledAll, Step.relabelled, ih.same.globals.isEnum]
      split
      · exact .pure _
      · exact .fail _
    all_goals exact .fail _

theorem eval_succ (e : Expr) :
    Run.Follows r id (p.eval (n + 1) e) (p'.eval (n + 1) (e.relabelled r)) := by
  cases e with
  | literal node value =>
    rw [Expr.relabelled, Program.eval, Program.eval]
    exact .lift (literal_relabelled ih.same node value)
  | place node root steps => exact ih.evalPlace_succ node root steps
  | method node root steps name nameAt args =>
    rw [Expr.relabelled, Program.eval, Program.eval]
    refine (ih.evalMethod node.position root steps name nameAt args).next fun v => ?_
    cases v with
    | some v => exact .pure v
    | none => exact .fail _
  | call node callee args =>
    rw [Expr.relabelled, Program.eval, Program.eval]
    refine (ih.evalCall callee args node.position).next fun v => ?_
    cases v with
    | some v => exact .pure v
    | none => exact .fail _
  | math node op left right =>
    rw [Expr.relabelled, Program.eval, Program.eval]
    exact (ih.eval left).next fun a => (ih.eval right).next fun b =>
      .lift (math_relabelled ih.same node op a b)
  | compare node op left right =>
    rw [Expr.relabelled, Program.eval, Program.eval]
    exact (ih.eval left).next fun a => (ih.eval right).next fun b =>
      .lift (op.apply_relabelled a b node.position)
  | unary node op operand =>
    rw [Expr.relabelled, Program.eval, Program.eval]
    exact (ih.eval operand).next fun v => .lift (unary_relabelled ih.same node op v)
  | build node name given =>
    rw [Expr.relabelled, Program.eval, Program.eval, ih.same.globals.struct?]
    cases p.globals.struct? name with
    | none => exact .fail _
    | some s =>
      refine (ih.evalFields s [] given).next fun fields => ?_
      exact (Run.Follows.lift (withDefaults_relabelled ih.same node.position s.members fields)).next
        fun fields => .pure (Value.struct name fields)

theorem evalList_succ (args : List Expr) :
    Run.Follows r id (p.evalList (n + 1) args)
      (p'.evalList (n + 1) (Expr.relabelledAll r args)) := by
  cases args with
  | nil =>
    rw [Expr.relabelledAll, Program.evalList, Program.evalList]
    exact .pure []
  | cons e es =>
    rw [Expr.relabelledAll, Program.evalList, Program.evalList]
    exact (ih.eval e).next fun v => (ih.evalList es).next fun vs => .pure _

theorem evalSteps_succ (steps : List Step) :
    Run.Follows r (List.map (PathStep.moved r.place)) (p.evalSteps (n + 1) steps)
      (p'.evalSteps (n + 1) (Step.relabelledAll r steps)) := by
  cases steps with
  | nil =>
    rw [Step.relabelledAll, Program.evalSteps, Program.evalSteps]
    exact .pure []
  | cons step steps =>
    cases step with
    | member name position =>
      rw [Step.relabelledAll, Step.relabelled, Program.evalSteps, Program.evalSteps]
      exact (ih.evalSteps steps).bind fun path => .pure (PathStep.field name position :: path)
    | index e =>
      rw [Step.relabelledAll, Step.relabelled, Program.evalSteps, Program.evalSteps]
      refine (ih.eval e).next fun v => ?_
      rw [Expr.relabelled_position]
      split
      · rename_i i _
        exact (ih.evalSteps steps).bind fun path => .pure (PathStep.index i e.position :: path)
      · exact .fail _

theorem evalFields_succ (s : Struct) (fields : List (String × Value)) (given : List Field) :
    Run.Follows r id (p.evalFields (n + 1) s fields given)
      (p'.evalFields (n + 1) (s.relabelled r) fields (Field.relabelledAll r given)) := by
  cases given with
  | nil =>
    rw [Field.relabelledAll, Program.evalFields, Program.evalFields]
    exact .pure fields
  | cons field rest =>
    obtain ⟨name, position, value⟩ := field
    rw [Field.relabelledAll, Field.relabelled, Program.evalFields, Program.evalFields,
      Struct.relabelled_member?]
    cases s.member? name with
    | none => exact .fail _
    | some m => exact (ih.eval value).next fun v => ih.evalFields s _ rest

theorem evalMethod_succ (position : Position) (root : String) (steps : List Step) (name : String)
    (nameAt : Position) (args : List Expr) :
    Run.Follows r id (p.evalMethod (n + 1) position root steps name nameAt args)
      (p'.evalMethod (n + 1) (r.place position) root (Step.relabelledAll r steps) name
        (r.place nameAt) (Expr.relabelledAll r args)) := by
  rw [Program.evalMethod, Program.evalMethod]
  refine (Run.Follows.cellOf root position).next fun cell => ?_
  refine (ih.evalSteps steps).bind fun path => (ih.evalList args).next fun vs => ?_
  exact .change cell nameAt fun v =>
    v.update_relabelled (Method.call_relabelled name vs nameAt) path

theorem evalCall_succ (callee : String) (args : List Expr) (position : Position) :
    Run.Follows r id (p.evalCall (n + 1) callee args position)
      (p'.evalCall (n + 1) callee (Expr.relabelledAll r args) (r.place position)) := by
  rw [Program.evalCall, Program.evalCall, ih.same.globals.function?]
  cases p.globals.function? callee with
  | some g =>
    exact (ih.bindArguments g.params args).next fun cells => ih.invoke g cells position
  | none =>
    dsimp only [Option.map_none]
    cases Builtin.ofName? callee with
    | none => exact .fail _
    | some b =>
      refine (ih.evalList args).next fun vs => ?_
      refine (Run.Follows.lift (b.apply_relabelled vs position)).bind fun line? => ?_
      cases line? with
      | none => exact .pure none
      | some line => exact (Run.Follows.print line).next fun _ => .pure none

theorem bindArguments_succ (params : List Param) (args : List Expr) :
    Run.Follows r id (p.bindArguments (n + 1) params args)
      (p'.bindArguments (n + 1) (params.map (Param.moved r.place))
        (Expr.relabelledAll r args)) := by
  rcases params with _ | ⟨param, params⟩
  · rw [List.map_nil, Program.bindArguments, Program.bindArguments]
    · exact .pure []
    all_goals simp
  rcases args with _ | ⟨arg, args⟩
  · rw [Expr.relabelledAll, Program.bindArguments, Program.bindArguments]
    · exact .pure []
    all_goals simp
  rw [List.map_cons, Expr.relabelledAll, Program.bindArguments, Program.bindArguments]
  have rest (cell : CellId) : Run.Follows r id ((cell :: ·) <$> p.bindArguments n params args)
      ((cell :: ·) <$> p'.bindArguments n (params.map (Param.moved r.place))
        (Expr.relabelledAll r args)) := by
    rw [map_eq_pure_bind, map_eq_pure_bind]
    exact (ih.bindArguments params args).next fun cells => .pure _
  have byReference : (param.moved r.place).byReference = param.byReference := rfl
  rw [byReference, Expr.relabelled_bareName?, Expr.relabelled_position]
  split
  · cases arg.bareName? with
    | some name => exact (Run.Follows.cellOf name arg.position).next rest
    | none => exact .fail _
  · exact (ih.eval arg).next fun v => (Run.Follows.newCell _).next rest

theorem invoke_succ (g : Function) (cells : List CellId) (position : Position) :
    Run.Follows r id (p.invoke (n + 1) g cells position)
      (p'.invoke (n + 1) (g.relabelled r) cells (r.place position)) := by
  rw [Program.invoke, Program.invoke]
  refine .get_bind fun m => ?_
  have same : (m.moved r.place).depth = m.depth := rfl
  rw [same]
  split
  · exact .fail _
  · have scopes : Scopes.ofArguments (g.relabelled r).params cells =
        Scopes.ofArguments g.params cells := Scopes.ofArguments_relabelled g.params cells
    rw [scopes]
    refine (ih.execBlock g.body |>.inCall _).next fun flow => ?_
    have returns : (g.relabelled r).returns = g.returns := rfl
    rw [returns]
    split
    · exact .pure _
    · exact .fail _
    · exact .pure _

theorem execBlock_succ (body : List Stmt) :
    Run.Follows r id (p.execBlock (n + 1) body)
      (p'.execBlock (n + 1) (Stmt.relabelledAll r body)) := by
  cases body with
  | nil =>
    rw [Stmt.relabelledAll, Program.execBlock, Program.execBlock]
    exact .pure _
  | cons s rest =>
    rw [Stmt.relabelledAll, Program.execBlock, Program.execBlock]
    refine (ih.exec s).next fun flow => ?_
    split
    · exact ih.execBlock rest
    · exact .pure _

theorem execBranches_succ (branches : List (Branch Stmt)) (otherwise : Option (List Stmt)) :
    Run.Follows r id (p.execBranches (n + 1) branches otherwise)
      (p'.execBranches (n + 1) (Stmt.relabelledBranches r branches)
        (otherwise.map (Stmt.relabelledAll r))) := by
  cases branches with
  | nil =>
    cases otherwise with
    | none =>
      rw [Stmt.relabelledBranches, Option.map_none, Program.execBranches, Program.execBranches]
      exact .pure _
    | some body =>
      rw [Stmt.relabelledBranches, Option.map_some, Program.execBranches, Program.execBranches]
      exact (ih.execBlock body).inFrame
  | cons branch branches =>
    rw [Stmt.relabelledBranches, Program.execBranches, Program.execBranches]
    refine (ih.eval branch.condition).next fun v => ?_
    rw [Expr.relabelled_position]
    split
    · exact (ih.execBlock branch.body).inFrame
    · exact ih.execBranches branches otherwise
    · exact .fail _

theorem repeatBlock_succ (body : List Stmt) :
    Run.Follows r id (p.repeatBlock (n + 1) body)
      (p'.repeatBlock (n + 1) (Stmt.relabelledAll r body)) := by
  rw [Program.repeatBlock, Program.repeatBlock]
  have again : Run.Follows r id
      (do modify fun m => { m with scopes := m.scopes.clear }; p.repeatBlock n body)
      (do
        modify fun m => { m with scopes := m.scopes.clear }
        p'.repeatBlock n (Stmt.relabelledAll r body)) :=
    fun m => ih.repeatBlock body { m with scopes := m.scopes.clear }
  refine (ih.execBlock body).next fun flow => ?_
  split
  · exact again
  · exact again
  · exact .pure _
  · exact .pure _

theorem exec_succ (s : Stmt) :
    Run.Follows r id (p.exec (n + 1) s) (p'.exec (n + 1) (s.relabelled r)) := by
  cases s with
  | declare node name type =>
    rw [Stmt.relabelled, Program.exec, Program.exec]
    refine (Run.Follows.lift (typeOf_relabelled ih.same node)).next fun type => ?_
    refine (Run.Follows.lift (defaultValue_relabelled ih.same node.position type)).next fun v => ?_
    exact (Run.Follows.define name v node.position).next fun _ => .pure _
  | define node name type value isConst =>
    rw [Stmt.relabelled, Program.exec, Program.exec]
    refine (Run.Follows.lift (typeOf_relabelled ih.same node)).next fun type => ?_
    refine (ih.eval value).next fun v => ?_
    exact (Run.Follows.define name _ node.position).next fun _ => .pure _
  | assign position target root steps value =>
    rw [Stmt.relabelled, Program.exec, Program.exec]
    refine (ih.eval value).next fun v => ?_
    refine (Run.Follows.lift (typeOf_relabelled ih.same target)).next fun type => ?_
    refine (Run.Follows.cellOf root target.position).next fun cell => ?_
    refine (ih.evalSteps steps).bind fun path => ?_
    exact .change cell target.position fun old =>
      carry_bind (old.write_relabelled (v.coerce type) path) fun _ => rfl
  | loop position body =>
    rw [Stmt.relabelled, Program.exec, Program.exec]
    exact (ih.repeatBlock body).inFrame
  | choose position first elifs otherwise =>
    obtain ⟨test, body⟩ := first
    cases otherwise with
    | none =>
      simp only [Stmt.relabelled, Program.exec]
      exact ih.execBranches (⟨test, body⟩ :: elifs) none
    | some last =>
      simp only [Stmt.relabelled, Program.exec]
      exact ih.execBranches (⟨test, body⟩ :: elifs) (some last)
  | «return» position value =>
    cases value with
    | none =>
      rw [Stmt.relabelled, Option.map_none, Program.exec, Program.exec]
      exact .pure _
    | some e =>
      rw [Stmt.relabelled, Option.map_some, Program.exec, Program.exec]
      exact (ih.eval e).next fun v => .pure _
  | «break» position | «continue» position =>
    rw [Stmt.relabelled, Program.exec, Program.exec]
    exact .pure _
  | call position node callee args =>
    rw [Stmt.relabelled, Program.exec, Program.exec]
    exact (ih.evalCall callee args node.position).next fun _ => .pure _
  | place position node root steps =>
    rw [Stmt.relabelled, Program.exec, Program.exec]
    exact (ih.eval (.place node root steps)).next fun _ => .pure _
  | method position node root steps name nameAt args =>
    rw [Stmt.relabelled, Program.exec, Program.exec]
    exact (ih.evalMethod node.position root steps name nameAt args).next fun _ => .pure _

theorem succ : RunsAs r p p' (n + 1) where
  same := ih.same
  eval := ih.eval_succ
  evalList := ih.evalList_succ
  evalSteps := ih.evalSteps_succ
  evalFields := ih.evalFields_succ
  evalMethod := ih.evalMethod_succ
  evalCall := ih.evalCall_succ
  bindArguments := ih.bindArguments_succ
  invoke := ih.invoke_succ
  execBlock := ih.execBlock_succ
  exec := ih.exec_succ
  execBranches := ih.execBranches_succ
  repeatBlock := ih.repeatBlock_succ

end RunsAs

theorem runsAs {p p' : Program} (same : p.Matches r p') (n : Nat) : RunsAs r p p' n := by
  induction n with
  | zero => exact .zero same
  | succ n ih => exact ih.succ

theorem main_follows {p p' : Program} (same : p.Matches r p') (n : Nat) :
    Run.Follows r id (p.main n) (p'.main n) := by
  unfold main
  rw [same.globals.function?]
  cases p.globals.function? "main" with
  | none => exact .fail _
  | some g =>
    have params : (g.relabelled r).params.isEmpty = g.params.isEmpty := List.isEmpty_map
    simp only [Option.map_some, params]
    split
    · exact .fail _
    · exact ((runsAs same n).invoke g [] g.position).next fun _ => .pure ()

/-- A program with other labels leaves a machine with the same lines at other places, and ends as
    the program itself. -/
theorem runOn_relabelled {p p' : Program} (same : p.Matches r p') (fuel : Nat) (m : Machine) :
    p'.runOn fuel (m.moved r.place) =
      ((p.runOn fuel m).1.relabelled r, (p.runOn fuel m).2.moved r.place) := by
  rw [runOn, runOn, main_follows same fuel m]
  cases p.main fuel m with
  | ok _ m => rfl
  | error stop m => cases stop <;> rfl

end Program
end LoopLang
