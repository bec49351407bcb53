import LoopLang.Proofs.Execution.Creation
import LoopLang.Proofs.Value.Shallow

namespace LoopLang

namespace Stop

def isOverflow : Stop → Bool
  | .fault reason => reason.isOverflow
  | .outOfFuel => false

end Stop

namespace Run

variable {α β : Type} {m m' : Machine} {x : Run α} {f : α → Run β} {a : α} {stop : Stop}

def stop? (x : Run α) (m : Machine) : Option Stop :=
  match x m with
  | .ok _ _ => none
  | .error stop _ => some stop

theorem stop?_bind_of_ok (h : x m = .ok a m') : (x >>= f).stop? m = (f a).stop? m' := by
  rw [stop?, bind_of_ok h, stop?]

theorem stop?_bind_of_stop (h : x.stop? m = some stop) : (x >>= f).stop? m = some stop := by
  unfold stop? at *
  cases ran : x m with
  | ok a m' =>
    rw [ran] at h
    cases h
  | error stop' m' =>
    rw [ran] at h
    rw [bind_of_error ran]
    exact h

theorem stop?_get_bind (f : Machine → Run β) : (get >>= f).stop? m = (f m).stop? m := rfl

theorem stop?_inFrame (body : Run α) (m : Machine) :
    (inFrame body).stop? m = body.stop? { m with scopes := m.scopes.push } := by
  unfold stop? inFrame
  cases body { m with scopes := m.scopes.push } <;> rfl

theorem stop?_inCall (scopes : Scopes CellId) (body : Run α) (m : Machine) :
    (inCall scopes body).stop? m = body.stop? { m with scopes, depth := m.depth + 1 } := by
  unfold stop? inCall
  dsimp only
  cases body { m with scopes, depth := m.depth + 1 } <;> rfl

end Run

namespace Task

def stop? (p : Program) (n : Nat) (m : Machine) : Task → Option Stop
  | value e => (p.eval n e).stop? m
  | values args => (p.evalList n args).stop? m
  | path steps => (p.evalSteps n steps).stop? m
  | fields s before given => (p.evalFields n s before given).stop? m
  | method position root steps name nameAt args =>
    (p.evalMethod n position root steps name nameAt args).stop? m
  | call callee args position => (p.evalCall n callee args position).stop? m
  | bind params args => (p.bindArguments n params args).stop? m
  | invoke f cells position => (p.invoke n f cells position).stop? m
  | block body => (p.execBlock n body).stop? m
  | statement s => (p.exec n s).stop? m
  | branches choices otherwise => (p.execBranches n choices otherwise).stop? m
  | pass body => (p.repeatBlock n body).stop? m

end Task

namespace Point

def stop? (p : Program) (pt : Point) : Option Stop := pt.task.stop? p pt.fuel pt.machine

end Point

namespace Program

variable {p : Program} {n : Nat} {m m' : Machine} {task task' : Task} {stop : Stop}
  {pt next : Point}

section Propagation

theorem InExpr.stops (h : p.InExpr n m task task' m') (stops : task'.stop? p n m' = some stop) :
    task.stop? p (n + 1) m = some stop := by
  cases h with
  | @place node root steps bound =>
    obtain ⟨cell, found⟩ := Option.isSome_iff_exists.mp bound
    simp only [Task.stop?, eval] at *
    rw [Run.stop?_get_bind, if_pos bound,
      Run.stop?_bind_of_ok (Run.cellOf_of_get? node.position found)]
    exact Run.stop?_bind_of_stop stops
  | method | call | mathLeft | compareLeft | operand =>
    simp only [Task.stop?, eval] at *
    exact Run.stop?_bind_of_stop stops
  | mathRight ran | compareRight ran =>
    simp only [Task.stop?, eval] at *
    rw [Run.stop?_bind_of_ok ran]
    exact Run.stop?_bind_of_stop stops
  | build found =>
    simp only [Task.stop?, eval, found] at *
    exact Run.stop?_bind_of_stop stops
  | first =>
    simp only [Task.stop?, evalList] at *
    exact Run.stop?_bind_of_stop stops
  | others ran =>
    simp only [Task.stop?, evalList] at *
    rw [Run.stop?_bind_of_ok ran]
    exact Run.stop?_bind_of_stop stops
  | index | member =>
    simp only [Task.stop?, evalSteps] at *
    exact Run.stop?_bind_of_stop stops
  | indexed ran isInt =>
    obtain ⟨i, integer⟩ := Option.isSome_iff_exists.mp isInt
    simp only [Task.stop?, evalSteps] at *
    rw [Run.stop?_bind_of_ok ran, integer]
    exact Run.stop?_bind_of_stop stops
  | field found =>
    simp only [Task.stop?, evalFields, found] at *
    exact Run.stop?_bind_of_stop stops
  | moreFields found ran =>
    simp only [Task.stop?, evalFields, found] at *
    rw [Run.stop?_bind_of_ok ran]
    exact stops

theorem InCall.stops (h : p.InCall n m task task' m') (stops : task'.stop? p n m' = some stop) :
    task.stop? p (n + 1) m = some stop := by
  cases h with
  | @methodPath position _ _ _ _ _ _ found =>
    simp only [Task.stop?, evalMethod] at *
    rw [Run.stop?_bind_of_ok (Run.cellOf_of_get? position found)]
    exact Run.stop?_bind_of_stop stops
  | @methodArguments position _ _ _ _ _ _ _ _ found ran =>
    simp only [Task.stop?, evalMethod] at *
    rw [Run.stop?_bind_of_ok (Run.cellOf_of_get? position found), Run.stop?_bind_of_ok ran]
    exact Run.stop?_bind_of_stop stops
  | arguments found =>
    simp only [Task.stop?, evalCall, found] at *
    exact Run.stop?_bind_of_stop stops
  | invoke found ran =>
    simp only [Task.stop?, evalCall, found] at *
    rw [Run.stop?_bind_of_ok ran]
    exact stops
  | builtin missing found =>
    simp only [Task.stop?, evalCall, missing, found] at *
    exact Run.stop?_bind_of_stop stops
  | argument byValue =>
    simp only [Task.stop?, bindArguments, byValue, Bool.false_eq_true, if_false] at *
    exact Run.stop?_bind_of_stop stops
  | afterValue byValue ran new =>
    simp only [Task.stop?, bindArguments, byValue, Bool.false_eq_true, if_false] at *
    rw [Run.stop?_bind_of_ok ran, Run.stop?_bind_of_ok new]
    exact Run.stop?_bind_of_stop stops
  | @afterReference _ _ arg _ _ _ byReference bare found =>
    simp only [Task.stop?, bindArguments, byReference, bare, if_true] at *
    rw [Run.stop?_bind_of_ok (Run.cellOf_of_get? arg.position found)]
    exact Run.stop?_bind_of_stop stops

theorem InStmt.stops (h : p.InStmt n m task task' m') (stops : task'.stop? p n m' = some stop) :
    task.stop? p (n + 1) m = some stop := by
  cases h with
  | statement =>
    simp only [Task.stop?, execBlock] at *
    exact Run.stop?_bind_of_stop stops
  | defined noted =>
    simp only [Task.stop?, exec, noted, Run.lift_ok_bind] at *
    exact Run.stop?_bind_of_stop stops
  | assigned | callStatement | placeStatement | methodStatement | returned =>
    simp only [Task.stop?, exec] at *
    exact Run.stop?_bind_of_stop stops
  | @assignedPlace _ target _ _ _ _ _ _ _ ran noted found =>
    simp only [Task.stop?, exec, noted, Run.lift_ok_bind] at *
    rw [Run.stop?_bind_of_ok ran,
      Run.stop?_bind_of_ok (Run.cellOf_of_get? target.position found)]
    exact Run.stop?_bind_of_stop stops
  | choose =>
    simp only [Task.stop?, exec] at *
    exact stops
  | condition =>
    simp only [Task.stop?, execBranches] at *
    exact Run.stop?_bind_of_stop stops
  | nextBranch ran chosen =>
    simp only [Task.stop?, execBranches] at *
    rw [Run.stop?_bind_of_ok ran, chosen]
    exact stops
  | passBlock =>
    simp only [Task.stop?, repeatBlock] at *
    exact Run.stop?_bind_of_stop stops
  | nextPass ran goesOn =>
    simp only [Task.stop?, repeatBlock] at *
    rw [Run.stop?_bind_of_ok ran]
    rcases goesOn with rfl | rfl <;> exact stops

theorem InFrame.stops (h : p.InFrame n m task task' m')
    (stops : task'.stop? p n { m' with scopes := m'.scopes.push } = some stop) :
    task.stop? p (n + 1) m = some stop := by
  cases h with
  | loop =>
    simp only [Task.stop?, exec, Run.stop?_inFrame] at *
    exact stops
  | branch ran chosen =>
    simp only [Task.stop?, execBranches] at *
    rw [Run.stop?_bind_of_ok ran, chosen]
    exact (Run.stop?_inFrame _ _).trans stops
  | otherwise =>
    simp only [Task.stop?, execBranches, Run.stop?_inFrame] at *
    exact stops

theorem Begins.stops (h : p.Begins pt next) (stops : next.stop? p = some stop) :
    pt.stop? p = some stop := by
  cases h with
  | part h =>
    rcases h with h | h | h
    · exact h.stops stops
    · exact h.stops stops
    · exact h.stops stops
  | frame h => exact h.stops stops
  | rest ran =>
    simp only [Point.stop?, Task.stop?, execBlock] at *
    rw [Run.stop?_bind_of_ok ran]
    exact stops
  | body shallow =>
    simp only [Point.stop?, Task.stop?, invoke] at *
    rw [Run.stop?_get_bind, if_neg (Nat.not_le.mpr shallow)]
    exact Run.stop?_bind_of_stop ((Run.stop?_inCall _ _ _).trans stops)

end Propagation

end Program

namespace Run

variable {α β : Type} {p : Program} {pt next : Point} {m : Machine} {x : Run α} {f : α → Run β}

/-- A computation at a point that ends in a stack overflow only if what it begins does. -/
def Relays (p : Program) (pt : Point) (x : Run α) (m : Machine) : Prop :=
  ∀ stop, x.stop? m = some stop → stop.isOverflow = true →
    ∃ next, p.Begins pt next ∧ next.stop? p = some stop

theorem Relays.pure {a : α} : Relays p pt (Pure.pure a : Run α) m := nofun

theorem Relays.fail {fault : Fault} (other : fault.isOverflow = false) :
    Relays p pt (Run.fail fault : Run α) m := by
  rintro _ ⟨⟩ overflow
  exact (Bool.false_ne_true (other.symm.trans overflow)).elim

theorem Relays.lift {a : Except Fault α} (shallow : Shallow a) : Relays p pt (Run.lift a) m := by
  cases a with
  | ok a => exact .pure
  | error fault => exact .fail (shallow fault rfl)

theorem Relays.begins (begins : p.Begins pt next) (ends : next.stop? p = x.stop? m) :
    Relays p pt x m := fun _ stops _ => ⟨next, begins, ends.trans stops⟩

theorem Relays.bind (first : Relays p pt x m)
    (rest : ∀ a m', x m = .ok a m' → Relays p pt (f a) m') : Relays p pt (x >>= f) m := by
  intro stop stops overflow
  cases ran : x m with
  | ok a m' =>
    rw [stop?_bind_of_ok ran] at stops
    exact rest a m' ran stop stops overflow
  | error stop' m' =>
    have stopped : x.stop? m = some stop' := by rw [stop?, ran]
    rw [stop?_bind_of_stop stopped] at stops
    exact first stop (stopped.trans stops) overflow

theorem Relays.get_bind {g : Machine → Run β} (rest : Relays p pt (g m) m) :
    Relays p pt (get >>= g) m := rest

theorem Relays.modify_bind {g : Machine → Machine} {h : Unit → Run β}
    (rest : Relays p pt (h ()) (g m)) : Relays p pt ((modify g : Run Unit) >>= h) m := rest

theorem Relays.lift_bind {a : Except Fault α} (shallow : Shallow a)
    (rest : ∀ b, a = .ok b → Relays p pt (f b) m) : Relays p pt (Run.lift a >>= f) m := by
  cases a with
  | ok b => exact rest b rfl
  | error fault => exact .fail (shallow fault rfl)

theorem Relays.cellOf_bind {name : String} {position : Position} {g : CellId → Run β}
    (rest : ∀ cell, m.scopes.get? name = some cell → Relays p pt (g cell) m) :
    Relays p pt (Run.cellOf name position >>= g) m := by
  intro stop stops
  cases found : m.scopes.get? name with
  | some cell =>
    rw [stop?_bind_of_ok (cellOf_of_get? position found)] at stops
    exact rest cell found stop stops
  | none =>
    rw [stop?, bind_of_error (cellOf_of_free position found)] at stops
    cases stops
    exact nofun

theorem Relays.fetch {cell : CellId} {position : Position} :
    Relays p pt (Run.fetch cell position) m := by
  refine .get_bind ?_
  split
  · exact .fail rfl
  · exact .pure

theorem Relays.define {name : String} {v : Value} {position : Position} :
    Relays p pt (Run.define name v position) m := by
  refine .bind (fun _ stops => by cases stops) fun cell m' _ => .get_bind ?_
  split
  · exact fun _ stops => by cases stops
  · exact .fail rfl

theorem Relays.change {cell : CellId} {position : Position}
    {act : Value → Except Fault (α × Value)} (shallow : ∀ v, Shallow (act v)) :
    Relays p pt (Run.change cell position act) m := by
  intro stop stops overflow
  by_cases held : cell ∈ m.borrowed
  · rw [stop?, change_of_borrowed position held] at stops
    cases stops
    cases overflow
  · cases done : act (m.load cell) with
    | ok pair =>
      rw [stop?, change_of_ok position held done] at stops
      cases stops
    | error fault =>
      rw [stop?, change_of_error position held done] at stops
      cases stops
      exact (Bool.false_ne_true ((shallow _ fault done).symm.trans overflow)).elim

end Run

namespace Program

variable {p : Program} {n : Nat} {m : Machine} {names : Scopes Binding}
  {callers : List Activation} {pt : Point}

def Relayed (p : Program) (pt : Point) : Prop :=
  ∀ stop, pt.stop? p = some stop → stop.isOverflow = true →
    ∃ next, p.Begins pt next ∧ next.stop? p = some stop

theorem Relayed.of_run {α : Type} {x y : Run α} (opens : y = x)
    (ends : pt.stop? p = y.stop? pt.machine) (relays : x.Relays p pt pt.machine) :
    p.Relayed pt := by
  intro stop stops
  rw [ends, opens] at stops
  exact relays stop stops

theorem value_relayed (e : Expr) : p.Relayed ⟨n + 1, .value e, m, names, callers⟩ := by
  have opens := eval.eq_def p (n + 1) e
  cases e with
  | literal node value => exact .of_run opens rfl (.lift (p.literal_shallow node value))
  | place node root steps =>
    refine .of_run opens rfl (.get_bind ?_)
    by_cases bound : m.scopes.contains root = true
    · rw [if_pos bound]
      exact .cellOf_bind fun cell _ => .bind (.begins (.part (.inl (.place bound))) rfl)
        fun path m1 _ => .bind .fetch fun v _ _ => .lift (v.read_shallow path)
    · rw [if_neg bound]
      split
      · split
        · exact .pure
        · exact .fail rfl
      · exact .fail rfl
  | method node root steps name nameAt args =>
    refine .of_run opens rfl (.bind (.begins (.part (.inl .method)) rfl) fun result _ _ => ?_)
    cases result with
    | some v => exact .pure
    | none => exact .fail rfl
  | call node callee args =>
    refine .of_run opens rfl (.bind (.begins (.part (.inl .call)) rfl) fun result _ _ => ?_)
    cases result with
    | some v => exact .pure
    | none => exact .fail rfl
  | math node op left right =>
    exact .of_run opens rfl (.bind (.begins (.part (.inl .mathLeft)) rfl) fun a _ ran =>
      .bind (.begins (.part (.inl (.mathRight ran))) rfl) fun b _ _ =>
      .lift (p.math_shallow node op a b))
  | compare node op left right =>
    exact .of_run opens rfl (.bind (.begins (.part (.inl .compareLeft)) rfl) fun a _ ran =>
      .bind (.begins (.part (.inl (.compareRight ran))) rfl) fun b _ _ =>
      .lift (op.apply_shallow a b node.position))
  | unary node op operand =>
    exact .of_run opens rfl (.bind (.begins (.part (.inl .operand)) rfl) fun v _ _ =>
      .lift (p.unary_shallow node op v))
  | build node name given =>
    cases found : p.globals.struct? name with
    | none =>
      simp only [found] at opens
      exact .of_run opens rfl (.fail rfl)
    | some s =>
      simp only [found] at opens
      exact .of_run opens rfl (.bind (.begins (.part (.inl (.build found))) rfl)
        fun fields _ _ => .lift_bind (p.withDefaults_shallow _ _ _) fun _ _ => .pure)

theorem values_relayed (args : List Expr) :
    p.Relayed ⟨n + 1, .values args, m, names, callers⟩ := by
  have opens := evalList.eq_def p (n + 1) args
  cases args with
  | nil => exact .of_run opens rfl .pure
  | cons e es =>
    exact .of_run opens rfl (.bind (.begins (.part (.inl .first)) rfl) fun v _ ran =>
      .bind (.begins (.part (.inl (.others ran))) rfl) fun _ _ _ => .pure)

theorem path_relayed (steps : List Step) :
    p.Relayed ⟨n + 1, .path steps, m, names, callers⟩ := by
  have opens := evalSteps.eq_def p (n + 1) steps
  rcases steps with _ | ⟨⟨e⟩ | ⟨name, position⟩, steps⟩
  · exact .of_run opens rfl .pure
  · refine .of_run opens rfl (.bind (.begins (.part (.inl .index)) rfl) fun v _ ran => ?_)
    cases integer : v.int? with
    | none => exact .fail rfl
    | some i =>
      have isInt : v.int?.isSome = true := by rw [integer]; rfl
      exact .bind (.begins (.part (.inl (.indexed ran isInt))) rfl) fun _ _ _ => .pure
  · exact .of_run opens rfl (.bind (.begins (.part (.inl .member)) rfl) fun _ _ _ => .pure)

theorem fields_relayed (s : Struct) (before : List (String × Value)) (given : List Field) :
    p.Relayed ⟨n + 1, .fields s before given, m, names, callers⟩ := by
  have opens := evalFields.eq_def p (n + 1) s before given
  rcases given with _ | ⟨⟨name, position, value⟩, rest⟩
  · exact .of_run opens rfl .pure
  · cases found : s.member? name with
    | none =>
      simp only [found] at opens
      exact .of_run opens rfl (.fail rfl)
    | some k =>
      simp only [found] at opens
      exact .of_run opens rfl (.bind (.begins (.part (.inl (.field found))) rfl) fun v _ ran =>
        .begins (.part (.inl (.moreFields found ran))) rfl)

theorem method_relayed (position : Position) (root : String) (steps : List Step) (name : String)
    (nameAt : Position) (args : List Expr) :
    p.Relayed ⟨n + 1, .method position root steps name nameAt args, m, names, callers⟩ :=
  .of_run (evalMethod.eq_def p (n + 1) position root steps name nameAt args) rfl
    (.cellOf_bind fun _ found => .bind (.begins (.part (.inr (.inl (.methodPath found)))) rfl)
      fun path _ ran => .bind (.begins (.part (.inr (.inl (.methodArguments found ran)))) rfl)
      fun vs _ _ => .change fun v =>
        v.update_shallow (Method.call_shallow name vs nameAt) path)

theorem call_relayed (callee : String) (args : List Expr) (position : Position) :
    p.Relayed ⟨n + 1, .call callee args position, m, names, callers⟩ := by
  have opens := evalCall.eq_def p (n + 1) callee args position
  cases defined : p.globals.function? callee with
  | some f =>
    simp only [defined] at opens
    exact .of_run opens rfl (.bind (.begins (.part (.inr (.inl (.arguments defined)))) rfl)
      fun cells _ ran => .begins (.part (.inr (.inl (.invoke defined ran)))) rfl)
  | none =>
    cases builtin : Builtin.ofName? callee with
    | none =>
      simp only [defined, builtin] at opens
      exact .of_run opens rfl (.fail rfl)
    | some b =>
      simp only [defined, builtin] at opens
      refine .of_run opens rfl (.bind
        (.begins (.part (.inr (.inl (.builtin defined builtin)))) rfl) fun vs _ _ =>
        .lift_bind (b.apply_shallow vs position) fun line? _ => ?_)
      cases line? with
      | none => exact .pure
      | some line => exact .modify_bind .pure

theorem bind_relayed (params : List Param) (args : List Expr) :
    p.Relayed ⟨n + 1, .bind params args, m, names, callers⟩ := by
  have opens := bindArguments.eq_def p (n + 1) params args
  rcases params with _ | ⟨param, params⟩
  · exact .of_run opens rfl .pure
  rcases args with _ | ⟨arg, args⟩
  · exact .of_run opens rfl .pure
  cases passed : param.byReference with
  | true =>
    cases bare : arg.bareName? with
    | none =>
      simp only [passed, bare, if_true] at opens
      exact .of_run opens rfl (.bind (.fail rfl) fun _ _ ran => by cases ran)
    | some name =>
      simp only [passed, bare, if_true] at opens
      exact .of_run opens rfl (.cellOf_bind fun _ found =>
        .bind (.begins (.part (.inr (.inl (.afterReference passed bare found)))) rfl)
          fun _ _ _ => .pure)
  | false =>
    simp only [passed, Bool.false_eq_true, if_false] at opens
    exact .of_run opens rfl (.bind (.begins (.part (.inr (.inl (.argument passed)))) rfl)
      fun v _ ran => .bind (fun _ stops => by cases stops) fun _ _ new =>
      .bind (.begins (.part (.inr (.inl (.afterValue passed ran new)))) rfl) fun _ _ _ => .pure)

theorem statement_relayed (s : Stmt) : p.Relayed ⟨n + 1, .statement s, m, names, callers⟩ := by
  have opens := exec.eq_def p (n + 1) s
  cases s with
  | declare node name written =>
    exact .of_run opens rfl (.lift_bind (p.typeOf_shallow node) fun type _ =>
      .lift_bind (p.defaultWithin_shallow _ _ _) fun _ _ => .bind .define fun _ _ _ => .pure)
  | define node name written value isConst =>
    exact .of_run opens rfl (.lift_bind (p.typeOf_shallow node) fun type noted =>
      .bind (.begins (.part (.inr (.inr (.defined noted)))) rfl) fun _ _ _ =>
      .bind .define fun _ _ _ => .pure)
  | assign position target root steps value =>
    exact .of_run opens rfl (.bind (.begins (.part (.inr (.inr .assigned))) rfl) fun v _ ran =>
      .lift_bind (p.typeOf_shallow target) fun type noted => .cellOf_bind fun cell found =>
      .bind (.begins (.part (.inr (.inr (.assignedPlace ran noted found)))) rfl) fun path _ _ =>
      .change fun old => (old.write_shallow _ path).bind fun _ => .ok)
  | loop position body =>
    exact .of_run opens rfl (.begins (.frame .loop) (Run.stop?_inFrame _ _).symm)
  | choose position first elifs otherwise =>
    exact .of_run opens rfl (.begins (.part (.inr (.inr .choose))) rfl)
  | «return» position value =>
    cases value with
    | none => exact .of_run opens rfl .pure
    | some e =>
      exact .of_run opens rfl (.bind (.begins (.part (.inr (.inr .returned))) rfl)
        fun _ _ _ => .pure)
  | «break» position | «continue» position => exact .of_run opens rfl .pure
  | call position node callee args =>
    exact .of_run opens rfl (.bind (.begins (.part (.inr (.inr .callStatement))) rfl)
      fun _ _ _ => .pure)
  | place position node root steps =>
    exact .of_run opens rfl (.bind (.begins (.part (.inr (.inr .placeStatement))) rfl)
      fun _ _ _ => .pure)
  | method position node root steps name nameAt args =>
    exact .of_run opens rfl (.bind (.begins (.part (.inr (.inr .methodStatement))) rfl)
      fun _ _ _ => .pure)

theorem branches_relayed (choices : List (Branch Stmt)) (otherwise : Option (List Stmt)) :
    p.Relayed ⟨n + 1, .branches choices otherwise, m, names, callers⟩ := by
  have opens := execBranches.eq_def p (n + 1) choices otherwise
  rcases choices with _ | ⟨branch, branches⟩
  · rcases otherwise with _ | body
    · exact .of_run opens rfl .pure
    · exact .of_run opens rfl (.begins (.frame .otherwise) (Run.stop?_inFrame _ _).symm)
  · refine .of_run opens rfl (.bind (.begins (.part (.inr (.inr .condition))) rfl)
      fun v _ ran => ?_)
    cases chosen : v.bool? with
    | none => exact .fail rfl
    | some holds =>
      cases holds with
      | true => exact .begins (.frame (.branch ran chosen)) (Run.stop?_inFrame _ _).symm
      | false => exact .begins (.part (.inr (.inr (.nextBranch ran chosen)))) rfl

theorem pass_relayed (body : List Stmt) : p.Relayed ⟨n + 1, .pass body, m, names, callers⟩ := by
  refine .of_run (repeatBlock.eq_def p (n + 1) body) rfl
    (.bind (.begins (.part (.inr (.inr .passBlock))) rfl) fun flow _ ran => ?_)
  cases flow with
  | normal => exact .modify_bind (.begins (.part (.inr (.inr (.nextPass ran (.inl rfl))))) rfl)
  | «continue» =>
    exact .modify_bind (.begins (.part (.inr (.inr (.nextPass ran (.inr rfl))))) rfl)
  | «break» | «return» value => exact .pure

theorem block_relayed (body : List Stmt) :
    p.Relayed ⟨n + 1, .block body, m, names, callers⟩ := by
  have opens := execBlock.eq_def p (n + 1) body
  rcases body with _ | ⟨s, rest⟩
  · exact .of_run opens rfl .pure
  · refine .of_run opens rfl (.bind (.begins (.part (.inr (.inr .statement))) rfl)
      fun flow _ ran => ?_)
    cases flow with
    | normal => exact .begins (.rest ran) rfl
    | _ => exact .pure

theorem invoke_relayed (f : Function) (cells : List CellId) (position : Position)
    (shallow : m.depth < Machine.maxDepth) :
    p.Relayed ⟨n + 1, .invoke f cells position, m, names, callers⟩ := by
  have opens := invoke.eq_def p (n + 1) f cells position
  refine .of_run opens rfl (.get_bind ?_)
  rw [if_neg (Nat.not_le.mpr shallow)]
  refine .bind (.begins (.body shallow) (Run.stop?_inCall _ _ _).symm) fun flow _ _ => ?_
  split
  · exact .pure
  · exact .fail rfl
  · exact .pure

end Program

/-- At a point a call is due for which there is no room, so that the run stops. -/
inductive Point.Overflows : Point → Stop → Prop where
  | invoke {n f cells position m names callers} :
    Machine.maxDepth ≤ m.depth →
    Overflows ⟨n + 1, .invoke f cells position, m, names, callers⟩
      (.fault (.runtime (.stackOverflow f.name Machine.maxDepth position)))

theorem Point.Overflows.stops {pt : Point} {stop : Stop} (h : pt.Overflows stop) (p : Program) :
    pt.stop? p = some stop := by
  cases h with
  | invoke deep =>
    simp only [Point.stop?, Task.stop?, Program.invoke]
    rw [Run.stop?_get_bind, if_pos deep]
    rfl

namespace Program

variable {p : Program} {pt : Point} {stop : Stop}

theorem overflow_cases (stops : pt.stop? p = some stop) (overflow : stop.isOverflow = true) :
    (∃ next, p.Begins pt next ∧ next.stop? p = some stop) ∨ pt.Overflows stop := by
  obtain ⟨n, task, m, names, callers⟩ := pt
  cases n with
  | zero =>
    have same : stop = .outOfFuel := by
      cases task <;> (cases stops; rfl)
    rw [same] at overflow
    cases overflow
  | succ n =>
    cases task with
    | value e => exact .inl (value_relayed e stop stops overflow)
    | values args => exact .inl (values_relayed args stop stops overflow)
    | path steps => exact .inl (path_relayed steps stop stops overflow)
    | fields s before given => exact .inl (fields_relayed s before given stop stops overflow)
    | method position root steps name nameAt args =>
      exact .inl (method_relayed position root steps name nameAt args stop stops overflow)
    | call callee args position =>
      exact .inl (call_relayed callee args position stop stops overflow)
    | bind params args => exact .inl (bind_relayed params args stop stops overflow)
    | invoke f cells position =>
      by_cases deep : Machine.maxDepth ≤ m.depth
      · have due : Point.Overflows ⟨n + 1, .invoke f cells position, m, names, callers⟩
            (.fault (.runtime (.stackOverflow f.name Machine.maxDepth position))) := .invoke deep
        rw [due.stops p] at stops
        cases stops
        exact .inr due
      · exact .inl (invoke_relayed f cells position (Nat.not_le.mp deep) stop stops overflow)
    | block body => exact .inl (block_relayed body stop stops overflow)
    | statement s => exact .inl (statement_relayed s stop stops overflow)
    | branches choices otherwise =>
      exact .inl (branches_relayed choices otherwise stop stops overflow)
    | pass body => exact .inl (pass_relayed body stop stops overflow)

/-- A run from a point stops in a stack overflow just if it comes to a call for which there is no
    room. -/
theorem stops_iff (overflow : stop.isOverflow = true) :
    pt.stop? p = some stop ↔ ∃ deep, p.Within pt deep ∧ deep.Overflows stop := by
  constructor
  · intro stops
    induction fuel : pt.fuel generalizing pt with
    | zero =>
      rcases overflow_cases stops overflow with ⟨next, begun, _⟩ | here
      · have := begun.fuel
        omega
      · exact ⟨pt, .refl, here⟩
    | succ n ih =>
      rcases overflow_cases stops overflow with ⟨next, begun, later⟩ | here
      · obtain ⟨deep, inside, due⟩ := ih later (by have := begun.fuel; omega)
        exact ⟨deep, .head begun inside, due⟩
      · exact ⟨pt, .refl, here⟩
  · rintro ⟨deep, inside, due⟩
    induction inside using Relation.ReflTransGen.head_induction_on with
    | refl => exact due.stops p
    | head begun _ ih => exact begun.stops ih

end Program
end LoopLang
