import LoopLang.Execution
import LoopLang.Proofs.Execution.Runs

namespace LoopLang

namespace Run

variable {α β : Type} {x y z : Run α}

/-- The first computation ends as the second one does, unless the second is out of fuel. -/
def Outlasts (x y : Run α) : Prop := ∀ m, (∃ m', y m = .error .outOfFuel m') ∨ x m = y m

namespace Outlasts

theorem refl (x : Run α) : x.Outlasts x := fun _ => .inr rfl

theorem empty (x : Run α) : x.Outlasts (throw .outOfFuel) := fun m => .inl ⟨m, rfl⟩

theorem trans (first : x.Outlasts y) (second : y.Outlasts z) : x.Outlasts z := by
  intro m
  rcases second m with out | same
  · exact .inl out
  · rcases first m with ⟨m', out⟩ | same'
    · exact .inl ⟨m', same.symm.trans out⟩
    · exact .inr (same'.trans same)

theorem bind {f g : α → Run β} (first : x.Outlasts y) (rest : ∀ a, (f a).Outlasts (g a)) :
    (x >>= f).Outlasts (y >>= g) := by
  intro m
  rcases first m with ⟨m', out⟩ | same
  · exact .inl ⟨m', bind_of_error out⟩
  · cases run : y m with
    | error stop m' =>
      rw [run] at same
      exact .inr ((bind_of_error same).trans (bind_of_error run).symm)
    | ok a m' =>
      rw [run] at same
      rw [bind_of_ok same, bind_of_ok run]
      exact rest a m'

theorem inFrame (body : x.Outlasts y) : (inFrame x).Outlasts (Run.inFrame y) := by
  intro m
  unfold Run.inFrame
  rcases body { m with scopes := m.scopes.push } with ⟨m', out⟩ | same
  · exact .inl ⟨_, by rw [out]⟩
  · exact .inr (by rw [same])

theorem inCall (scopes : Scopes CellId) (body : x.Outlasts y) :
    (inCall scopes x).Outlasts (Run.inCall scopes y) := by
  intro m
  unfold Run.inCall
  dsimp only
  rcases body { m with scopes, depth := m.depth + 1 } with ⟨m', out⟩ | same
  · exact .inl ⟨_, by rw [out]⟩
  · exact .inr (by rw [same])

theorem of_le {x : Nat → Run α} (steady : ∀ n, (x (n + 1)).Outlasts (x n)) {n k : Nat}
    (more : n ≤ k) : (x k).Outlasts (x n) := by
  induction more with
  | refl => exact .refl _
  | step _ ih => exact (steady _).trans ih

end Outlasts

def Ends (x : Nat → Run α) (m : Machine) (r : EStateM.Result Stop Machine α) : Prop :=
  (∃ n, x n m = r) ∧ ∀ m', r ≠ .error .outOfFuel m'

def Diverges (x : Nat → Run α) (m : Machine) : Prop := ∀ n, ∃ m', x n m = .error .outOfFuel m'

section Ends

variable {x y : Nat → Run α} {m : Machine} {r r' : EStateM.Result Stop Machine α}

theorem Ends.with_more (steady : ∀ n, (x (n + 1)).Outlasts (x n)) (h : Ends x m r) :
    ∃ n, ∀ k, n ≤ k → x k m = r := by
  obtain ⟨⟨n, rfl⟩, enough⟩ := h
  refine ⟨n, fun k more => ?_⟩
  rcases Outlasts.of_le steady more m with ⟨m', out⟩ | same
  · exact absurd out (enough m')
  · exact same

theorem Ends.unique (steady : ∀ n, (x (n + 1)).Outlasts (x n)) (h : Ends x m r)
    (h' : Ends x m r') : r = r' := by
  obtain ⟨n, same⟩ := h.with_more steady
  obtain ⟨k, same'⟩ := h'.with_more steady
  exact (same (max n k) (Nat.le_max_left n k)).symm.trans (same' _ (Nat.le_max_right n k))

theorem Ends.of_outlasts (longer : ∀ n, ∃ k, (y k).Outlasts (x n)) (h : Ends x m r) :
    Ends y m r := by
  obtain ⟨⟨n, rfl⟩, enough⟩ := h
  obtain ⟨k, lasts⟩ := longer n
  rcases lasts m with ⟨m', out⟩ | same
  · exact absurd out (enough m')
  · exact ⟨⟨k, same⟩, enough⟩

theorem Diverges.of_outlasts (longer : ∀ n, ∃ k, (y k).Outlasts (x n)) (h : Diverges y m) :
    Diverges x m := by
  intro n
  obtain ⟨k, lasts⟩ := longer n
  rcases lasts m with out | same
  · exact out
  · obtain ⟨m', out⟩ := h k
    exact ⟨m', same.symm.trans out⟩

end Ends
end Run

namespace Program

/-- With one unit of fuel more than `n`, every function of the interpreter ends as with `n`. -/
structure Lasting (p : Program) (n : Nat) : Prop where
  eval : ∀ e, (p.eval (n + 1) e).Outlasts (p.eval n e)
  evalList : ∀ es, (p.evalList (n + 1) es).Outlasts (p.evalList n es)
  evalSteps : ∀ steps, (p.evalSteps (n + 1) steps).Outlasts (p.evalSteps n steps)
  evalFields : ∀ s fields given,
    (p.evalFields (n + 1) s fields given).Outlasts (p.evalFields n s fields given)
  evalMethod : ∀ position root steps name nameAt args,
    (p.evalMethod (n + 1) position root steps name nameAt args).Outlasts
      (p.evalMethod n position root steps name nameAt args)
  evalCall : ∀ callee args position,
    (p.evalCall (n + 1) callee args position).Outlasts (p.evalCall n callee args position)
  bindArguments : ∀ params args,
    (p.bindArguments (n + 1) params args).Outlasts (p.bindArguments n params args)
  invoke : ∀ f cells position,
    (p.invoke (n + 1) f cells position).Outlasts (p.invoke n f cells position)
  execBlock : ∀ body, (p.execBlock (n + 1) body).Outlasts (p.execBlock n body)
  exec : ∀ s, (p.exec (n + 1) s).Outlasts (p.exec n s)
  execBranches : ∀ branches otherwise,
    (p.execBranches (n + 1) branches otherwise).Outlasts (p.execBranches n branches otherwise)
  repeatBlock : ∀ body, (p.repeatBlock (n + 1) body).Outlasts (p.repeatBlock n body)

variable {p : Program} {n : Nat}

open Run (Outlasts)

theorem lasting_zero : p.Lasting 0 := by
  constructor <;> intros
  · rw [eval]; exact .empty _
  · rw [evalList]; exact .empty _
  · rw [evalSteps]; exact .empty _
  · rw [evalFields]; exact .empty _
  · rw [evalMethod]; exact .empty _
  · rw [evalCall]; exact .empty _
  · rw [bindArguments]; exact .empty _
  · rw [invoke]; exact .empty _
  · rw [execBlock]; exact .empty _
  · rw [exec]; exact .empty _
  · rw [execBranches]; exact .empty _
  · rw [repeatBlock]; exact .empty _

section Step

variable (ih : p.Lasting n)
include ih

theorem eval_lasts (e : Expr) : (p.eval (n + 2) e).Outlasts (p.eval (n + 1) e) := by
  cases e with
  | literal node value =>
    rw [eval, eval]
    exact .refl _
  | place node root steps =>
    rw [eval.eq_def, eval.eq_def]
    apply (Outlasts.refl get).bind
    intro m
    by_cases bound : m.scopes.contains root = true
    · simp only [bound, if_true]
      apply (Outlasts.refl _).bind
      intro cell
      exact (ih.evalSteps steps).bind fun path => .refl _
    · simp only [bound]
      exact .refl _
  | method node root steps name nameAt args =>
    rw [eval, eval]
    exact (ih.evalMethod _ _ _ _ _ _).bind fun result => .refl _
  | call node callee args =>
    rw [eval, eval]
    exact (ih.evalCall _ _ _).bind fun result => .refl _
  | math node op left right | compare node op left right =>
    rw [eval, eval]
    apply (ih.eval left).bind
    intro a
    exact (ih.eval right).bind fun b => .refl _
  | unary node op operand =>
    rw [eval, eval]
    exact (ih.eval operand).bind fun v => .refl _
  | build node name given =>
    rw [eval, eval]
    cases p.globals.struct? name with
    | none => exact .refl _
    | some s => exact (ih.evalFields s [] given).bind fun fields => .refl _

theorem evalList_lasts (es : List Expr) :
    (p.evalList (n + 2) es).Outlasts (p.evalList (n + 1) es) := by
  cases es with
  | nil =>
    rw [evalList, evalList]
    exact .refl _
  | cons e es =>
    rw [evalList, evalList]
    apply (ih.eval e).bind
    intro v
    exact (ih.evalList es).bind fun vs => .refl _

theorem evalSteps_lasts (steps : List Step) :
    (p.evalSteps (n + 2) steps).Outlasts (p.evalSteps (n + 1) steps) := by
  cases steps with
  | nil =>
    rw [evalSteps, evalSteps]
    exact .refl _
  | cons step steps =>
    cases step with
    | member name position =>
      rw [evalSteps, evalSteps]
      exact (ih.evalSteps steps).bind fun path => .refl _
    | index e =>
      rw [evalSteps, evalSteps]
      apply (ih.eval e).bind
      intro v
      cases v.int? with
      | none => exact .refl _
      | some i => exact (ih.evalSteps steps).bind fun path => .refl _

theorem evalFields_lasts (s : Struct) (fields : List (String × Value)) (given : List Field) :
    (p.evalFields (n + 2) s fields given).Outlasts (p.evalFields (n + 1) s fields given) := by
  cases given with
  | nil =>
    rw [evalFields, evalFields]
    exact .refl _
  | cons field rest =>
    obtain ⟨name, position, value⟩ := field
    rw [evalFields, evalFields]
    cases s.member? name with
    | none => exact .refl _
    | some m => exact (ih.eval value).bind fun v => ih.evalFields s _ rest

theorem evalMethod_lasts (position : Position) (root : String) (steps : List Step)
    (name : String) (nameAt : Position) (args : List Expr) :
    (p.evalMethod (n + 2) position root steps name nameAt args).Outlasts
      (p.evalMethod (n + 1) position root steps name nameAt args) := by
  rw [evalMethod, evalMethod]
  apply (Outlasts.refl _).bind
  intro cell
  apply (ih.evalSteps steps).bind
  intro path
  exact (ih.evalList args).bind fun vs => .refl _

theorem evalCall_lasts (callee : String) (args : List Expr) (position : Position) :
    (p.evalCall (n + 2) callee args position).Outlasts
      (p.evalCall (n + 1) callee args position) := by
  rw [evalCall, evalCall]
  cases p.globals.function? callee with
  | some f => exact (ih.bindArguments f.params args).bind fun cells => ih.invoke f cells position
  | none =>
    cases Builtin.ofName? callee with
    | none => exact .refl _
    | some b => exact (ih.evalList args).bind fun vs => .refl _

theorem bindArguments_lasts (params : List Param) (args : List Expr) :
    (p.bindArguments (n + 2) params args).Outlasts (p.bindArguments (n + 1) params args) := by
  cases params with
  | nil =>
    rw [bindArguments, bindArguments]
    exact .refl _
    all_goals simp
  | cons param params =>
    cases args with
    | nil =>
      rw [bindArguments, bindArguments]
      exact .refl _
      all_goals simp
    | cons arg args =>
      rw [bindArguments, bindArguments]
      have others (cell : CellId) : Outlasts
          (do return cell :: (← p.bindArguments (n + 1) params args))
          (do return cell :: (← p.bindArguments n params args)) :=
        (ih.bindArguments params args).bind fun cells => .refl _
      cases param.byReference with
      | true =>
        cases arg.bareName? with
        | none => exact (Outlasts.refl _).bind others
        | some name => exact (Outlasts.refl _).bind others
      | false => exact (ih.eval arg).bind fun v => (Outlasts.refl _).bind others

theorem invoke_lasts (f : Function) (cells : List CellId) (position : Position) :
    (p.invoke (n + 2) f cells position).Outlasts (p.invoke (n + 1) f cells position) := by
  rw [invoke, invoke]
  apply (Outlasts.refl get).bind
  intro m
  by_cases deep : Machine.maxDepth ≤ m.depth
  · simp only [deep, if_true]
    exact .refl _
  · simp only [deep]
    exact (Outlasts.inCall _ (ih.execBlock f.body)).bind fun flow => .refl _

theorem execBlock_lasts (body : List Stmt) :
    (p.execBlock (n + 2) body).Outlasts (p.execBlock (n + 1) body) := by
  cases body with
  | nil =>
    rw [execBlock, execBlock]
    exact .refl _
  | cons s rest =>
    rw [execBlock, execBlock]
    apply (ih.exec s).bind
    intro flow
    cases flow with
    | normal => exact ih.execBlock rest
    | _ => exact .refl _

theorem exec_lasts (s : Stmt) : (p.exec (n + 2) s).Outlasts (p.exec (n + 1) s) := by
  cases s with
  | declare node name type =>
    rw [exec, exec]
    exact .refl _
  | define node name type value isConst =>
    rw [exec, exec]
    apply (Outlasts.refl _).bind
    intro type
    exact (ih.eval value).bind fun v => .refl _
  | assign position target root steps value =>
    rw [exec, exec]
    apply (ih.eval value).bind
    intro v
    apply (Outlasts.refl _).bind
    intro type
    apply (Outlasts.refl _).bind
    intro cell
    exact (ih.evalSteps steps).bind fun path => .refl _
  | loop position body =>
    rw [exec, exec]
    exact .inFrame (ih.repeatBlock body)
  | choose position first elifs otherwise =>
    rw [exec, exec]
    exact ih.execBranches (first :: elifs) otherwise
  | «return» position value =>
    cases value with
    | none =>
      rw [exec, exec]
      exact .refl _
    | some e =>
      rw [exec, exec]
      exact (ih.eval e).bind fun v => .refl _
  | «break» position | «continue» position =>
    rw [exec, exec]
    exact .refl _
  | call position node callee args =>
    rw [exec, exec]
    exact (ih.evalCall callee args node.position).bind fun result => .refl _
  | place position node root steps =>
    rw [exec, exec]
    exact (ih.eval (.place node root steps)).bind fun v => .refl _
  | method position node root steps name nameAt args =>
    rw [exec, exec]
    exact (ih.evalMethod node.position root steps name nameAt args).bind fun result => .refl _

theorem execBranches_lasts (branches : List (Branch Stmt)) (otherwise : Option (List Stmt)) :
    (p.execBranches (n + 2) branches otherwise).Outlasts
      (p.execBranches (n + 1) branches otherwise) := by
  cases branches with
  | nil =>
    cases otherwise with
    | none =>
      rw [execBranches, execBranches]
      exact .refl _
    | some body =>
      rw [execBranches, execBranches]
      exact .inFrame (ih.execBlock body)
  | cons branch branches =>
    rw [execBranches, execBranches]
    apply (ih.eval branch.condition).bind
    intro v
    cases v.bool? with
    | none => exact .refl _
    | some holds =>
      cases holds with
      | true => exact .inFrame (ih.execBlock branch.body)
      | false => exact ih.execBranches branches otherwise

theorem repeatBlock_lasts (body : List Stmt) :
    (p.repeatBlock (n + 2) body).Outlasts (p.repeatBlock (n + 1) body) := by
  rw [repeatBlock, repeatBlock]
  apply (ih.execBlock body).bind
  intro flow
  cases flow with
  | normal | «continue» => exact (Outlasts.refl _).bind fun _ => ih.repeatBlock body
  | _ => exact .refl _

end Step

theorem lasting (p : Program) (n : Nat) : p.Lasting n := by
  induction n with
  | zero => exact lasting_zero
  | succ n ih =>
    constructor
    · exact eval_lasts ih
    · exact evalList_lasts ih
    · exact evalSteps_lasts ih
    · exact evalFields_lasts ih
    · exact evalMethod_lasts ih
    · exact evalCall_lasts ih
    · exact bindArguments_lasts ih
    · exact invoke_lasts ih
    · exact execBlock_lasts ih
    · exact exec_lasts ih
    · exact execBranches_lasts ih
    · exact repeatBlock_lasts ih

end Program
end LoopLang
