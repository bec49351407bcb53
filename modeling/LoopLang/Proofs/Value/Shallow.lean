import LoopLang.Proofs.Value.Unchanged

namespace LoopLang

namespace Fault

def isOverflow : Fault → Bool
  | .runtime (.stackOverflow _ _ _) => true
  | _ => false

end Fault

/-- A computation that does not end in a stack overflow. -/
def Shallow {α : Type} (x : Except Fault α) : Prop :=
  ∀ fault, x = .error fault → fault.isOverflow = false

namespace Shallow

variable {α β : Type} {x : Except Fault α} {f : α → Except Fault β} {a : α} {fault : Fault}

theorem ok : Shallow (.ok a : Except Fault α) := nofun

theorem error (other : fault.isOverflow = false) : Shallow (.error fault : Except Fault α) := by
  rintro _ ⟨⟩
  exact other

theorem bind (first : Shallow x) (rest : ∀ a, Shallow (f a)) : Shallow (x >>= f) := by
  cases x with
  | ok a => exact rest a
  | error fault => exact .error (first fault rfl)

theorem mapM {as : List α} {f : α → Except Fault β} (each : ∀ a ∈ as, Shallow (f a)) :
    Shallow (as.mapM f) := by
  induction as with
  | nil => exact .ok
  | cons a as ih =>
    obtain ⟨first, others⟩ := List.forall_mem_cons.mp each
    rw [List.mapM_cons]
    exact first.bind fun _ => (ih others).bind fun _ => .ok

end Shallow

namespace Program

variable (p : Program)

theorem typeOf_shallow (node : Node) : Shallow (p.typeOf node) := by
  unfold typeOf
  split
  · exact .ok
  · exact .error rfl

theorem literal_shallow (node : Node) (value : Literal) : Shallow (p.literal node value) := by
  cases value with
  | integer value =>
    refine (p.typeOf_shallow node).bind fun type => ?_
    split
    · exact .ok
    · exact .error rfl
  | _ => exact .ok

theorem declaredDefault_shallow (e : Expr) : Shallow (p.declaredDefault e) := by
  unfold declaredDefault
  split
  · exact p.literal_shallow _ _
  · exact .ok
  · exact .ok
  all_goals exact .error rfl

theorem defaultWithin_shallow (position : Position) (depth : Nat) (type : Ty) :
    Shallow (p.defaultWithin position depth type) := by
  fun_induction defaultWithin p position depth type with
  | case1 | case2 => exact .ok
  | case3 | case4 | case6 => exact .error rfl
  | case5 name s found depth ih =>
    refine (Shallow.mapM fun m _ => ?_).bind fun _ => .ok
    split
    · exact (p.declaredDefault_shallow _).bind fun _ => .ok
    · exact (ih m).bind fun _ => .ok

theorem memberDefault_shallow (position : Position) (m : Member) :
    Shallow (p.memberDefault position m) := by
  unfold memberDefault
  split
  · exact (p.declaredDefault_shallow _).bind fun _ => .ok
  · exact p.defaultWithin_shallow position _ _

theorem withDefaults_shallow (position : Position) (members : List Member)
    (fields : List (String × Value)) : Shallow (p.withDefaults position members fields) := by
  induction members generalizing fields with
  | nil => exact .ok
  | cons m members ih =>
    rw [withDefaults]
    split
    · exact ih fields
    · exact (p.memberDefault_shallow position m).bind fun _ => ih _

theorem integerTypeOf_shallow (node : Node) : Shallow (p.integerTypeOf node) := by
  refine (p.typeOf_shallow node).bind fun type => ?_
  split
  · exact .ok
  · exact .error rfl

theorem integerResult_shallow (type : IntTy) (operation : Operation) (position : Position)
    (result : Option Int) : Shallow (integerResult type operation position result) := by
  unfold integerResult
  split
  · split
    · exact .ok
    · exact .error rfl
  · exact .error rfl

theorem math_shallow (node : Node) (op : MathOp) (a b : Value) : Shallow (p.math node op a b) := by
  unfold math
  split
  · refine (p.integerTypeOf_shallow node).bind fun type => ?_
    split
    · exact .error rfl
    · exact integerResult_shallow _ _ _ _
  · split
    · exact .error rfl
    · exact .ok
  · split
    · exact .ok
    · exact .error rfl
  · exact .error rfl

theorem unary_shallow (node : Node) (op : UnaryOp) (v : Value) : Shallow (p.unary node op v) := by
  unfold unary
  split
  · exact .ok
  · exact .error rfl
  · exact (p.integerTypeOf_shallow node).bind fun type => integerResult_shallow _ _ _ _
  · exact .ok
  · exact .error rfl

end Program

theorem CompareOp.apply_shallow (op : CompareOp) (a b : Value) (position : Position) :
    Shallow (op.apply a b position) := by
  unfold apply
  split
  · exact .ok
  · exact .ok
  · split
    · exact .ok
    · exact .error rfl

theorem onlyArgument_shallow (args : List Value) (position : Position) :
    Shallow (onlyArgument args position) := by
  unfold onlyArgument
  split
  · exact .ok
  · exact .error rfl

theorem Builtin.apply_shallow (b : Builtin) (args : List Value) (position : Position) :
    Shallow (b.apply args position) := by
  refine (onlyArgument_shallow args position).bind fun v => ?_
  split
  · split
    · exact .ok
    · exact .error rfl
    · exact .error rfl
  · exact .ok

namespace Method

theorem count_shallow (n : Nat) (position : Position) : Shallow (count n position) := by
  unfold count
  split
  · exact .ok
  · exact .error rfl

theorem call_shallow (name : String) (args : List Value) (position : Position) (v : Value) :
    Shallow (call name args position v) := by
  unfold call
  split
  · unfold apply
    split
    · refine (onlyArgument_shallow args position).bind fun item => ?_
      split
      · exact .ok
      · exact .error rfl
    · exact (count_shallow _ position).bind fun _ => .ok
    · exact (count_shallow _ position).bind fun _ => .ok
    · exact .ok
    · exact .ok
    · exact .ok
    · exact .error rfl
  · exact .error rfl

end Method

theorem PathStep.notOn_shallow (step : PathStep) (v : Value) : (step.notOn v).isOverflow = false := by
  cases step <;> rfl

namespace Value

variable {α : Type}

theorem itemAt_shallow (items : List α) (i : Int) (position : Position) :
    Shallow (itemAt items i position) := by
  unfold itemAt
  split
  · exact .ok
  · exact .error rfl

theorem read_shallow (v : Value) (path : List PathStep) : Shallow (v.read path) := by
  fun_induction read v path with
  | case1 => exact .ok
  | case2 _ _ _ _ _ _ _ ih => exact ih
  | case3 => exact .error rfl
  | case4 _ _ _ _ _ ih => exact (itemAt_shallow _ _ _).bind ih
  | case5 => exact (itemAt_shallow _ _ _).bind fun _ => .ok
  | case6 => exact .error (PathStep.notOn_shallow _ _)

theorem write_shallow (v new : Value) (path : List PathStep) : Shallow (v.write new path) := by
  fun_induction write v new path with
  | case1 => exact .ok
  | case2 _ _ _ _ _ _ _ _ ih => exact ih.bind fun _ => .ok
  | case3 => exact .error rfl
  | case4 _ _ _ _ _ _ ih =>
    exact (itemAt_shallow _ _ _).bind fun item => (ih item).bind fun _ => .ok
  | case5 => exact .error (PathStep.notOn_shallow _ _)

theorem update_shallow {act : Value → Except Fault (α × Value)} (acts : ∀ v, Shallow (act v))
    (v : Value) (path : List PathStep) : Shallow (v.update act path) := by
  fun_induction update act v path with
  | case1 v => exact acts v
  | case2 _ _ _ _ _ _ _ ih => exact ih.bind fun _ => .ok
  | case3 => exact .error rfl
  | case4 _ _ _ _ _ ih =>
    exact (itemAt_shallow _ _ _).bind fun item => (ih item).bind fun _ => .ok
  | case5 => exact (itemAt_shallow _ _ _).bind fun c => (acts (.char c)).bind fun _ => .ok
  | case6 => exact .error (PathStep.notOn_shallow _ _)

end Value
end LoopLang
