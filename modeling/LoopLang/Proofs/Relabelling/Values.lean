import LoopLang.Execution
import LoopLang.Proofs.Relabelling.Carry
import LoopLang.Proofs.Relabelling.Matching

namespace LoopLang

variable {r : Relabelling}

namespace Value

theorem itemAt_relabelled {α : Type} (items : List α) (i : Int) (position : Position) :
    itemAt items i (r.place position) =
      carry (Fault.relabelled r) id (itemAt items i position) := by
  unfold itemAt
  split <;> rfl

theorem read_relabelled (v : Value) (path : List PathStep) :
    v.read (path.map (PathStep.moved r.place)) = carry (Fault.relabelled r) id (v.read path) := by
  induction path generalizing v with
  | nil => cases v <;> rfl
  | cons step path ih =>
    cases v with
    | struct name fields =>
      cases step with
      | field member position =>
        simp only [List.map_cons, PathStep.moved, read]
        cases fields.lookup member with
        | some v => exact ih v
        | none => rfl
      | index i position => rfl
    | array element items =>
      cases step with
      | field member position => rfl
      | index i position =>
        simp only [List.map_cons, PathStep.moved, read]
        exact carry_bind (itemAt_relabelled items i position) ih
    | string s =>
      cases step with
      | field member position => cases path <;> rfl
      | index i position =>
        cases path with
        | nil => exact carry_bind (itemAt_relabelled s.toList i position) fun c => rfl
        | cons _ _ => rfl
    | _ => cases step <;> rfl

theorem write_relabelled (v new : Value) (path : List PathStep) :
    v.write new (path.map (PathStep.moved r.place)) =
      carry (Fault.relabelled r) id (v.write new path) := by
  induction path generalizing v with
  | nil => cases v <;> rfl
  | cons step path ih =>
    cases v with
    | struct name fields =>
      cases step with
      | field member position =>
        simp only [List.map_cons, PathStep.moved, write]
        cases fields.lookup member with
        | some v => exact carry_bind (ih v) fun v => rfl
        | none => rfl
      | index i position => rfl
    | array element items =>
      cases step with
      | field member position => rfl
      | index i position =>
        simp only [List.map_cons, PathStep.moved, write]
        refine carry_bind (itemAt_relabelled items i position) fun item => ?_
        exact carry_bind (ih item) fun item => rfl
    | _ => cases step <;> rfl

theorem update_relabelled {α : Type} {act act' : Value → Except Fault (α × Value)}
    (same : ∀ v, act' v = carry (Fault.relabelled r) id (act v)) (v : Value)
    (path : List PathStep) :
    v.update act' (path.map (PathStep.moved r.place)) =
      carry (Fault.relabelled r) id (v.update act path) := by
  induction path generalizing v with
  | nil =>
    have here (act : Value → Except Fault (α × Value)) : v.update act [] = act v := by
      cases v <;> rfl
    rw [List.map_nil, here, here, same]
  | cons step path ih =>
    cases v with
    | struct name fields =>
      cases step with
      | field member position =>
        simp only [List.map_cons, PathStep.moved, update]
        cases fields.lookup member with
        | some v => exact carry_bind (ih v) fun found => rfl
        | none => rfl
      | index i position => rfl
    | array element items =>
      cases step with
      | field member position => rfl
      | index i position =>
        simp only [List.map_cons, PathStep.moved, update]
        refine carry_bind (itemAt_relabelled items i position) fun item => ?_
        exact carry_bind (ih item) fun found => rfl
    | string s =>
      cases step with
      | field member position => cases path <;> rfl
      | index i position =>
        cases path with
        | nil =>
          refine carry_bind (itemAt_relabelled s.toList i position) fun c => ?_
          exact carry_bind (same (.char c)) fun found => rfl
        | cons _ _ => rfl
    | _ => cases step <;> rfl

end Value

theorem onlyArgument_relabelled (args : List Value) (position : Position) :
    onlyArgument args (r.place position) =
      carry (Fault.relabelled r) id (onlyArgument args position) := by
  unfold onlyArgument
  split <;> rfl

namespace Builtin

theorem apply_relabelled (b : Builtin) (args : List Value) (position : Position) :
    b.apply args (r.place position) =
      carry (Fault.relabelled r) (Option.map (Line.moved r.place)) (b.apply args position) := by
  refine carry_bind (onlyArgument_relabelled args position) fun v => ?_
  cases b with
  | assert =>
    cases v with
    | bool value => cases value <;> rfl
    | _ => rfl
  | _ => rfl

end Builtin

namespace Method

theorem count_relabelled (n : Nat) (position : Position) :
    count n (r.place position) = carry (Fault.relabelled r) id (count n position) := by
  unfold count
  split <;> rfl

theorem apply_relabelled (m : Method) (receiver : Value) (args : List Value) (position : Position) :
    m.apply receiver args (r.place position) =
      carry (Fault.relabelled r) id (m.apply receiver args position) := by
  cases m with
  | append =>
    refine carry_bind (onlyArgument_relabelled args position) fun v => ?_
    cases receiver <;> rfl
  | arrayLength =>
    cases receiver with
    | array element items => exact carry_bind (count_relabelled _ position) fun n => rfl
    | _ => rfl
  | stringLength =>
    cases receiver with
    | string s => exact carry_bind (count_relabelled _ position) fun n => rfl
    | _ => rfl
  | _ => cases receiver <;> rfl

theorem call_relabelled (name : String) (args : List Value) (position : Position)
    (receiver : Value) :
    call name args (r.place position) receiver =
      carry (Fault.relabelled r) id (call name args position receiver) := by
  unfold call
  split
  · exact apply_relabelled _ receiver args position
  · rfl

end Method

namespace CompareOp

theorem apply_relabelled (op : CompareOp) (a b : Value) (position : Position) :
    op.apply a b (r.place position) = carry (Fault.relabelled r) id (op.apply a b position) := by
  unfold apply
  split
  · rfl
  · rfl
  · split <;> rfl

end CompareOp

namespace Program

theorem integerResult_relabelled (type : IntTy) (operation : Operation) (position : Position)
    (v : Option Int) :
    integerResult type operation (r.place position) v =
      carry (Fault.relabelled r) id (integerResult type operation position v) := by
  cases v with
  | none => rfl
  | some v =>
    simp only [integerResult]
    split <;> rfl

variable {p p' : Program} (same : p.Matches r p')
include same

theorem typeOf_relabelled (node : Node) :
    p'.typeOf (node.relabelled r) = carry (Fault.relabelled r) id (p.typeOf node) := by
  have noted : p'.types[(node.relabelled r).id]? = p.types[node.id]? := same.types node.id
  rw [typeOf, typeOf, noted]
  cases p.types[node.id]? <;> rfl

theorem literal_relabelled (node : Node) (value : Literal) :
    p'.literal (node.relabelled r) value =
      carry (Fault.relabelled r) id (p.literal node value) := by
  cases value with
  | integer value =>
    refine carry_bind (typeOf_relabelled same node) fun type => ?_
    dsimp only [id]
    cases type.int? <;> rfl
  | _ => rfl

theorem declaredDefault_relabelled (e : Expr) :
    p'.declaredDefault (e.relabelled r) = carry (Fault.relabelled r) id (p.declaredDefault e) := by
  cases e with
  | literal node value => exact literal_relabelled same node value
  | place node root steps => rcases steps with _ | ⟨_ | _, _ | ⟨_, _⟩⟩ <;> rfl
  | method node root steps name nameAt args =>
    rcases steps with _ | ⟨_ | _, _ | ⟨_, _⟩⟩ <;> rfl
  | _ => rfl

theorem defaultWithin_relabelled (position : Position) (depth : Nat) (type : Ty) :
    p'.defaultWithin (r.place position) depth type =
      carry (Fault.relabelled r) id (p.defaultWithin position depth type) := by
  induction depth generalizing type with
  | zero =>
    cases type with
    | struct name =>
      rw [defaultWithin.eq_def, defaultWithin.eq_def p]
      simp only [same.globals.struct?]
      cases p.globals.struct? name <;> rfl
    | _ => rfl
  | succ depth ih =>
    cases type with
    | struct name =>
      rw [defaultWithin.eq_def, defaultWithin.eq_def p]
      simp only [same.globals.struct?]
      cases p.globals.struct? name with
      | none => rfl
      | some s =>
        refine carry_bind (carry_mapM_id (fun m => ?_) s.members) fun fields => rfl
        obtain ⟨name, type, default, place⟩ := m
        cases default with
        | some e => exact carry_bind (declaredDefault_relabelled same e) fun v => rfl
        | none => exact carry_bind (ih type) fun v => rfl
    | _ => rfl

theorem defaultValue_relabelled (position : Position) (type : Ty) :
    p'.defaultValue (r.place position) type =
      carry (Fault.relabelled r) id (p.defaultValue position type) := by
  rw [defaultValue, same.globals.count]
  exact defaultWithin_relabelled same position _ type

theorem memberDefault_relabelled (position : Position) (m : Member) :
    p'.memberDefault (r.place position) (m.relabelled r) =
      carry (Fault.relabelled r) id (p.memberDefault position m) := by
  obtain ⟨name, type, default, place⟩ := m
  cases default with
  | none => exact defaultValue_relabelled same position type
  | some e => exact carry_bind (declaredDefault_relabelled same e) fun v => rfl

theorem withDefaults_relabelled (position : Position) (members : List Member)
    (fields : List (String × Value)) :
    p'.withDefaults (r.place position) (members.map (Member.relabelled r)) fields =
      carry (Fault.relabelled r) id (p.withDefaults position members fields) := by
  induction members generalizing fields with
  | nil => rfl
  | cons m members ih =>
    rw [List.map_cons, withDefaults, withDefaults]
    have name : (m.relabelled r).name = m.name := rfl
    rw [name]
    split
    · exact ih fields
    · exact carry_bind (memberDefault_relabelled same position m) fun v => ih _

theorem integerTypeOf_relabelled (node : Node) :
    p'.integerTypeOf (node.relabelled r) =
      carry (Fault.relabelled r) id (p.integerTypeOf node) := by
  refine carry_bind (typeOf_relabelled same node) fun type => ?_
  dsimp only [id]
  cases type.int? <;> rfl

theorem math_relabelled (node : Node) (op : MathOp) (a b : Value) :
    p'.math (node.relabelled r) op a b = carry (Fault.relabelled r) id (p.math node op a b) := by
  unfold math
  split
  · refine carry_bind (integerTypeOf_relabelled same node) fun type => ?_
    split
    · rfl
    · exact integerResult_relabelled _ _ node.position _
  · split <;> rfl
  · split <;> rfl
  · rfl

theorem unary_relabelled (node : Node) (op : UnaryOp) (v : Value) :
    p'.unary (node.relabelled r) op v = carry (Fault.relabelled r) id (p.unary node op v) := by
  unfold unary
  split
  · rfl
  · rfl
  · exact carry_bind (integerTypeOf_relabelled same node) fun type =>
      integerResult_relabelled type _ node.position _
  · rfl
  · rfl

end Program
end LoopLang
