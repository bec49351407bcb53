import LoopLang.Proofs.Layout.Moved

namespace LoopLang

/-- Another place for each place, and another number for each number of a node. -/
structure Relabelling where
  place : Relocation
  number : NodeId → NodeId

namespace Relabelling

def refl : Relabelling := ⟨id, id⟩

def andThen (r r' : Relabelling) : Relabelling := ⟨r'.place ∘ r.place, r'.number ∘ r.number⟩

def ofPlaces (f : Relocation) : Relabelling := ⟨f, id⟩

def ofNumbers (number : NodeId → NodeId) : Relabelling := ⟨id, number⟩

end Relabelling

variable (r : Relabelling)

def Node.relabelled (node : Node) : Node := ⟨r.number node.id, r.place node.position⟩

mutual

def Expr.relabelled : Expr → Expr
  | .literal node value => .literal (node.relabelled r) value
  | .place node root steps => .place (node.relabelled r) root (Step.relabelledAll steps)
  | .method node root steps name nameAt args =>
    .method (node.relabelled r) root (Step.relabelledAll steps) name (r.place nameAt)
      (Expr.relabelledAll args)
  | .call node callee args => .call (node.relabelled r) callee (Expr.relabelledAll args)
  | .math node op left right => .math (node.relabelled r) op left.relabelled right.relabelled
  | .compare node op left right =>
    .compare (node.relabelled r) op left.relabelled right.relabelled
  | .unary node op operand => .unary (node.relabelled r) op operand.relabelled
  | .build node name given => .build (node.relabelled r) name (Field.relabelledAll given)
termination_by structural e => e

def Expr.relabelledAll : List Expr → List Expr
  | [] => []
  | e :: es => e.relabelled :: Expr.relabelledAll es
termination_by structural es => es

def Step.relabelled : Step → Step
  | .index e => .index e.relabelled
  | .member name position => .member name (r.place position)
termination_by structural step => step

def Step.relabelledAll : List Step → List Step
  | [] => []
  | step :: steps => step.relabelled :: Step.relabelledAll steps
termination_by structural steps => steps

def Field.relabelled : Field → Field
  | .mk name position value => .mk name (r.place position) value.relabelled
termination_by structural field => field

def Field.relabelledAll : List Field → List Field
  | [] => []
  | field :: given => field.relabelled :: Field.relabelledAll given
termination_by structural given => given

end

theorem Expr.relabelledAll_eq_map (es : List Expr) :
    relabelledAll r es = es.map (relabelled r) := by
  induction es with
  | nil => rfl
  | cons e es ih => rw [relabelledAll, ih, List.map_cons]

theorem Step.relabelledAll_eq_map (steps : List Step) :
    relabelledAll r steps = steps.map (relabelled r) := by
  induction steps with
  | nil => rfl
  | cons step steps ih => rw [relabelledAll, ih, List.map_cons]

theorem Field.relabelledAll_eq_map (given : List Field) :
    relabelledAll r given = given.map (relabelled r) := by
  induction given with
  | nil => rfl
  | cons field given ih => rw [relabelledAll, ih, List.map_cons]

mutual

def Stmt.relabelled : Stmt → Stmt
  | .declare node name type => .declare (node.relabelled r) name type
  | .define node name type value isConst =>
    .define (node.relabelled r) name type (value.relabelled r) isConst
  | .assign position target root steps value =>
    .assign (r.place position) (target.relabelled r) root (Step.relabelledAll r steps)
      (value.relabelled r)
  | .loop position body => .loop (r.place position) (Stmt.relabelledAll body)
  | .choose position ⟨test, body⟩ elifs otherwise =>
    .choose (r.place position) ⟨test.relabelled r, Stmt.relabelledAll body⟩
      (Stmt.relabelledBranches elifs)
      (match otherwise with
      | some body => some (Stmt.relabelledAll body)
      | none => none)
  | .return position value => .return (r.place position) (value.map (Expr.relabelled r))
  | .break position => .break (r.place position)
  | .continue position => .continue (r.place position)
  | .call position node callee args =>
    .call (r.place position) (node.relabelled r) callee (Expr.relabelledAll r args)
  | .place position node root steps =>
    .place (r.place position) (node.relabelled r) root (Step.relabelledAll r steps)
  | .method position node root steps name nameAt args =>
    .method (r.place position) (node.relabelled r) root (Step.relabelledAll r steps) name
      (r.place nameAt) (Expr.relabelledAll r args)
termination_by structural s => s

def Stmt.relabelledAll : List Stmt → List Stmt
  | [] => []
  | s :: rest => s.relabelled :: Stmt.relabelledAll rest
termination_by structural body => body

def Stmt.relabelledBranches : List (Branch Stmt) → List (Branch Stmt)
  | [] => []
  | ⟨test, body⟩ :: rest =>
    ⟨test.relabelled r, Stmt.relabelledAll body⟩ :: Stmt.relabelledBranches rest
termination_by structural branches => branches

end

namespace Function

def relabelled (f : Function) : Function :=
  { f with
    params := f.params.map (Param.moved r.place)
    body := Stmt.relabelledAll r f.body
    position := r.place f.position }

end Function

namespace Member

def relabelled (m : Member) : Member :=
  { m with default := m.default.map (Expr.relabelled r), position := r.place m.position }

end Member

namespace Struct

def relabelled (s : Struct) : Struct :=
  { s with members := s.members.map (Member.relabelled r), position := r.place s.position }

end Struct

namespace Definition

def relabelled : Definition → Definition
  | function f => .function (f.relabelled r)
  | struct s => .struct (s.relabelled r)
  | enum e => .enum (e.moved r.place)

end Definition

namespace Fault

def relabelled : Fault → Fault
  | internal (.untyped id) position => .internal (.untyped (r.number id)) (r.place position)
  | other => other.moved r.place

end Fault

namespace Stop

def relabelled : Stop → Stop
  | fault cause => .fault (cause.relabelled r)
  | outOfFuel => .outOfFuel

end Stop

namespace Outcome

def relabelled : Outcome → Outcome
  | done => .done
  | failed fault => .failed (fault.relabelled r)
  | unfinished => .unfinished

end Outcome

namespace Expr

@[simp] theorem relabelled_node (e : Expr) : (e.relabelled r).node = e.node.relabelled r := by
  cases e <;> rfl

@[simp] theorem relabelled_position (e : Expr) :
    (e.relabelled r).position = r.place e.position := by
  rw [position, relabelled_node]
  rfl

@[simp] theorem relabelled_constant? (e : Expr) : (e.relabelled r).constant? = e.constant? := by
  cases e <;> try rfl
  rename_i value
  cases value <;> rfl

@[simp] theorem relabelled_bareName? (e : Expr) : (e.relabelled r).bareName? = e.bareName? := by
  cases e <;> try rfl
  rename_i steps
  cases steps <;> rfl

end Expr

namespace Field

theorem relabelledAll_names (given : List Field) :
    (relabelledAll r given).map (·.name) = given.map (·.name) := by
  rw [relabelledAll_eq_map, List.map_map]
  congr 1
  funext field
  cases field
  rfl

end Field

namespace Struct

@[simp] theorem relabelled_member? (s : Struct) (name : String) :
    (s.relabelled r).member? name = (s.member? name).map (Member.relabelled r) :=
  List.find?_map

end Struct

end LoopLang
