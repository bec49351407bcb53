import LoopLang.Tree.Parser

namespace LoopLang

def Node.unplaced (node : Node) : Node := { node with position := .none }

mutual

def Expr.unplaced : Expr → Expr
  | .literal node value => .literal node.unplaced value
  | .place node root steps => .place node.unplaced root (Step.unplacedAll steps)
  | .method node root steps name _ args =>
    .method node.unplaced root (Step.unplacedAll steps) name .none (Expr.unplacedAll args)
  | .call node callee args => .call node.unplaced callee (Expr.unplacedAll args)
  | .math node op left right => .math node.unplaced op left.unplaced right.unplaced
  | .compare node op left right => .compare node.unplaced op left.unplaced right.unplaced
  | .unary node op operand => .unary node.unplaced op operand.unplaced
  | .build node name given => .build node.unplaced name (Field.unplacedAll given)
termination_by structural e => e

def Expr.unplacedAll : List Expr → List Expr
  | [] => []
  | e :: es => e.unplaced :: Expr.unplacedAll es
termination_by structural es => es

def Step.unplaced : Step → Step
  | .index e => .index e.unplaced
  | .member name _ => .member name .none
termination_by structural step => step

def Step.unplacedAll : List Step → List Step
  | [] => []
  | step :: steps => step.unplaced :: Step.unplacedAll steps
termination_by structural steps => steps

def Field.unplaced : Field → Field
  | .mk name _ value => .mk name .none value.unplaced
termination_by structural field => field

def Field.unplacedAll : List Field → List Field
  | [] => []
  | field :: given => field.unplaced :: Field.unplacedAll given
termination_by structural given => given

end

theorem Step.unplacedAll_eq_map (steps : List Step) :
    Step.unplacedAll steps = steps.map Step.unplaced := by
  induction steps with
  | nil => rfl
  | cons step steps ih => rw [Step.unplacedAll, ih, List.map_cons]

mutual

def Stmt.unplaced : Stmt → Stmt
  | .declare node name type => .declare node.unplaced name type
  | .define node name type value isConst =>
    .define node.unplaced name type value.unplaced isConst
  | .assign _ target root steps value =>
    .assign .none target.unplaced root (Step.unplacedAll steps) value.unplaced
  | .loop _ body => .loop .none (Stmt.unplacedAll body)
  | .choose _ ⟨test, body⟩ elifs otherwise =>
    .choose .none ⟨test.unplaced, Stmt.unplacedAll body⟩ (Stmt.unplacedBranches elifs)
      (match otherwise with
      | some body => some (Stmt.unplacedAll body)
      | none => none)
  | .return _ value => .return .none (value.map Expr.unplaced)
  | .break _ => .break .none
  | .continue _ => .continue .none
  | .call _ node callee args => .call .none node.unplaced callee (Expr.unplacedAll args)
  | .place _ node root steps => .place .none node.unplaced root (Step.unplacedAll steps)
  | .method _ node root steps name _ args =>
    .method .none node.unplaced root (Step.unplacedAll steps) name .none
      (Expr.unplacedAll args)
termination_by structural s => s

def Stmt.unplacedAll : List Stmt → List Stmt
  | [] => []
  | s :: rest => s.unplaced :: Stmt.unplacedAll rest
termination_by structural body => body

def Stmt.unplacedBranches : List (Branch Stmt) → List (Branch Stmt)
  | [] => []
  | ⟨test, body⟩ :: rest =>
    ⟨test.unplaced, Stmt.unplacedAll body⟩ :: Stmt.unplacedBranches rest
termination_by structural branches => branches

end

namespace Param

def unplaced (param : Param) : Param := { param with position := .none }

end Param

namespace Function

def unplaced (f : Function) : Function :=
  { f with
    params := f.params.map Param.unplaced
    body := Stmt.unplacedAll f.body
    position := .none }

@[simp] theorem unplaced_name (f : Function) : f.unplaced.name = f.name := rfl

end Function

namespace Member

def unplaced (m : Member) : Member :=
  { m with default := m.default.map Expr.unplaced, position := .none }

end Member

namespace Struct

def unplaced (s : Struct) : Struct :=
  { s with members := s.members.map Member.unplaced, position := .none }

@[simp] theorem unplaced_name (s : Struct) : s.unplaced.name = s.name := rfl

@[simp] theorem unplaced_members (s : Struct) :
    s.unplaced.members = s.members.map Member.unplaced := rfl

end Struct

namespace Enum

def unplaced (e : Enum) : Enum := { e with position := .none }

@[simp] theorem unplaced_name (e : Enum) : e.unplaced.name = e.name := rfl

@[simp] theorem unplaced_entries (e : Enum) : e.unplaced.entries = e.entries := rfl

end Enum

namespace Definition

def unplaced : Definition → Definition
  | function f => .function f.unplaced
  | struct s => .struct s.unplaced
  | enum e => .enum e.unplaced

end Definition

namespace Globals

def unplaced (g : Globals) : Globals where
  functions := g.functions.map Function.unplaced
  structs := g.structs.map Struct.unplaced
  enums := g.enums.map Enum.unplaced

end Globals
end LoopLang
