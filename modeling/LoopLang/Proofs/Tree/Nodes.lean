import LoopLang.Tree

namespace LoopLang

mutual

def Expr.ids : Expr → List NodeId
  | .literal node _ => [node.id]
  | .place node _ steps => Step.idsOf steps ++ [node.id]
  | .method node _ steps _ _ args => Step.idsOf steps ++ Expr.idsOf args ++ [node.id]
  | .call node _ args => Expr.idsOf args ++ [node.id]
  | .math node _ left right => left.ids ++ right.ids ++ [node.id]
  | .compare node _ left right => left.ids ++ right.ids ++ [node.id]
  | .unary node _ operand => operand.ids ++ [node.id]
  | .build node _ given => Field.idsOf given ++ [node.id]
termination_by structural e => e

def Expr.idsOf : List Expr → List NodeId
  | [] => []
  | e :: es => e.ids ++ Expr.idsOf es
termination_by structural es => es

def Step.idsOf : List Step → List NodeId
  | [] => []
  | .index e :: steps => e.ids ++ Step.idsOf steps
  | .member _ _ :: steps => Step.idsOf steps
termination_by structural steps => steps

def Field.idsOf : List Field → List NodeId
  | [] => []
  | .mk _ _ value :: given => value.ids ++ Field.idsOf given
termination_by structural given => given

end

theorem Step.idsOf_append (front back : List Step) :
    Step.idsOf (front ++ back) = Step.idsOf front ++ Step.idsOf back := by
  induction front with
  | nil => rfl
  | cons step front ih =>
    cases step with
    | index e => simp only [List.cons_append, Step.idsOf, ih, List.append_assoc]
    | member name position => simpa only [List.cons_append, Step.idsOf] using ih

mutual

def Stmt.ids : Stmt → List NodeId
  | .declare node _ _ => [node.id]
  | .define node _ _ value _ => node.id :: value.ids
  | .assign _ target _ steps value => Step.idsOf steps ++ [target.id] ++ value.ids
  | .loop _ body => Stmt.idsOf body
  | .choose _ ⟨test, body⟩ elifs otherwise =>
    test.ids ++ Stmt.idsOf body ++ Stmt.idsOfBranches elifs ++
      match otherwise with
      | some body => Stmt.idsOf body
      | none => []
  | .return _ (some value) => value.ids
  | .return _ none | .break _ | .continue _ => []
  | .call _ node _ args => Expr.idsOf args ++ [node.id]
  | .place _ node _ steps => Step.idsOf steps ++ [node.id]
  | .method _ node _ steps _ _ args => Step.idsOf steps ++ Expr.idsOf args ++ [node.id]
termination_by structural s => s

def Stmt.idsOf : List Stmt → List NodeId
  | [] => []
  | s :: rest => s.ids ++ Stmt.idsOf rest
termination_by structural body => body

def Stmt.idsOfBranches : List (Branch Stmt) → List NodeId
  | [] => []
  | ⟨test, body⟩ :: rest => test.ids ++ Stmt.idsOf body ++ Stmt.idsOfBranches rest
termination_by structural branches => branches

end

mutual

def Stmt.types : Stmt → List Ty
  | .declare _ _ type | .define _ _ type _ _ => [type]
  | .loop _ body => Stmt.typesOf body
  | .choose _ ⟨_, body⟩ elifs otherwise =>
    Stmt.typesOf body ++ Stmt.typesOfBranches elifs ++
      match otherwise with
      | some body => Stmt.typesOf body
      | none => []
  | _ => []
termination_by structural s => s

def Stmt.typesOf : List Stmt → List Ty
  | [] => []
  | s :: rest => s.types ++ Stmt.typesOf rest
termination_by structural body => body

def Stmt.typesOfBranches : List (Branch Stmt) → List Ty
  | [] => []
  | ⟨_, body⟩ :: rest => Stmt.typesOf body ++ Stmt.typesOfBranches rest
termination_by structural branches => branches

end

namespace Ty

/-- A type as a source text writes it: a name, or an array of a named type. -/
def Written : Ty → Prop
  | named _ | array (named _) => True
  | _ => False

end Ty

namespace Member

def ids (m : Member) : List NodeId := (m.default.map Expr.ids).getD []

end Member

namespace Struct

def ids (s : Struct) : List NodeId := s.members.flatMap Member.ids

structure Written (s : Struct) : Prop where
  distinct : (s.members.map Member.name).Nodup
  types : ∀ m ∈ s.members, m.type.Written

end Struct

namespace Function

structure Written (f : Function) : Prop where
  params : ∀ param ∈ f.params, param.type.Written
  returns : ∀ type ∈ f.returns, type.Written
  body : ∀ type ∈ Stmt.typesOf f.body, type.Written

end Function

namespace Globals

def ids (g : Globals) : List NodeId :=
  g.structs.flatMap Struct.ids ++ g.functions.flatMap fun f => Stmt.idsOf f.body

/-- A program as texts spell it: its nodes are numbered without gaps and without repetition. -/
structure Written (g : Globals) (count : Nat) : Prop where
  ids : g.ids.Perm (List.range count)
  structs : ∀ s ∈ g.structs, s.Written
  functions : ∀ f ∈ g.functions, f.Written

theorem Written.nodup {g : Globals} {count : Nat} (written : g.Written count) : g.ids.Nodup :=
  written.ids.nodup_iff.mpr List.nodup_range

end Globals
end LoopLang
