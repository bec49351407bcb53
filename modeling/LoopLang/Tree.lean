import LoopLang.Arithmetic
import LoopLang.Position
import LoopLang.Ty

namespace LoopLang

/-- The number of a node: nodes are counted in the order in which their reading ends. -/
abbrev NodeId := Nat

structure Node where
  id : NodeId
  position : Position
  deriving DecidableEq, Repr, Inhabited

inductive Literal where
  | integer (value : Int)
  | float (value : Float)
  | string (value : String)
  | char (value : Char)
  | bool (value : Bool)
  deriving DecidableEq

inductive CompareOp where
  | equal | notEqual | less | lessEqual | greater | greaterEqual
  deriving DecidableEq, Repr

namespace CompareOp

def symbol : CompareOp → String
  | equal => "=="
  | notEqual => "!="
  | less => "<"
  | lessEqual => "<="
  | greater => ">"
  | greaterEqual => ">="

def isOrdering : CompareOp → Bool
  | equal | notEqual => false
  | _ => true

end CompareOp

inductive UnaryOp where
  | not | negate
  deriving DecidableEq, Repr

mutual

inductive Expr where
  | literal (node : Node) (value : Literal)
  /-- The place that `steps` lead to from the variable `root`, or a member of the enum `root`. -/
  | place (node : Node) (root : String) (steps : List Step)
  | method (node : Node) (root : String) (steps : List Step) (name : String) (nameAt : Position)
      (args : List Expr)
  | call (node : Node) (callee : String) (args : List Expr)
  | math (node : Node) (op : MathOp) (left right : Expr)
  | compare (node : Node) (op : CompareOp) (left right : Expr)
  | unary (node : Node) (op : UnaryOp) (operand : Expr)
  | build (node : Node) (struct : String) (fields : List Field)

inductive Step where
  | index (index : Expr)
  | member (name : String) (position : Position)

inductive Field where
  | mk (name : String) (position : Position) (value : Expr)

end

namespace Expr

def node : Expr → Node
  | literal node .. | place node .. | method node .. | call node .. | math node ..
  | compare node .. | unary node .. | build node .. => node

def id (e : Expr) : NodeId := e.node.id

def position (e : Expr) : Position := e.node.position

def constant? : Expr → Option Constant
  | literal _ (.integer value) => some (.int value)
  | literal _ (.float value) => some (.float value.toFloat32)
  | _ => none

def bareName? : Expr → Option String
  | place _ root [] => some root
  | _ => none

instance : Inhabited Expr := ⟨literal default (.bool false)⟩

end Expr

namespace Field

def name : Field → String
  | mk name _ _ => name

def position : Field → Position
  | mk _ position _ => position

def value : Field → Expr
  | mk _ _ value => value

end Field

structure Branch (σ : Type) where
  condition : Expr
  body : List σ

/-- A statement. One that begins with an expression is an assignment to a place, a call, or a place
    alone; `Parse.expressionStatement` refuses every other expression, so that neither the checker
    nor the interpreter can meet one there. -/
inductive Stmt where
  /-- The position of the node is that of the name. -/
  | declare (node : Node) (name : String) (type : Ty)
  | define (node : Node) (name : String) (type : Ty) (value : Expr) (isConst : Bool)
  | assign (position : Position) (target : Node) (root : String) (steps : List Step)
      (value : Expr)
  | loop (position : Position) (body : List Stmt)
  | choose (position : Position) (first : Branch Stmt) (elifs : List (Branch Stmt))
      (otherwise : Option (List Stmt))
  | return (position : Position) (value : Option Expr)
  | break (position : Position)
  | continue (position : Position)
  | call (position : Position) (node : Node) (callee : String) (args : List Expr)
  /-- A place that stands alone: it can be read, but no program means it. -/
  | place (position : Position) (node : Node) (root : String) (steps : List Step)
  | method (position : Position) (node : Node) (root : String) (steps : List Step)
      (name : String) (nameAt : Position) (args : List Expr)

namespace Stmt

def position : Stmt → Position
  | declare node .. | define node .. => node.position
  | assign position .. | loop position .. | choose position .. | .return position ..
  | .break position | .continue position | call position .. | place position ..
  | method position .. => position

end Stmt

/-- A parameter. One by reference is another name of the caller's variable. -/
structure Param where
  name : String
  type : Ty
  byReference : Bool
  position : Position
  deriving DecidableEq, Repr

structure Function where
  name : String
  params : List Param
  returns : Option Ty
  body : List Stmt
  position : Position

structure Member where
  name : String
  type : Ty
  default : Option Expr
  position : Position

structure Struct where
  name : String
  members : List Member
  position : Position

namespace Struct

def member? (s : Struct) (name : String) : Option Member := s.members.find? (·.name == name)

end Struct

structure Enum where
  name : String
  entries : List String
  position : Position
  deriving DecidableEq, Repr

/-- The definitions of a program, each kind in the order of the text. -/
structure Globals where
  functions : List Function
  structs : List Struct
  enums : List Enum

namespace Globals

def empty : Globals := ⟨[], [], []⟩

def function? (g : Globals) (name : String) : Option Function :=
  g.functions.find? (·.name == name)

def struct? (g : Globals) (name : String) : Option Struct := g.structs.find? (·.name == name)

def enum? (g : Globals) (name : String) : Option Enum := g.enums.find? (·.name == name)

def isEnum (g : Globals) (name : String) : Bool := (g.enum? name).isSome

end Globals
end LoopLang
