import LoopLang.Execution
import LoopLang.Typing

namespace LoopLang

abbrev Relocation := Position → Position

variable (f : Relocation)

namespace Lexeme

def moved (x : Lexeme) : Lexeme := { x with position := f x.position }

end Lexeme

namespace Lexemes

def moved (l : Lexemes) : Lexemes := ⟨l.list.map (Lexeme.moved f), f l.finish⟩

end Lexemes

def Node.moved (node : Node) : Node := { node with position := f node.position }

mutual

def Expr.moved : Expr → Expr
  | .literal node value => .literal (node.moved f) value
  | .place node root steps => .place (node.moved f) root (Step.movedAll steps)
  | .method node root steps name nameAt args =>
    .method (node.moved f) root (Step.movedAll steps) name (f nameAt) (Expr.movedAll args)
  | .call node callee args => .call (node.moved f) callee (Expr.movedAll args)
  | .math node op left right => .math (node.moved f) op left.moved right.moved
  | .compare node op left right => .compare (node.moved f) op left.moved right.moved
  | .unary node op operand => .unary (node.moved f) op operand.moved
  | .build node name given => .build (node.moved f) name (Field.movedAll given)
termination_by structural e => e

def Expr.movedAll : List Expr → List Expr
  | [] => []
  | e :: es => e.moved :: Expr.movedAll es
termination_by structural es => es

def Step.moved : Step → Step
  | .index e => .index e.moved
  | .member name position => .member name (f position)
termination_by structural step => step

def Step.movedAll : List Step → List Step
  | [] => []
  | step :: steps => step.moved :: Step.movedAll steps
termination_by structural steps => steps

def Field.moved : Field → Field
  | .mk name position value => .mk name (f position) value.moved
termination_by structural field => field

def Field.movedAll : List Field → List Field
  | [] => []
  | field :: given => field.moved :: Field.movedAll given
termination_by structural given => given

end

mutual

def Stmt.moved : Stmt → Stmt
  | .declare node name type => .declare (node.moved f) name type
  | .define node name type value isConst =>
    .define (node.moved f) name type (value.moved f) isConst
  | .assign position target root steps value =>
    .assign (f position) (target.moved f) root (Step.movedAll f steps) (value.moved f)
  | .loop position body => .loop (f position) (Stmt.movedAll body)
  | .choose position ⟨test, body⟩ elifs otherwise =>
    .choose (f position) ⟨test.moved f, Stmt.movedAll body⟩ (Stmt.movedBranches elifs)
      (match otherwise with
      | some body => some (Stmt.movedAll body)
      | none => none)
  | .return position value => .return (f position) (value.map (Expr.moved f))
  | .break position => .break (f position)
  | .continue position => .continue (f position)
  | .call position node callee args =>
    .call (f position) (node.moved f) callee (Expr.movedAll f args)
  | .place position node root steps =>
    .place (f position) (node.moved f) root (Step.movedAll f steps)
  | .method position node root steps name nameAt args =>
    .method (f position) (node.moved f) root (Step.movedAll f steps) name (f nameAt)
      (Expr.movedAll f args)
termination_by structural s => s

def Stmt.movedAll : List Stmt → List Stmt
  | [] => []
  | s :: rest => s.moved :: Stmt.movedAll rest
termination_by structural body => body

def Stmt.movedBranches : List (Branch Stmt) → List (Branch Stmt)
  | [] => []
  | ⟨test, body⟩ :: rest => ⟨test.moved f, Stmt.movedAll body⟩ :: Stmt.movedBranches rest
termination_by structural branches => branches

end

namespace Param

def moved (p : Param) : Param := { p with position := f p.position }

end Param

namespace Function

def moved (g : Function) : Function :=
  { g with
    params := g.params.map (Param.moved f)
    body := Stmt.movedAll f g.body
    position := f g.position }

end Function

namespace Member

def moved (m : Member) : Member :=
  { m with default := m.default.map (Expr.moved f), position := f m.position }

end Member

namespace Struct

def moved (s : Struct) : Struct :=
  { s with members := s.members.map (Member.moved f), position := f s.position }

end Struct

namespace Enum

def moved (e : Enum) : Enum := { e with position := f e.position }

end Enum

namespace Definition

def moved : Definition → Definition
  | function g => .function (g.moved f)
  | struct s => .struct (s.moved f)
  | enum e => .enum (e.moved f)

end Definition

namespace Globals

def moved (g : Globals) : Globals where
  functions := g.functions.map (Function.moved f)
  structs := g.structs.map (Struct.moved f)
  enums := g.enums.map (Enum.moved f)

end Globals

namespace Program

def moved (p : Program) : Program := { p with globals := p.globals.moved f }

end Program

namespace ParseError

def moved (e : ParseError) : ParseError := { e with position := f e.position }

end ParseError

namespace Enclosing

def moved (e : Enclosing) : Enclosing := { e with position := f e.position }

end Enclosing

namespace CompileError

def moved (e : CompileError) : CompileError :=
  ⟨e.cause, f e.position, e.function.map (Enclosing.moved f)⟩

end CompileError

namespace RuntimeError

def moved : RuntimeError → RuntimeError
  | indexOutOfBounds index length position => .indexOutOfBounds index length (f position)
  | divisionByZero operation position => .divisionByZero operation (f position)
  | integerOverflow operation type position => .integerOverflow operation type (f position)
  | stackOverflow function limit position => .stackOverflow function limit (f position)
  | missingReturnValue function position => .missingReturnValue function (f position)
  | noMain => .noMain
  | mainWithParams position => .mainWithParams (f position)

end RuntimeError

namespace Fault

def moved : Fault → Fault
  | runtime error => .runtime (error.moved f)
  | assertion position => .assertion (f position)
  | internal defect position => .internal defect (f position)

end Fault

namespace Error

def moved : Error → Error
  | parse error => .parse (error.moved f)
  | compile error => .compile (error.moved f)
  | runtime error => .runtime (error.moved f)
  | assertion position => .assertion (f position)
  | internal defect position => .internal defect (f position)

end Error

namespace Line

def moved (line : Line) : Line := { line with position := f line.position }

end Line

namespace Machine

def moved (m : Machine) : Machine := { m with lines := m.lines.map (Line.moved f) }

end Machine

namespace Stop

def moved : Stop → Stop
  | fault cause => .fault (cause.moved f)
  | outOfFuel => .outOfFuel

end Stop

namespace Outcome

def moved : Outcome → Outcome
  | done => .done
  | failed fault => .failed (fault.moved f)
  | unfinished => .unfinished

end Outcome

namespace PathStep

def moved : PathStep → PathStep
  | field name position => .field name (f position)
  | index i position => .index i (f position)

end PathStep

namespace Globals

@[simp] theorem moved_function? (g : Globals) (name : String) :
    (g.moved f).function? name = (g.function? name).map (Function.moved f) :=
  List.find?_map

@[simp] theorem moved_struct? (g : Globals) (name : String) :
    (g.moved f).struct? name = (g.struct? name).map (Struct.moved f) :=
  List.find?_map

@[simp] theorem moved_enum? (g : Globals) (name : String) :
    (g.moved f).enum? name = (g.enum? name).map (Enum.moved f) :=
  List.find?_map

end Globals
end LoopLang
