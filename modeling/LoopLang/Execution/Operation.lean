import LoopLang.Builtin
import LoopLang.Program

namespace LoopLang

namespace Program

def integerTypeOf (p : Program) (node : Node) : Except Fault IntTy := do
  let type ← p.typeOf node
  match type.int? with
  | some t => return t
  | none => throw (.internal (.arithmeticType type) node.position)

def integerResult (type : IntTy) (operation : Operation) (position : Position) :
    Option Int → Except Fault Value
  | some v =>
    if type.fits v then .ok (.int v type)
    else .error (.runtime (.integerOverflow operation type position))
  | none => .error (.runtime (.integerOverflow operation type position))

def math (p : Program) (node : Node) (op : MathOp) : Value → Value → Except Fault Value
  | .int a _, .int b _ => do
    let type ← p.integerTypeOf node
    if op.isDivision && b == 0 then
      throw (.runtime (.divisionByZero (.ints op a b) node.position))
    else integerResult type (.ints op a b) node.position (Arithmetic.onInts op a b)
  | .float a, .float b =>
    if op.isDivision && b == 0 then
      .error (.runtime (.divisionByZero (.floats op a b) node.position))
    else .ok (.float (Arithmetic.onFloats op a b))
  | .string a, .string b =>
    if op = .add then .ok (.string (a ++ b))
    else .error (.internal (.operands op.symbol "string" "string") node.position)
  | a, b => .error (.internal (.operands op.symbol a.kind b.kind) node.position)

def unary (p : Program) (node : Node) : UnaryOp → Value → Except Fault Value
  | .not, .bool b => .ok (.bool !b)
  | .not, v => .error (.internal (.operand "Not" v.kind) node.position)
  | .negate, .int v _ => do
    let type ← p.integerTypeOf node
    integerResult type (.negation v) node.position (Arithmetic.negate v)
  | .negate, .float v => .ok (.float (-v))
  | .negate, v => .error (.internal (.operand "Negate" v.kind) node.position)

end Program

namespace CompareOp

def holds (op : CompareOp) (order : Option Ordering) : Bool :=
  match op with
  | .less => order == some .lt
  | .lessEqual => order == some .lt || order == some .eq
  | .greater => order == some .gt
  | .greaterEqual => order == some .gt || order == some .eq
  | .equal | .notEqual => false

def apply (op : CompareOp) (a b : Value) (position : Position) : Except Fault Value :=
  match op with
  | .equal => .ok (.bool (a.equals b))
  | .notEqual => .ok (.bool !(a.equals b))
  | _ =>
    match a.order? b with
    | some order => .ok (.bool (op.holds order))
    | none => .error (.internal (.unordered a.kind b.kind) position)

end CompareOp

namespace Method

def call (name : String) (args : List Value) (position : Position) (receiver : Value) :
    Except Fault (Option Value × Value) :=
  match ofValue? receiver name with
  | some m => m.apply receiver args position
  | none => .error (.internal (.noMethod name receiver.kind) position)

end Method
end LoopLang
