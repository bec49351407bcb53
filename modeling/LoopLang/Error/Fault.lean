import LoopLang.Arithmetic
import LoopLang.Decimal.Text
import LoopLang.Position
import LoopLang.Ty

namespace LoopLang

/-- Something that cannot happen in a program that was checked: the checker or the interpreter
    was handed a tree or types that no checked program has. -/
inductive Defect where
  | elementResolved (type : Ty)
  | structNotGlobal (name : String)
  | receiverUnresolved (type : Ty)
  | receiverNotVariable
  | untyped (id : Nat)
  | unknownVariable (name : String)
  | unknownFunction (name : String)
  | unknownStruct (name : String)
  | unknownMember (struct member : String)
  | missingMember (name : String)
  | methodWithoutValue
  | functionWithoutValue (name : String)
  | literalType (type : Ty)
  | arithmeticType (type : Ty)
  | operands (symbol left right : String)
  | unordered (left right : String)
  | operand (operator value : String)
  | condition (value : String)
  | index (value : String)
  | noMemberOf (member value : String)
  | noIndexOf (value : String)
  | noMethod (name value : String)
  | argumentCount (found : Nat)
  | receiver (value : String)
  | assertion (value : String)
  | noDefault (type : Ty)
  | redefined (name : String)
  | borrowed
  | referenceArgument
  | enumDefault
  | memberDefault
  deriving DecidableEq, Repr

namespace Defect

def message : Defect → String
  | elementResolved type =>
    s!"Array element type '{type.describe}' was resolved before validation"
  | structNotGlobal name => s!"Struct '{name}' missing from global scope"
  | receiverUnresolved type => s!"Method call on unresolved type {type.describe}"
  | receiverNotVariable => "Mutating method on a receiver that is not a variable"
  | untyped id => s!"Node {id} was never typed"
  | unknownVariable name => s!"Unknown variable '{name}'"
  | unknownFunction name => s!"Unknown function '{name}'"
  | unknownStruct name => s!"Unknown struct '{name}'"
  | unknownMember struct member => s!"Struct '{struct}' has no member '{member}'"
  | missingMember name => s!"Missing member '{name}'"
  | methodWithoutValue => "Method call produced no value"
  | functionWithoutValue name => s!"Function '{name}' produced no value"
  | literalType type => s!"Integer literal typed as {type.describe}"
  | arithmeticType type => s!"Integer arithmetic typed as {type.describe}"
  | operands symbol left right => s!"Cannot apply '{symbol}' to {left} and {right}"
  | unordered left right => s!"Cannot order {left} and {right}"
  | operand operator value => s!"Cannot apply {operator} to {value}"
  | condition value => s!"Condition evaluated to {value}"
  | index value => s!"Index evaluated to {value}"
  | noMemberOf member value => s!"Cannot access member '{member}' of {value}"
  | noIndexOf value => s!"Cannot access an index of {value}"
  | noMethod name value => s!"No method '{name}' on {value}"
  | argumentCount found => s!"Builtin expected 1 argument, got {found}"
  | receiver value => s!"Builtin method called on {value}"
  | assertion value => s!"assert expects bool, got {value}"
  | noDefault type => s!"Type {type.describe} has no default value"
  | redefined name => s!"Variable '{name}' defined twice in one scope"
  | borrowed => "Variable is already borrowed"
  | referenceArgument => "Reference argument is not a variable"
  | enumDefault => "Malformed enum default value"
  | memberDefault => "Struct member default is not a constant"

end Defect

inductive Operation where
  | ints (op : MathOp) (left right : Int)
  | floats (op : MathOp) (left right : Float32)
  | negation (value : Int)
  | length
  deriving DecidableEq, Repr

namespace Operation

def text : Operation → String
  | ints op left right => s!"{left} {op.symbol} {right}"
  | floats op left right => s!"{Decimal.plain left} {op.symbol} {Decimal.plain right}"
  | negation value => s!"-{value}"
  | length => "length()"

end Operation

inductive RuntimeError where
  | indexOutOfBounds (index : Int) (length : Nat) (position : Position)
  | divisionByZero (operation : Operation) (position : Position)
  | integerOverflow (operation : Operation) (type : IntTy) (position : Position)
  | stackOverflow (function : String) (limit : Nat) (position : Position)
  | missingReturnValue (function : String) (position : Position)
  | noMain
  | mainWithParams (position : Position)
  deriving DecidableEq, Repr

namespace RuntimeError

def position? : RuntimeError → Option Position
  | indexOutOfBounds _ _ position | divisionByZero _ position | integerOverflow _ _ position
  | stackOverflow _ _ position | missingReturnValue _ position | mainWithParams position =>
    some position
  | noMain => none

def text : RuntimeError → String
  | indexOutOfBounds index length position =>
    s!"Index {index} out of bounds for length {length} at {position.text}"
  | divisionByZero operation position =>
    s!"Division by zero in '{operation.text}' at {position.text}"
  | integerOverflow operation type position =>
    s!"Integer overflow in '{operation.text}' ({type.name}) at {position.text}"
  | stackOverflow function limit position =>
    s!"Maximum call depth of {limit} exceeded calling '{function}' at {position.text}"
  | missingReturnValue function position =>
    s!"Function '{function}' ended without returning a value at {position.text}"
  | noMain => "No main() function found"
  | mainWithParams position => s!"main() must not take parameters at {position.text}"

end RuntimeError

inductive Fault where
  | runtime (error : RuntimeError)
  | assertion (position : Position)
  | internal (defect : Defect) (position : Position)
  deriving DecidableEq, Repr

end LoopLang
