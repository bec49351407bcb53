import LoopLang.Error.Compile
import LoopLang.Error.Fault
import LoopLang.Error.Parse

namespace LoopLang

inductive Error where
  | parse (error : ParseError)
  | compile (error : CompileError)
  | runtime (error : RuntimeError)
  | assertion (position : Position)
  | internal (defect : Defect) (position : Position)
  deriving DecidableEq

namespace Fault

def toError : Fault → Error
  | runtime error => .runtime error
  | assertion position => .assertion position
  | internal defect position => .internal defect position

end Fault

namespace Error

def isInternal : Error → Bool
  | internal _ _ => true
  | _ => false

def isAssertion : Error → Bool
  | assertion _ => true
  | _ => false

def position? : Error → Option Position
  | parse e => some e.position
  | compile e => some e.position
  | runtime e => e.position?
  | assertion position | internal _ position => some position

def text : Error → String
  | parse e => e.text
  | compile e => e.text
  | runtime e => e.text
  | assertion position => s!"Assertion failed at {position.text}"
  | internal defect _ => s!"Internal compiler error: {defect.message}"

/-- What is wrong, without the class of the error where the class is told apart. -/
def message : Error → String
  | parse e => e.cause.message
  | compile e => e.cause.message
  | internal defect _ => defect.message
  | other => other.text

def title : Error → String
  | parse _ => "Parse error"
  | compile e => e.cause.kind.title
  | runtime _ => "Runtime error"
  | assertion _ => "Assertion failed"
  | internal _ _ => "Internal compiler error"

def exitCode : Error → Nat
  | parse _ | compile _ => 1
  | runtime _ => 2
  | assertion _ => 3
  | internal _ _ => 101

def function? : Error → Option Enclosing
  | compile e => e.function
  | _ => none

end Error
end LoopLang
