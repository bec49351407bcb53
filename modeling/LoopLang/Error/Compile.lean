import LoopLang.Arithmetic
import LoopLang.Position
import LoopLang.Ty

namespace LoopLang

inductive CompileKind where
  | duplicateDefinition
  | unknownType
  | typeMismatch
  | unknownVariable
  | unknownFunction
  | unknownField
  | unknownEnumMember
  | unknownMethod
  | argumentCount
  | invalidReferenceArgument
  | constAssignment
  | redeclaration
  | loopControlOutsideLoop
  | invalidReturn
  | literalOutOfRange
  | divisionByZero
  | missingField
  | invalidStatement
  | noDefaultValue
  deriving DecidableEq, Repr

namespace CompileKind

def title : CompileKind → String
  | duplicateDefinition => "Definition error"
  | _ => "Type error"

end CompileKind

inductive CompileCause where
  | duplicateFunction (name : String)
  | duplicateStruct (name : String)
  | duplicateEnum (name : String)
  | duplicateMember (struct member : String)
  | duplicateEntry (enum entry : String)
  | duplicateField (name : String)
  | unknownType (name : String)
  | unknownStruct (name : String)
  | defaultMismatch (value : Ty) (member : String) (type : Ty)
  | defaultNotConstant
  | structInItself (name : String)
  | definitionMismatch (value : Ty) (name : String) (type : Ty)
  | assignmentMismatch (value : Ty) (root : String) (type : Ty)
  | assignmentToCharacter
  | conditionNotBool (type : Ty)
  | methodWithoutValue (name : String)
  | functionWithoutValue (name : String)
  | operandMismatch (symbol : String) (left right : Ty)
  | comparisonMismatch (symbol : String) (left right : Ty)
  | unsupportedOperator (symbol : String) (type : Ty)
  | notOfNonBool (type : Ty)
  | notNegatable (type : Ty)
  | fieldMismatch (name : String) (type value : Ty)
  | enumWithoutMember (name : String)
  | indexNotInteger (type : Ty)
  | notIndexable (type : Ty)
  | noMember (type : Ty) (name : String)
  | argumentMismatch (param callee : String) (type value : Ty)
  | referenceMismatch (param callee : String) (type value : Ty)
  | unknownVariable (name : String)
  | unknownFunction (name : String)
  | unknownField (struct name : String)
  | unknownEnumMember (enum name : String)
  | methodOnStruct (name : String)
  | methodOnEnum (name : String)
  | unknownMethod (type : Ty) (name : String)
  | argumentCount (callee : String) (expected found : Nat)
  | referenceToNonVariable (param callee : String)
  | referenceToReadOnly (name : String)
  | assignmentToConstant (name : String)
  | assignmentToParameter (name : String)
  | assignmentToEnum (name : String)
  | mutationOfConstant (method name : String)
  | redeclaration (name : String)
  | controlOutsideLoop (keyword : String)
  | returnMismatch (value : Ty) (function : String) (returns : Ty)
  | returnOfValue (function : String)
  | returnWithoutValue (function : String) (returns : Ty)
  | literalOutOfRange (value : Int)
  | fold (error : FoldError)
  | missingField (member struct : String)
  | placeAsStatement
  | noDefaultValue (name : String) (type : Ty)
  deriving DecidableEq, Repr

namespace CompileCause

def kind : CompileCause → CompileKind
  | duplicateFunction _ | duplicateStruct _ | duplicateEnum _ | duplicateMember _ _
  | duplicateEntry _ _ | duplicateField _ => .duplicateDefinition
  | unknownType _ | unknownStruct _ => .unknownType
  | defaultMismatch _ _ _ | defaultNotConstant | structInItself _ | definitionMismatch _ _ _
  | assignmentMismatch _ _ _ | assignmentToCharacter | conditionNotBool _
  | methodWithoutValue _ | functionWithoutValue _ | operandMismatch _ _ _
  | comparisonMismatch _ _ _ | unsupportedOperator _ _ | notOfNonBool _ | notNegatable _
  | fieldMismatch _ _ _ | enumWithoutMember _ | indexNotInteger _ | notIndexable _
  | noMember _ _ | argumentMismatch _ _ _ _ | referenceMismatch _ _ _ _ => .typeMismatch
  | unknownVariable _ => .unknownVariable
  | unknownFunction _ => .unknownFunction
  | unknownField _ _ => .unknownField
  | unknownEnumMember _ _ => .unknownEnumMember
  | methodOnStruct _ | methodOnEnum _ | unknownMethod _ _ => .unknownMethod
  | argumentCount _ _ _ => .argumentCount
  | referenceToNonVariable _ _ | referenceToReadOnly _ => .invalidReferenceArgument
  | assignmentToConstant _ | assignmentToParameter _ | assignmentToEnum _
  | mutationOfConstant _ _ => .constAssignment
  | redeclaration _ => .redeclaration
  | controlOutsideLoop _ => .loopControlOutsideLoop
  | returnMismatch _ _ _ | returnOfValue _ | returnWithoutValue _ _ => .invalidReturn
  | literalOutOfRange _ | fold (.overflow _ _ _) => .literalOutOfRange
  | fold .divisionByZero => .divisionByZero
  | missingField _ _ => .missingField
  | placeAsStatement => .invalidStatement
  | noDefaultValue _ _ => .noDefaultValue

def message : CompileCause → String
  | duplicateFunction name => s!"Function '{name}' is already defined"
  | duplicateStruct name => s!"Struct '{name}' is already defined"
  | duplicateEnum name => s!"Enum '{name}' is already defined"
  | duplicateMember struct member => s!"Struct '{struct}' has duplicate member '{member}'"
  | duplicateEntry enum entry => s!"Enum '{enum}' has duplicate entry '{entry}'"
  | duplicateField name => s!"Member '{name}' is initialized more than once"
  | unknownType name => s!"Unknown type '{name}'"
  | unknownStruct name => s!"Unknown struct '{name}'"
  | defaultMismatch value member type =>
    s!"Default value of type {value.describe} cannot initialize member '{member}' of type " ++
      type.describe
  | defaultNotConstant => "Struct member default must be a constant or an enum member"
  | structInItself name => s!"Struct '{name}' contains itself"
  | definitionMismatch value name type =>
    s!"Cannot assign value of type {value.describe} to variable '{name}' of type {type.describe}"
  | assignmentMismatch value root type =>
    s!"Cannot assign value of type {value.describe} to '{root}' of type {type.describe}"
  | assignmentToCharacter => "Cannot assign to a character of a string"
  | conditionNotBool type => s!"Condition must be bool, got {type.describe}"
  | methodWithoutValue name => s!"Method '{name}' does not return a value"
  | functionWithoutValue name => s!"Function '{name}' does not return a value"
  | operandMismatch symbol left right =>
    s!"Cannot apply '{symbol}' to {left.describe} and {right.describe}"
  | comparisonMismatch symbol left right =>
    s!"Cannot compare {left.describe} with {right.describe} using '{symbol}'"
  | unsupportedOperator symbol type =>
    s!"Operator '{symbol}' is not supported for {type.describe}"
  | notOfNonBool type => s!"Operator 'not' requires bool, got {type.describe}"
  | notNegatable type => s!"Cannot negate a value of type {type.describe}"
  | fieldMismatch name type value =>
    s!"Cannot initialize member '{name}' of type {type.describe} with {value.describe}"
  | enumWithoutMember name => s!"Enum '{name}' must be used as '{name}.Member'"
  | indexNotInteger type => s!"Index must be an integer, got {type.describe}"
  | notIndexable type => s!"Indexing not supported for {type.describe}"
  | noMember type name => s!"{type.describe} has no member '{name}'"
  | argumentMismatch param callee type value =>
    s!"Argument '{param}' of '{callee}' expects {type.describe}, got {value.describe}"
  | referenceMismatch param callee type value =>
    s!"Reference parameter '{param}' of '{callee}' expects {type.describe}, got " ++
      value.describe
  | unknownVariable name => s!"Unknown variable '{name}'"
  | unknownFunction name => s!"Unknown function '{name}'"
  | unknownField struct name => s!"Struct '{struct}' has no member '{name}'"
  | unknownEnumMember enum name => s!"Enum '{enum}' has no member '{name}'"
  | methodOnStruct name => s!"Struct '{name}' does not support method calls"
  | methodOnEnum name => s!"Enum '{name}' does not support method calls"
  | unknownMethod type name => s!"{type.describe} has no method '{name}'"
  | argumentCount callee expected found =>
    s!"'{callee}' expects {expected} argument" ++ (if expected = 1 then "" else "s") ++
      s!", got {found}"
  | referenceToNonVariable param callee =>
    s!"Argument for reference parameter '{param}' of '{callee}' must be a variable"
  | referenceToReadOnly name => s!"Cannot pass '{name}' by reference: it is read-only"
  | assignmentToConstant name => s!"Cannot assign to constant '{name}'"
  | assignmentToParameter name => s!"Cannot reassign value parameter '{name}'"
  | assignmentToEnum name => s!"Cannot assign to enum '{name}'"
  | mutationOfConstant method name => s!"Cannot call '{method}' on constant '{name}'"
  | redeclaration name => s!"Variable '{name}' is already defined in this scope"
  | controlOutsideLoop keyword => s!"'{keyword}' outside of a loop"
  | returnMismatch value function returns =>
    s!"Cannot return value of type {value.describe} from function '{function}' returning " ++
      returns.describe
  | returnOfValue function => s!"Function '{function}' does not declare a return type"
  | returnWithoutValue function returns =>
    s!"Function '{function}' must return a value of type {returns.describe}"
  | literalOutOfRange value => s!"Integer literal {value} does not fit any integer type"
  | fold error => error.message
  | missingField member struct =>
    s!"Member '{member}' of struct '{struct}' has no default value and must be initialized"
  | placeAsStatement => "Variable access as statement must end with a method call"
  | noDefaultValue name type => s!"Variable '{name}' of type {type.describe} must be initialized"

end CompileCause

structure Enclosing where
  name : String
  position : Position
  deriving DecidableEq, Repr

namespace Enclosing

def text (e : Enclosing) : String := s!"in function '{e.name}'"

end Enclosing

structure CompileError where
  cause : CompileCause
  position : Position
  function : Option Enclosing
  deriving DecidableEq, Repr

namespace CompileError

/-- Names the enclosing function, unless one is named already. -/
def within (e : CompileError) (function : Enclosing) : CompileError :=
  { e with function := e.function.or (some function) }

def text (e : CompileError) : String :=
  s!"{e.cause.kind.title} at {e.position.text}: {e.cause.message}" ++
    match e.function with
    | some f => s!" ({f.text} at {f.position.text})"
    | none => ""

end CompileError
end LoopLang
