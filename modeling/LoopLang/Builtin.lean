import LoopLang.Error.Fault
import LoopLang.Text.CaseMap
import LoopLang.Tree
import LoopLang.Value

namespace LoopLang

structure Line where
  text : String
  position : Position
  deriving DecidableEq, Repr

structure Signature where
  name : String
  params : List Param
  returns : Option Ty
  deriving DecidableEq, Repr

namespace Signature

def param (type : Ty) : Param := ⟨"value", type, false, Position.none⟩

end Signature

def onlyArgument (args : List Value) (position : Position) : Except Fault Value :=
  match args with
  | [v] => .ok v
  | _ => .error (.internal (.argumentCount args.length) position)

inductive Builtin where
  | print | prints | printi | printf | printb | assert
  deriving DecidableEq, Repr

namespace Builtin

def name : Builtin → String
  | print => "print"
  | prints => "prints"
  | printi => "printi"
  | printf => "printf"
  | printb => "printb"
  | assert => "assert"

def ofName? : String → Option Builtin
  | "print" => some print
  | "prints" => some prints
  | "printi" => some printi
  | "printf" => some printf
  | "printb" => some printb
  | "assert" => some assert
  | _ => none

theorem ofName?_name (b : Builtin) : ofName? b.name = some b := by cases b <;> rfl

def accepts : Builtin → Ty
  | print => .any
  | prints => .string
  | printi => .int .i64
  | printf => .primitive .f32
  | printb | assert => .bool

def signature (b : Builtin) : Signature := ⟨b.name, [Signature.param b.accepts], none⟩

/-- Calls a function and gives the line that it prints, if it prints one. None returns a value. -/
def apply (b : Builtin) (args : List Value) (position : Position) :
    Except Fault (Option Line) := do
  let v ← onlyArgument args position
  match b with
  | assert =>
    match v with
    | .bool true => return none
    | .bool false => throw (.assertion position)
    | other => throw (.internal (.assertion other.kind) position)
  | _ => return some ⟨v.display, position⟩

end Builtin

inductive Method where
  | append
  | arrayLength
  | stringLength
  | toLowerCase
  | toUpperCase
  | codePoint
  deriving DecidableEq, Repr

namespace Method

def name : Method → String
  | append => "append"
  | arrayLength | stringLength => "length"
  | toLowerCase => "toLowerCase"
  | toUpperCase => "toUpperCase"
  | codePoint => "int"

def ofArray? : String → Option Method
  | "append" => some append
  | "length" => some arrayLength
  | _ => none

def ofPrimitive? : Primitive → String → Option Method
  | .string, "length" => some stringLength
  | .string, "toLowerCase" => some toLowerCase
  | .string, "toUpperCase" => some toUpperCase
  | .char, "int" => some codePoint
  | _, _ => none

def ofTy? : Ty → String → Option Method
  | .array _, name => ofArray? name
  | .primitive p, name => ofPrimitive? p name
  | _, _ => none

def ofValue? : Value → String → Option Method
  | .array _ _, name => ofArray? name
  | v, name => v.primitive?.bind fun p => ofPrimitive? p name

def mutates : Method → Bool
  | append => true
  | _ => false

def signature : Method → Signature
  | append => ⟨append.name, [Signature.param .any], none⟩
  | arrayLength => ⟨arrayLength.name, [], some (.int .u32)⟩
  | stringLength => ⟨stringLength.name, [], some (.int .u32)⟩
  | toLowerCase => ⟨toLowerCase.name, [], some .string⟩
  | toUpperCase => ⟨toUpperCase.name, [], some .string⟩
  | codePoint => ⟨codePoint.name, [], some (.int .u32)⟩

def count (n : Nat) (position : Position) : Except Fault Value :=
  if IntTy.u32.fits n then .ok (.int n .u32)
  else .error (.runtime (.integerOverflow .length .u32 position))

/-- Calls a method on a receiver. Gives the value that it returns, if it returns one, and the
    receiver as it is afterwards. -/
def apply (m : Method) (receiver : Value) (args : List Value) (position : Position) :
    Except Fault (Option Value × Value) :=
  match m, receiver with
  | append, receiver => do
    let v ← onlyArgument args position
    match receiver with
    | .array element items => return (none, .array element (items ++ [v.coerce element]))
    | other => throw (.internal (.receiver other.kind) position)
  | arrayLength, .array element items => do
    return (some (← count items.length position), .array element items)
  | stringLength, .string s => do return (some (← count s.length position), .string s)
  | toLowerCase, .string s => .ok (some (.string (Text.lowerCase s)), .string s)
  | toUpperCase, .string s => .ok (some (.string (Text.upperCase s)), .string s)
  | codePoint, .char c => .ok (some (.int c.toNat .u32), .char c)
  | _, other => .error (.internal (.receiver other.kind) position)

end Method
end LoopLang
