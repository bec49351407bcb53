import LoopLang.Range

namespace LoopLang

inductive IntTy where
  | u8 | u16 | u32 | u64 | i8 | i16 | i32 | i64
  deriving DecidableEq, Repr

namespace IntTy

def bits : IntTy → Nat
  | u8 | i8 => 8
  | u16 | i16 => 16
  | u32 | i32 => 32
  | u64 | i64 => 64

def isSigned : IntTy → Bool
  | u8 | u16 | u32 | u64 => false
  | i8 | i16 | i32 | i64 => true

def range (t : IntTy) : Range := if t.isSigned then .signed t.bits else .unsigned t.bits

def fits (t : IntTy) (v : Int) : Bool := t.range.contains v

/-- Whether a variable of type `t` takes values of type `source`: one of the same kind must not
    be wider, and an unsigned one goes into a signed one only if that is wider. -/
def accepts (t source : IntTy) : Bool :=
  if t.isSigned = source.isSigned then source.bits ≤ t.bits
  else t.isSigned && source.bits < t.bits

def candidates (v : Int) : List IntTy :=
  if 0 ≤ v then [u8, u16, u32, u64] else [i8, i16, i32, i64]

/-- The type of an integer literal: the narrowest that holds it, unsigned unless it is negative. -/
def ofLiteral? (v : Int) : Option IntTy := (candidates v).find? (·.fits v)

def name : IntTy → String
  | u8 => "u8"
  | u16 => "u16"
  | u32 => "u32"
  | u64 => "u64"
  | i8 => "i8"
  | i16 => "i16"
  | i32 => "i32"
  | i64 => "i64"

end IntTy

inductive Primitive where
  | int (type : IntTy)
  | f32 | string | bool | char
  deriving DecidableEq, Repr

namespace Primitive

def name : Primitive → String
  | int type => type.name
  | f32 => "f32"
  | string => "string"
  | bool => "bool"
  | char => "char"

/-- The primitive that a source text names; `int` is another name of `i64`. -/
def ofName? : String → Option Primitive
  | "u8" => some (int .u8)
  | "u16" => some (int .u16)
  | "u32" => some (int .u32)
  | "u64" => some (int .u64)
  | "i8" => some (int .i8)
  | "i16" => some (int .i16)
  | "i32" => some (int .i32)
  | "i64" => some (int .i64)
  | "int" => some (int .i64)
  | "f32" => some f32
  | "string" => some string
  | "bool" => some bool
  | "char" => some char
  | _ => none

theorem ofName?_name (p : Primitive) : ofName? p.name = some p := by
  cases p with
  | int type => cases type <;> rfl
  | _ => rfl

def int? : Primitive → Option IntTy
  | int type => some type
  | _ => none

def isInteger (p : Primitive) : Bool := p.int?.isSome

def isSigned : Primitive → Bool
  | int type => type.isSigned
  | _ => false

def isNumeric : Primitive → Bool
  | int _ | f32 => true
  | _ => false

def isOrdered : Primitive → Bool
  | int _ | f32 | char | string => true
  | bool => false

def range? : Primitive → Option Range
  | int type => some type.range
  | _ => none

def fits (p : Primitive) (v : Int) : Bool := p.range?.any (·.contains v)

def accepts : Primitive → Primitive → Bool
  | int t, int source => t.accepts source
  | p, source => p = source

end Primitive

/-- A type. One that is still `named` awaits its resolution; `any` belongs to parameters of
    builtins alone. -/
inductive Ty where
  | named (name : String)
  | primitive (p : Primitive)
  | array (element : Ty)
  | struct (name : String)
  | enum (name : String)
  | any
  deriving DecidableEq, Repr

namespace Ty

def int (t : IntTy) : Ty := primitive (.int t)

def string : Ty := primitive .string

def bool : Ty := primitive .bool

def primitive? : Ty → Option Primitive
  | primitive p => some p
  | _ => none

def int? (t : Ty) : Option IntTy := t.primitive?.bind (·.int?)

def isResolved : Ty → Bool
  | named _ => false
  | array element => element.isResolved
  | _ => true

def describe : Ty → String
  | named name => name
  | primitive p => p.name
  | array element => s!"[{element.describe}]"
  | struct name => s!"struct {name}"
  | enum name => s!"enum {name}"
  | any => "any"

def accepts : Ty → Ty → Bool
  | any, _ => true
  | primitive p, primitive source => p.accepts source
  | array t, array source => t.accepts source
  | struct name, struct source => name = source
  | enum name, enum source => name = source
  | _, _ => false

/-- The type that two operands meet in: the first that takes the other. -/
def common? (left right : Ty) : Option Ty :=
  if left.accepts right then some left
  else if right.accepts left then some right
  else none

end Ty
end LoopLang
