import LoopLang.Error
import LoopLang.Tree
import LoopLang.Value
import Std.Data.TreeMap

namespace LoopLang

abbrev TypeTable := Std.TreeMap NodeId Ty

structure Program where
  globals : Globals
  types : TypeTable

namespace Ty

/-- The type that a name stands for: a primitive before a struct before an enum. -/
def ofName? (g : Globals) (name : String) : Option Ty :=
  match Primitive.ofName? name with
  | some p => some (primitive p)
  | none =>
    if (g.struct? name).isSome then some (struct name)
    else if g.isEnum name then some (enum name)
    else none

def ofName (g : Globals) (name : String) (position : Position) : Except Error Ty :=
  match ofName? g name with
  | some t => .ok t
  | none => .error (.compile ⟨.unknownType name, position, none⟩)

/-- Replaces names by what they stand for. Only names can be elements of an array then; all other
    types stay as they are. -/
def resolve (g : Globals) (position : Position) : Ty → Except Error Ty
  | named name => ofName g name position
  | array (named name) => do return array (← ofName g name position)
  | array element => .error (.internal (.elementResolved element) position)
  | type => .ok type

end Ty

namespace Globals

def hasDefaultWithin (g : Globals) : (depth : Nat) → Ty → Bool
  | _, .primitive _ | _, .array _ => true
  | depth + 1, .struct name =>
    (g.struct? name).any fun s =>
      s.members.all fun m => m.default.isSome || g.hasDefaultWithin depth m.type
  | _, _ => false

/-- Whether a variable of the type needs no initial value. An enum has no first member, so that
    a struct that holds one needs a default there. A program whose structs do not contain
    themselves nests them no deeper than their number. -/
def hasDefault (g : Globals) (type : Ty) : Bool := g.hasDefaultWithin g.structs.length type

end Globals

namespace Program

def typeOf (p : Program) (node : Node) : Except Fault Ty :=
  match p.types[node.id]? with
  | some type => .ok type
  | none => .error (.internal (.untyped node.id) node.position)

def literal (p : Program) (node : Node) : Literal → Except Fault Value
  | .integer value => do
    let type ← p.typeOf node
    match type.int? with
    | some t => return .int value t
    | none => throw (.internal (.literalType type) node.position)
  | .float value => .ok (.float value.toFloat32)
  | .string value => .ok (.string value)
  | .char value => .ok (.char value)
  | .bool value => .ok (.bool value)

def declaredDefault (p : Program) : Expr → Except Fault Value
  | .literal node value => p.literal node value
  | .place _ root [.member name _] | .method _ root [.member name _] _ _ _ =>
    .ok (.enum root name)
  | .place node .. | .method node .. => .error (.internal .enumDefault node.position)
  | e => .error (.internal .memberDefault e.position)

def primitiveDefault : Primitive → Value
  | .int type => .int 0 type
  | .f32 => .float 0
  | .string => .string ""
  | .bool => .bool false
  | .char => .char '\x00'

def defaultWithin (p : Program) (position : Position) : (depth : Nat) → Ty → Except Fault Value
  | _, .primitive t => .ok (primitiveDefault t)
  | _, .array element => .ok (.array element [])
  | depth, .struct name =>
    match p.globals.struct? name, depth with
    | none, _ => .error (.internal (.unknownStruct name) position)
    | some _, 0 => .error (.internal (.noDefault (.struct name)) position)
    | some s, depth + 1 => do
      let fields ← s.members.mapM fun m => do
        match m.default with
        | some e => return (m.name, (← p.declaredDefault e).coerce m.type)
        | none => return (m.name, ← p.defaultWithin position depth m.type)
      return .struct name fields
  | _, type => .error (.internal (.noDefault type) position)

def defaultValue (p : Program) (position : Position) (type : Ty) : Except Fault Value :=
  p.defaultWithin position p.globals.structs.length type

def memberDefault (p : Program) (position : Position) (m : Member) : Except Fault Value :=
  match m.default with
  | some e => do return (← p.declaredDefault e).coerce m.type
  | none => p.defaultValue position m.type

def withDefaults (p : Program) (position : Position) :
    List Member → List (String × Value) → Except Fault (List (String × Value))
  | [], fields => .ok fields
  | m :: members, fields =>
    if (fields.lookup m.name).isSome then p.withDefaults position members fields
    else do
      let v ← p.memberDefault position m
      p.withDefaults position members (Value.insertField m.name v fields)

end Program
end LoopLang
