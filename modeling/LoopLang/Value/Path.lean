import LoopLang.Error.Fault
import LoopLang.Value

namespace LoopLang

inductive PathStep where
  | field (name : String) (position : Position)
  | index (index : Int) (position : Position)
  deriving DecidableEq, Repr

namespace PathStep

def position : PathStep → Position
  | field _ position | index _ position => position

def notOn (step : PathStep) (v : Value) : Fault :=
  match step with
  | field name position => .internal (.noMemberOf name v.kind) position
  | index _ position => .internal (.noIndexOf v.kind) position

end PathStep

namespace Value

def itemAt {α : Type} (items : List α) (index : Int) (position : Position) : Except Fault α :=
  if h : 0 ≤ index ∧ index.toNat < items.length then .ok items[index.toNat]
  else .error (.runtime (.indexOutOfBounds index items.length position))

/-- The part of a value at the end of a path. A character of a string has no parts. -/
def read : Value → List PathStep → Except Fault Value
  | v, [] => .ok v
  | .struct name fields, .field member position :: path =>
    match fields.lookup member with
    | some v => v.read path
    | none => .error ((PathStep.field member position).notOn (.struct name fields))
  | .array _ items, .index i position :: path => do (← itemAt items i position).read path
  | .string s, [.index i position] => do return .char (← itemAt s.toList i position)
  | v, step :: _ => .error (step.notOn v)

def write : (v new : Value) → List PathStep → Except Fault Value
  | _, new, [] => .ok new
  | .struct name fields, new, .field member position :: path =>
    match fields.lookup member with
    | some v => do return .struct name (insertField member (← v.write new path) fields)
    | none => .error (.internal (.missingMember member) position)
  | .array element items, new, .index i position :: path => do
    let item ← (← itemAt items i position).write new path
    return .array element (items.set i.toNat item)
  | v, _, step :: _ => .error (step.notOn v)

/-- Applies `act` to the part at the end of a path, which becomes what `act` makes of it. What
    becomes of a character of a string is lost. -/
def update {α : Type} (act : Value → Except Fault (α × Value)) :
    Value → List PathStep → Except Fault (α × Value)
  | v, [] => act v
  | .struct name fields, .field member position :: path =>
    match fields.lookup member with
    | some v => do
      let (a, v) ← v.update act path
      return (a, .struct name (insertField member v fields))
    | none => .error (.internal (.missingMember member) position)
  | .array element items, .index i position :: path => do
    let (a, item) ← (← itemAt items i position).update act path
    return (a, .array element (items.set i.toNat item))
  | .string s, [.index i position] => do
    let (a, _) ← act (.char (← itemAt s.toList i position))
    return (a, .string s)
  | v, step :: _ => .error (step.notOn v)

end Value
end LoopLang
