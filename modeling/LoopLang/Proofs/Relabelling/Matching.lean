import LoopLang.Proofs.Relabelling.Relabelled
import LoopLang.Typing

namespace LoopLang

variable {r : Relabelling}

namespace Globals

/-- The definitions of `g'` are those of `g` with other labels, in any order. -/
structure Matches (r : Relabelling) (g g' : Globals) : Prop where
  function? (name : String) : g'.function? name = (g.function? name).map (Function.relabelled r)
  struct? (name : String) : g'.struct? name = (g.struct? name).map (Struct.relabelled r)
  enum? (name : String) : g'.enum? name = (g.enum? name).map (Enum.moved r.place)
  count : g'.structs.length = g.structs.length

namespace Matches

variable {g g' : Globals} (same : g.Matches r g')
include same

theorem isEnum (name : String) : g'.isEnum name = g.isEnum name := by
  rw [Globals.isEnum, same.enum?, Option.isSome_map]
  rfl

theorem hasDefaultWithin (depth : Nat) (type : Ty) :
    g'.hasDefaultWithin depth type = g.hasDefaultWithin depth type := by
  induction depth generalizing type with
  | zero => cases type <;> rfl
  | succ depth ih =>
    cases type with
    | struct name =>
      rw [Globals.hasDefaultWithin, Globals.hasDefaultWithin, same.struct?]
      cases g.struct? name with
      | none => rfl
      | some s =>
        simp only [Option.map_some, Option.any_some, Struct.relabelled, List.all_map]
        congr 1
        funext m
        simp only [Function.comp_apply, Member.relabelled, Option.isSome_map, ih]
    | _ => rfl

theorem hasDefault (type : Ty) : g'.hasDefault type = g.hasDefault type := by
  rw [Globals.hasDefault, same.hasDefaultWithin, same.count]
  rfl

theorem ofName? (name : String) : Ty.ofName? g' name = Ty.ofName? g name := by
  simp only [Ty.ofName?, same.struct?, same.isEnum, Option.isSome_map]

theorem ofEnumMember (enum member : String) :
    Ty.ofEnumMember g' enum member = Ty.ofEnumMember g enum member := by
  rw [Ty.ofEnumMember, Ty.ofEnumMember, same.enum?, Option.any_map]
  rfl

end Matches
end Globals

namespace Program

structure Matches (r : Relabelling) (p p' : Program) : Prop where
  globals : p.globals.Matches r p'.globals
  types (id : NodeId) : p'.types[r.number id]? = p.types[id]?

end Program
end LoopLang
