import LoopLang.Tree.Parser
import LoopLang.Typing.Stmt

namespace LoopLang

namespace Struct

def defaultType (g : Globals) : Expr → Check Ty
  | .literal node value => do
    let type ← Check.liftAt node.position (Ty.ofLiteral value)
    Check.record node type
    return type
  | .place node root [.member name at_] => do
    unless g.isEnum root do Check.fail node.position .defaultNotConstant
    let type ← Check.liftAt at_ (Ty.ofEnumMember g root name)
    Check.record node type
    return type
  | e => Check.fail e.position .defaultNotConstant

def resolveMember (g : Globals) (m : Member) : Check Member := do
  let type ← liftM (m := Except Error) (m.type.resolve g m.position)
  match m.default with
  | none => return { m with type }
  | some e =>
    let found ← defaultType g e
    unless type.accepts found do
      Check.fail e.position (.defaultMismatch found m.name type)
    return { m with type }

def resolve (g : Globals) (s : Struct) : Check Struct := do
  return { s with members := ← s.members.mapM (resolveMember g) }

/-- Follows the structs within `name`, along `path` from outside in. Those in `done` contain
    nothing of themselves, and all that were followed are done afterwards. Fails with a struct
    that the path comes back to. -/
def visit (structs : List Struct) :
    (depth : Nat) → (path done : List String) → String → Except Struct (List String)
  | 0, _, done, _ => .ok done
  | depth + 1, path, done, name =>
    if done.contains name then .ok done
    else
      match structs.find? (·.name == name) with
      | none => .ok done
      | some s =>
        if path.contains name then .error s
        else do
          let done ← s.members.foldlM (fun done m =>
            match m.type with
            | .struct inner => visit structs depth (name :: path) done inner
            | _ => .ok done) done
          return name :: done

/-- A struct that contains itself as a member, or as a member of a member, and so on. Arrays may
    hold any struct. A path that meets no struct twice is no longer than their number. -/
def inItself? (structs : List Struct) : Option Struct :=
  match structs.foldlM (fun done s => visit structs (structs.length + 1) [] done s.name) [] with
  | .ok _ => none
  | .error s => some s

end Struct

namespace Function

def resolve (g : Globals) (f : Function) : Except Error Function := do
  let params ← f.params.mapM fun p => do return { p with type := ← p.type.resolve g p.position }
  let returns ← f.returns.mapM fun type => type.resolve g f.position
  return { f with params, returns }

end Function

namespace Error

def within (function : Enclosing) : Error → Error
  | compile e => compile (e.within function)
  | other => other

end Error

namespace Program

/-- Checks a program: its structs, then the heads of its functions, then their bodies. -/
def check (g : Globals) : Except Error Program := do
  let (structs, c) ← (g.structs.mapM (Struct.resolve g)).run ⟨∅, Scopes.empty⟩
  match Struct.inItself? structs with
  | some s => throw (.compile ⟨.structInItself s.name, s.position, none⟩)
  | none =>
    -- Each function is resolved where it stands, so that none has to be found again by its name.
    let functions ← g.functions.mapM (Function.resolve g)
    let globals : Globals := { g with structs, functions }
    let types ← functions.foldlM (fun types f =>
      (Check.functionBody globals f types).mapError (Error.within ⟨f.name, f.position⟩)) c.types
    return ⟨globals, types⟩

def compile (source : String) : Except Error Program := do check (← Globals.parse source)

end Program
end LoopLang
