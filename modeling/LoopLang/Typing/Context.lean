import LoopLang.Builtin
import LoopLang.Program
import LoopLang.Scopes

namespace LoopLang

inductive Mutability where
  | mutable
  | constant
  /-- A parameter by value: it names a copy, whose parts may change, but it is not rebound. -/
  | parameter
  deriving DecidableEq, Repr

structure Binding where
  type : Ty
  mutability : Mutability
  deriving DecidableEq, Repr

structure Context where
  types : TypeTable
  scopes : Scopes Binding

abbrev Check := StateT Context (Except Error)

namespace Check

def fail {α : Type} (position : Position) (cause : CompileCause) : Check α :=
  throw (.compile ⟨cause, position, none⟩)

def failInternally {α : Type} (position : Position) (defect : Defect) : Check α :=
  throw (.internal defect position)

def liftAt {α : Type} (position : Position) : Except CompileCause α → Check α
  | .ok a => pure a
  | .error cause => fail position cause

def record (node : Node) (type : Ty) : Check Unit :=
  modify fun c => { c with types := c.types.insert node.id type }

def binding? (name : String) : Check (Option Binding) := do return (← get).scopes.get? name

def declare (name : String) (type : Ty) (mutability : Mutability) (position : Position) :
    Check Unit := do
  let c ← get
  match c.scopes.define? name ⟨type, mutability⟩ with
  | some scopes => set { c with scopes }
  | none => fail position (.redeclaration name)

def inBlock {α : Type} (body : Check α) : Check α := do
  modify fun c => { c with scopes := c.scopes.push }
  let a ← body
  modify fun c => { c with scopes := c.scopes.pop }
  return a

end Check
end LoopLang
