import LoopLang.Builtin
import LoopLang.Program
import LoopLang.Scopes
import LoopLang.Value.Path

namespace LoopLang

abbrev CellId := Nat

/-- The state of a run. Every variable has a cell of its own, and a parameter by reference shares
    that of the caller's variable. The scopes are those of the function that runs. -/
structure Machine where
  cells : Array Value
  scopes : Scopes CellId
  depth : Nat
  lines : Array Line
  borrowed : List CellId

namespace Machine

def initial : Machine := ⟨#[], Scopes.empty, 0, #[], []⟩

def maxDepth : Nat := 512

def load (m : Machine) (cell : CellId) : Value := m.cells[cell]?.getD default

def store (m : Machine) (cell : CellId) (v : Value) : Machine :=
  { m with cells := m.cells.setIfInBounds cell v }

end Machine

/-- Why a run stops before its end. A run that is out of fuel might go on with more of it. -/
inductive Stop where
  | fault (fault : Fault)
  | outOfFuel
  deriving DecidableEq, Repr

abbrev Run := EStateM Stop Machine

/-- How a statement ends. All but the first leave the blocks around it: up to the loop, or up to
    the call that returns. -/
inductive Flow where
  | normal
  | break
  | continue
  | return (value : Option Value)

namespace Flow

def returned? : Flow → Option Value
  | .return value => value
  | _ => none

end Flow

namespace Run

def fail {α : Type} (fault : Fault) : Run α := throw (.fault fault)

def lift {α : Type} : Except Fault α → Run α
  | .ok a => pure a
  | .error fault => fail fault

def newCell (v : Value) : Run CellId :=
  modifyGet fun m => (m.cells.size, { m with cells := m.cells.push v })

def cellOf (name : String) (position : Position) : Run CellId := do
  match (← get).scopes.get? name with
  | some cell => return cell
  | none => fail (.internal (.unknownVariable name) position)

def define (name : String) (v : Value) (position : Position) : Run Unit := do
  let cell ← newCell v
  match (← get).scopes.define? name cell with
  | some scopes => modify fun m => { m with scopes }
  | none => fail (.internal (.redefined name) position)

def fetch (cell : CellId) (position : Position) : Run Value := do
  let m ← get
  if cell ∈ m.borrowed then fail (.internal .borrowed position) else return m.load cell

/-- Runs something while a cell is borrowed, which it is no longer however that ends. -/
def borrow {α : Type} (cell : CellId) (body : Run α) : Run α := fun m =>
  let borrowed := m.borrowed
  match body { m with borrowed := cell :: borrowed } with
  | .ok a m => .ok a { m with borrowed }
  | .error e m => .error e { m with borrowed }

def change {α : Type} (cell : CellId) (position : Position)
    (act : Value → Except Fault (α × Value)) : Run α := do
  let v ← fetch cell position
  borrow cell do
    let (a, v) ← lift (act v)
    modify fun m => m.store cell v
    return a

def print (line : Line) : Run Unit := modify fun m => { m with lines := m.lines.push line }

/-- Runs a block in a frame of its own, which is left however the block ends. -/
def inFrame {α : Type} (body : Run α) : Run α := fun m =>
  match body { m with scopes := m.scopes.push } with
  | .ok a m => .ok a { m with scopes := m.scopes.pop }
  | .error e m => .error e { m with scopes := m.scopes.pop }

def inCall {α : Type} (scopes : Scopes CellId) (body : Run α) : Run α := fun m =>
  let caller := m.scopes
  let depth := m.depth
  match body { m with scopes, depth := depth + 1 } with
  | .ok a m => .ok a { m with scopes := caller, depth }
  | .error e m => .error e { m with scopes := caller, depth }

end Run

namespace Scopes

def ofArguments (params : List Param) (cells : List CellId) : Scopes CellId :=
  (params.zip cells).foldl (fun s (param, cell) => (s.define? param.name cell).getD s) empty

end Scopes
end LoopLang
