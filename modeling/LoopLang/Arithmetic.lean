import LoopLang.Decimal.Binary
import LoopLang.Range

namespace LoopLang

inductive MathOp where
  | add | subtract | multiply | divide | modulo
  deriving DecidableEq, Repr

namespace MathOp

def symbol : MathOp → String
  | add => "+"
  | subtract => "-"
  | multiply => "*"
  | divide => "/"
  | modulo => "%"

def isDivision : MathOp → Bool
  | divide | modulo => true
  | _ => false

end MathOp

namespace Arithmetic

structure Overflow where
  value : Int

/-- Computations in steps. After a checked step there may be no result; a step that is not checked
    must not leave the range. -/
abbrev Steps := ExceptT Overflow Option

namespace Steps

def trust (v : Int) : Steps Int := if Range.wide.contains v then pure v else throw ⟨v⟩

def result {α : Type} (steps : Steps α) : Option α := steps.run.bind Except.toOption

end Steps

def truncatedDiv (a b : Int) : Option Int := if b = 0 then none else Range.wide.check (a.tdiv b)

/-- The remainder of truncating division. There is one only where there is a quotient. -/
def truncatedMod (a b : Int) : Option Int := (truncatedDiv a b).map fun _ => a.tmod b

/-- The floor of a quotient from truncating division. Asking for the remainder divides again. -/
def floorDivSteps (a b : Int) : Steps Int := do
  let quotient ← liftM (truncatedDiv a b)
  let _ ← Steps.trust (a.tdiv b)
  if a.tmod b ≠ 0 ∧ ¬ (a < 0 ↔ b < 0) then Steps.trust (quotient - 1) else return quotient

def floorModSteps (a b : Int) : Steps Int := do
  let remainder ← liftM (truncatedMod a b)
  if remainder ≠ 0 ∧ ¬ (remainder < 0 ↔ b < 0) then Steps.trust (remainder + b)
  else return remainder

def floorDiv (a b : Int) : Option Int := (floorDivSteps a b).result

def floorMod (a b : Int) : Option Int := (floorModSteps a b).result

def onInts (op : MathOp) (a b : Int) : Option Int :=
  match op with
  | .add => Range.wide.check (a + b)
  | .subtract => Range.wide.check (a - b)
  | .multiply => Range.wide.check (a * b)
  | .divide => floorDiv a b
  | .modulo => floorMod a b

def negate (a : Int) : Option Int := Range.wide.check (-a)

def nan : Float32 := 0 / 0

/-- What is left of `a` after taking away `b` as often as it goes into it: exact, with the sign
    of `a`. -/
def floatRem (a b : Float32) : Float32 :=
  match Decimal.Binary.ofFloat32 a, Decimal.Binary.ofFloat32 b with
  | .finite .., .infinite _ => a
  | .finite negative m p _, .finite _ n q _ =>
    if n = 0 then nan
    else
      let unit := min p q
      let rest := m * Nat.pow 2 (p - unit).toNat % (n * Nat.pow 2 (q - unit).toNat)
      Decimal.Binary.toFloat32 negative rest unit
  | _, _ => nan

def floatFloorMod (a b : Float32) : Float32 :=
  let rest := floatRem a b
  if rest != 0 && (decide (rest < 0) != decide (b < 0)) then rest + b else rest

def onFloats (op : MathOp) (a b : Float32) : Float32 :=
  match op with
  | .add => a + b
  | .subtract => a - b
  | .multiply => a * b
  | .divide => a / b
  | .modulo => floatFloorMod a b

end Arithmetic

inductive Constant where
  | int (value : Int)
  | float (value : Float32)
  deriving DecidableEq

inductive FoldError where
  | divisionByZero
  | overflow (op : MathOp) (left right : Int)
  deriving DecidableEq, Repr

namespace FoldError

def message : FoldError → String
  | divisionByZero => "Division by zero in constant expression"
  | overflow op left right => s!"Constant expression '{left} {op.symbol} {right}' overflows"

end FoldError

namespace Constant

/-- The result of an operation on two literals; none on literals of different kinds, which are
    left to the comparison of their types. -/
def fold (op : MathOp) : Constant → Constant → Except FoldError (Option Constant)
  | int a, int b =>
    if op.isDivision && b == 0 then .error .divisionByZero
    else
      match Arithmetic.onInts op a b with
      | some v => .ok (some (int v))
      | none => .error (.overflow op a b)
  | float a, float b =>
    if op.isDivision && b == 0 then .error .divisionByZero
    else .ok (some (float (Arithmetic.onFloats op a b)))
  | _, _ => .ok none

end Constant
end LoopLang
