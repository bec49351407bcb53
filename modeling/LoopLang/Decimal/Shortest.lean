import LoopLang.Decimal.Binary

namespace LoopLang.Decimal

structure Scaled where
  digits : Nat
  exponent : Int
  deriving DecidableEq, Repr

/-- A number with the ends of an interval around it, as numerators over one denominator. -/
structure Interval where
  low : Nat
  value : Nat
  high : Nat
  denominator : Nat
  closed : Bool
  deriving Repr

namespace Interval

/-- The interval of the reals that round to `mantissa * 2 ^ exponent`. It reaches half way to
    both neighbours, and its ends belong to it exactly for an even mantissa. -/
def around (mantissa : Nat) (exponent : Int) (lowest : Bool) : Interval :=
  let scale := Nat.pow 2 (exponent - 2).toNat
  { low := (4 * mantissa - if lowest then 1 else 2) * scale
    value := 4 * mantissa * scale
    high := (4 * mantissa + 2) * scale
    denominator := Nat.pow 2 (2 - exponent).toNat
    closed := mantissa % 2 == 0 }

def inUnits (i : Interval) (unit : Int) : Interval :=
  let up := Nat.pow 10 (-unit).toNat
  { low := i.low * up
    value := i.value * up
    high := i.high * up
    denominator := i.denominator * Nat.pow 10 unit.toNat
    closed := i.closed }

def holds (i : Interval) (n : Nat) : Bool :=
  let n := n * i.denominator
  if i.closed then i.low ≤ n && n ≤ i.high else i.low < n && n < i.high

/-- The whole number in the interval that is next to its value: of two such neighbours the
    nearer one, and the upper one where both are as near. -/
def neighbour? (i : Interval) : Option Nat :=
  let down := i.value / i.denominator
  let rest := i.value % i.denominator
  let up := if rest = 0 then down else down + 1
  if i.holds down && (2 * rest < i.denominator || !i.holds up) then some down
  else if i.holds up then some up
  else none

/-- The number of digits before the decimal point; not positive below a tenth. -/
def magnitude (i : Interval) : Int :=
  let shift := Nat.log2 i.denominator
  ((Nat.toDigits 10 (i.value * Nat.pow 10 shift / i.denominator)).length : Int) - shift

def shortestFrom (i : Interval) (magnitude : Int) : (digits more : Nat) → Option Scaled
  | _, 0 => none
  | digits, more + 1 =>
    let unit := magnitude - digits
    match (i.inUnits unit).neighbour? with
    | some n => if n % 10 = 0 then some ⟨n / 10, unit + 1⟩ else some ⟨n, unit⟩
    | none => shortestFrom i magnitude (digits + 1) more

end Interval

/-- The fewest digits that read back as `mantissa * 2 ^ exponent`. Seventeen digits tell all
    words of up to sixty-four bits apart. -/
def shortest (mantissa : Nat) (exponent : Int) (lowest : Bool) : Scaled :=
  let interval := Interval.around mantissa exponent lowest
  (interval.shortestFrom interval.magnitude 1 17).getD ⟨0, 0⟩

end LoopLang.Decimal
