namespace LoopLang.Decimal

/-- The parts of a binary floating point word. A finite number is `mantissa * 2 ^ exponent`;
    `lowest` says that its mantissa is the least normal one, so that the number below it is
    nearer than the number above it. -/
inductive Binary where
  | nan
  | infinite (negative : Bool)
  | finite (negative : Bool) (mantissa : Nat) (exponent : Int) (lowest : Bool)
  deriving DecidableEq, Repr

namespace Binary

structure Layout where
  exponentBits : Nat
  fractionBits : Nat
  deriving DecidableEq, Repr

def binary32 : Layout := ⟨8, 23⟩

def binary64 : Layout := ⟨11, 52⟩

namespace Layout

def leastExponent (l : Layout) : Int :=
  2 - (Nat.pow 2 (l.exponentBits - 1) : Int) - (l.fractionBits : Int)

end Layout

def ofBits (l : Layout) (bits : Nat) : Binary :=
  let fraction := bits % Nat.pow 2 l.fractionBits
  let field := bits / Nat.pow 2 l.fractionBits % Nat.pow 2 l.exponentBits
  let negative := bits / Nat.pow 2 (l.fractionBits + l.exponentBits) % 2 == 1
  if field = Nat.pow 2 l.exponentBits - 1 then
    if fraction = 0 then .infinite negative else .nan
  else if field = 0 then .finite negative fraction l.leastExponent false
  else
    .finite negative (Nat.pow 2 l.fractionBits + fraction) (l.leastExponent + (field - 1))
      (fraction == 0)

def ofFloat32 (x : Float32) : Binary := ofBits binary32 x.toBits.toNat

def ofFloat (x : Float) : Binary := ofBits binary64 x.toBits.toNat

/-- The word of `mantissa * 2 ^ exponent` for a mantissa below `2 ^ (fractionBits + 1)`. A number
    that the layout holds is represented exactly. -/
def toBits (l : Layout) (negative : Bool) (mantissa : Nat) (exponent : Int) : Nat :=
  let sign := if negative then Nat.pow 2 (l.fractionBits + l.exponentBits) else 0
  if mantissa = 0 then sign
  else
    let room := l.fractionBits - Nat.log2 mantissa
    let shift := min room (exponent - l.leastExponent).toNat
    let mantissa := mantissa <<< shift
    let field := (exponent - shift - l.leastExponent).toNat + 1
    if mantissa < Nat.pow 2 l.fractionBits then sign + mantissa
    else sign + field * Nat.pow 2 l.fractionBits + (mantissa - Nat.pow 2 l.fractionBits)

def toFloat32 (negative : Bool) (mantissa : Nat) (exponent : Int) : Float32 :=
  Float32.ofBits (UInt32.ofNat (toBits binary32 negative mantissa exponent))

end Binary
end LoopLang.Decimal
