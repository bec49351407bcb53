import LoopLang.Decimal.Shortest

namespace LoopLang.Decimal

/-- Digits and a point, never an exponent: zeros fill the places between them. -/
def Scaled.positional (s : Scaled) : String :=
  let digits := Nat.toDigits 10 s.digits
  let places := (-s.exponent).toNat
  if places = 0 then String.ofList (digits ++ List.replicate s.exponent.toNat '0')
  else
    let digits := List.replicate (places + 1 - digits.length) '0' ++ digits
    let whole := digits.length - places
    String.ofList (digits.take whole ++ '.' :: digits.drop whole)

namespace Binary

def whole? (mantissa : Nat) (exponent : Int) : Option Nat :=
  let unit := Nat.pow 2 (-exponent).toNat
  if mantissa % unit = 0 then some (mantissa / unit * Nat.pow 2 exponent.toNat) else none

def plain : Binary → String
  | .nan => "NaN"
  | .infinite negative => if negative then "-inf" else "inf"
  | .finite negative mantissa exponent lowest =>
    let digits :=
      if mantissa = 0 then "0" else (shortest mantissa exponent lowest).positional
    if negative then "-" ++ digits else digits

def onePlaceBound : Nat := Nat.pow 10 16

/-- As `plain`, but whole numbers below the bound have all their digits and end in `.0`. -/
def pointed : Binary → String
  | .finite negative mantissa exponent lowest =>
    match whole? mantissa exponent with
    | some n =>
      if n < onePlaceBound then (if negative then "-" else "") ++ toString n ++ ".0"
      else plain (.finite negative mantissa exponent lowest)
    | none => plain (.finite negative mantissa exponent lowest)
  | other => plain other

end Binary

def printed (x : Float32) : String := (Binary.ofFloat32 x).pointed

def plain (x : Float32) : String := (Binary.ofFloat32 x).plain

def literal (x : Float) : String := (Binary.ofFloat x).plain

end LoopLang.Decimal
