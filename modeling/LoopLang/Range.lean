namespace LoopLang

/-- The integers from `low` to `high`, both included. -/
structure Range where
  low : Int
  high : Int
  deriving DecidableEq, Repr

namespace Range

def contains (r : Range) (v : Int) : Bool := r.low ≤ v && v ≤ r.high

theorem contains_iff (r : Range) (v : Int) : r.contains v = true ↔ r.low ≤ v ∧ v ≤ r.high := by
  simp [contains]

def signed (bits : Nat) : Range := ⟨-(Nat.pow 2 (bits - 1)), Nat.pow 2 (bits - 1) - 1⟩

def unsigned (bits : Nat) : Range := ⟨0, Nat.pow 2 bits - 1⟩

/-- The range in which integers are written and computed, before any narrower type applies. -/
def wide : Range := signed 128

def check (r : Range) (v : Int) : Option Int := if r.contains v then some v else none

theorem check_eq_some_iff (r : Range) (v w : Int) :
    r.check v = some w ↔ v = w ∧ r.low ≤ v ∧ v ≤ r.high := by
  by_cases h : r.contains v = true
  · have bounds := (r.contains_iff v).1 h
    simp [check, h, bounds]
  · have bounds : ¬ (r.low ≤ v ∧ v ≤ r.high) := fun b => h ((r.contains_iff v).2 b)
    simp [check, h, bounds]

end Range
end LoopLang
