import Mathlib.Tactic.Linarith
import Mathlib.Tactic.SplitIfs
import LoopLang.Arithmetic

namespace LoopLang

namespace MathOp

variable {a b : Int}

theorem fmod_bounds (a : Int) (nonzero : b ≠ 0) :
    (0 ≤ a.fmod b ∧ a.fmod b < b) ∨ (b < a.fmod b ∧ a.fmod b ≤ 0) := by
  rcases lt_or_gt_of_ne nonzero with neg | pos
  · have above := Int.fmod_nonneg_of_pos (-a) (neg_pos.mpr neg)
    have below := Int.fmod_lt_of_pos (-a) (neg_pos.mpr neg)
    rw [Int.neg_fmod_neg] at above below
    omega
  · exact .inl ⟨Int.fmod_nonneg_of_pos a pos, Int.fmod_lt_of_pos a pos⟩

/-- The only quotient as far above zero as a negative number is below it is that by -1. -/
theorem eq_neg_one_of_fdiv (neg : a < 0) (nonzero : b ≠ 0) (h : a.fdiv b = -a) : b = -1 := by
  have parts := Int.mul_fdiv_add_fmod a b
  rw [h] at parts
  rcases fmod_bounds a nonzero with ⟨_, below⟩ | ⟨above, _⟩
  · nlinarith
  · by_contra other
    have low : b ≤ -2 := by omega
    nlinarith

/-- Where truncation leaves a remainder of the other sign, the floor is one lower. -/
theorem fdiv_of_tdiv (nonzero : b ≠ 0) : a.fdiv b =
    if a.tmod b ≠ 0 ∧ ¬ (a < 0 ↔ b < 0) then a.tdiv b - 1 else a.tdiv b := by
  rw [Int.fdiv_eq_tdiv]
  by_cases divides : b ∣ a
  · have none_left := Int.tmod_eq_zero_of_dvd divides
    simp [divides, none_left]
  · have left := mt Int.dvd_of_tmod_eq_zero divides
    rcases lt_or_gt_of_ne nonzero with negative | positive
    · rw [Int.sign_eq_neg_one_of_neg negative]
      split_ifs <;> omega
    · rw [Int.sign_eq_one_of_pos positive]
      split_ifs <;> omega

theorem tmod_neg_iff (left : a.tmod b ≠ 0) : a.tmod b < 0 ↔ a < 0 := by
  rcases le_or_gt 0 a with above | below
  · have := Int.tmod_nonneg b above
    omega
  · have := Int.tmod_nonneg b (Int.neg_nonneg_of_nonpos below.le)
    rw [Int.neg_tmod] at this
    omega

theorem fmod_of_tmod (nonzero : b ≠ 0) : a.fmod b =
    if a.tmod b ≠ 0 ∧ ¬ (a.tmod b < 0 ↔ b < 0) then a.tmod b + b else a.tmod b := by
  rw [Int.fmod_def, fdiv_of_tdiv nonzero]
  have parts := Int.tmod_def a b
  by_cases left : a.tmod b = 0
  · simp [left]
    omega
  · simp only [tmod_neg_iff left]
    split_ifs
    · rw [Int.mul_sub]
      omega
    · omega

end MathOp

namespace Arithmetic

variable {a b v : Int}

theorem contains_wide_iff :
    Range.wide.contains v = true ↔ -2 ^ 127 ≤ v ∧ v ≤ 2 ^ 127 - 1 := Range.wide.contains_iff v

/-- The only quotient that is out of range is that of the lowest number by -1. -/
theorem contains_fdiv_iff (wide : Range.wide.contains a = true) (nonzero : b ≠ 0) :
    Range.wide.contains (a.fdiv b) = true ↔ ¬ (a = Range.wide.low ∧ b = -1) := by
  have near := Int.natAbs_fdiv_le_natAbs a b
  have low : Range.wide.low = -2 ^ 127 := rfl
  rw [contains_wide_iff] at wide ⊢
  rw [low]
  constructor
  · rintro fits ⟨rfl, rfl⟩
    exact absurd fits (by decide)
  · intro other
    by_contra outside
    have lowest : a = -2 ^ 127 := by omega
    have negative : a < 0 := by omega
    have opposite : a.fdiv b = -a := by omega
    exact other ⟨lowest, MathOp.eq_neg_one_of_fdiv negative nonzero opposite⟩

theorem contains_tdiv_iff (wide : Range.wide.contains a = true) (nonzero : b ≠ 0) :
    Range.wide.contains (a.tdiv b) = true ↔ Range.wide.contains (a.fdiv b) = true := by
  have near := Int.natAbs_fdiv_le_natAbs a b
  have floor := MathOp.fdiv_of_tdiv (a := a) nonzero
  split_ifs at floor with lowered
  · have below : a.fdiv b ≤ 0 := by
      rcases le_or_gt 0 a with above | negative
      · have negative : b ≤ 0 := by omega
        exact Int.fdiv_nonpos_of_nonneg_of_nonpos above negative
      · have positive : 0 < b := by omega
        exact (Int.fdiv_neg_of_neg_of_pos negative positive).le
    rw [contains_wide_iff] at wide
    rw [contains_wide_iff, contains_wide_iff]
    omega
  · rw [floor]

theorem contains_fmod (wide : Range.wide.contains b = true) (nonzero : b ≠ 0) :
    Range.wide.contains (a.fmod b) = true := by
  have bounds := MathOp.fmod_bounds a nonzero
  rw [contains_wide_iff] at wide ⊢
  omega

namespace Steps

theorem trust_eq (fits : Range.wide.contains v = true) : trust v = pure v := if_pos fits

theorem result_lift {α : Type} (found : Option α) : (liftM found : Steps α).result = found := by
  cases found <;> rfl

end Steps

/-- No step towards the floor of a quotient overflows. -/
theorem floorDivSteps_fdiv (wide : Range.wide.contains a = true) :
    floorDivSteps a b = liftM (if b = 0 then none else Range.wide.check (a.fdiv b)) := by
  rw [floorDivSteps, truncatedDiv]
  by_cases zero : b = 0
  · rw [if_pos zero, if_pos zero]
    rfl
  rw [if_neg zero, if_neg zero, Range.check, Range.check]
  have same := contains_tdiv_iff wide zero
  by_cases fits : Range.wide.contains (a.fdiv b) = true
  · have floor := MathOp.fdiv_of_tdiv (a := a) zero
    rw [if_pos fits, if_pos (same.mpr fits), Steps.trust_eq (same.mpr fits)]
    split_ifs at floor with lowered
    · change (if _ then _ else _) = _
      rw [if_pos lowered, ← floor, Steps.trust_eq fits]
      rfl
    · change (if _ then _ else _) = _
      rw [if_neg lowered, floor]
      rfl
  · rw [if_neg fits, if_neg (mt same.mp fits)]
    rfl

/-- No step towards a remainder overflows. There is one only where there is a quotient. -/
theorem floorModSteps_fmod (left : Range.wide.contains a = true)
    (right : Range.wide.contains b = true) : floorModSteps a b =
      liftM (if b = 0 then none else (Range.wide.check (a.fdiv b)).map fun _ => a.fmod b) := by
  rw [floorModSteps, truncatedMod, truncatedDiv]
  by_cases zero : b = 0
  · rw [if_pos zero, if_pos zero]
    rfl
  rw [if_neg zero, if_neg zero, Range.check, Range.check]
  have same := contains_tdiv_iff left zero
  by_cases fits : Range.wide.contains (a.fdiv b) = true
  · have floor := MathOp.fmod_of_tmod (a := a) zero
    rw [if_pos fits, if_pos (same.mpr fits)]
    split_ifs at floor with moved
    · change (if _ then _ else _) = _
      rw [if_pos moved, ← floor, Steps.trust_eq (contains_fmod right zero)]
      rfl
    · change (if _ then _ else _) = _
      rw [if_neg moved, ← floor]
      rfl
  · rw [if_neg fits, if_neg (mt same.mp fits)]
    rfl

theorem floorDiv_eq (wide : Range.wide.contains a = true) :
    floorDiv a b = if b = 0 then none else Range.wide.check (a.fdiv b) := by
  rw [floorDiv, floorDivSteps_fdiv wide, Steps.result_lift]

theorem floorMod_eq (left : Range.wide.contains a = true) (right : Range.wide.contains b = true) :
    floorMod a b =
      if b = 0 then none else (Range.wide.check (a.fdiv b)).map fun _ => a.fmod b := by
  rw [floorMod, floorModSteps_fmod left right, Steps.result_lift]

theorem floorDivSteps_eq (wide : Range.wide.contains a = true) :
    floorDivSteps a b = liftM (floorDiv a b) := by
  rw [floorDiv_eq wide, floorDivSteps_fdiv wide]

theorem floorModSteps_eq (left : Range.wide.contains a = true)
    (right : Range.wide.contains b = true) : floorModSteps a b = liftM (floorMod a b) := by
  rw [floorMod_eq left right, floorModSteps_fmod left right]

end Arithmetic
end LoopLang
