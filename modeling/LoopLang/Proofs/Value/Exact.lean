import Mathlib.Data.Rat.Floor
import LoopLang.Proofs.Value.Operations
import LoopLang.Proofs.Value.Quotients

namespace LoopLang

namespace MathOp

def exact (op : MathOp) (a b : Int) : Int :=
  match op with
  | add => a + b
  | subtract => a - b
  | multiply => a * b
  | divide => ⌊(a : ℚ) / b⌋
  | modulo => a - b * ⌊(a : ℚ) / b⌋

variable {a b : Int}

theorem floor_eq_fdiv (a b : Int) : ⌊(a : ℚ) / b⌋ = a.fdiv b := by
  have of_natCast : ∀ (a : Int) (n : Nat), ⌊(a : ℚ) / ((n : Int) : ℚ)⌋ = a.fdiv n := by
    intro a n
    rw [Int.fdiv_eq_ediv_of_nonneg a (Int.natCast_nonneg n)]
    exact Rat.floor_intCast_div_natCast a n
  rcases b.eq_nat_or_neg with ⟨n, rfl | rfl⟩
  · exact of_natCast a n
  · have negated := of_natCast (-a) n
    rw [← Int.neg_fdiv_neg, neg_neg] at negated
    rw [← negated]
    push_cast
    rw [neg_div, div_neg]

theorem exact_divide (a b : Int) : divide.exact a b = a.fdiv b := floor_eq_fdiv a b

theorem exact_modulo (a b : Int) : modulo.exact a b = a.fmod b := by
  rw [Int.fmod_def, ← floor_eq_fdiv]
  rfl

end MathOp

namespace IntTy

variable {t s u : IntTy} {a b : Int}

theorem range_bounds (t : IntTy) : -2 ^ 63 ≤ t.range.low ∧ t.range.high < 2 ^ 64 := by
  cases t <;> decide

/-- An unsigned type begins with zero; a signed one holds one more number below zero than above. -/
theorem range_shape (t : IntTy) : 0 ≤ t.range.high ∧
    (t.isSigned = false ∧ t.range.low = 0 ∨
      t.isSigned = true ∧ t.range.low < 0 ∧ t.range.high = -t.range.low - 1) := by
  cases t <;> decide

theorem bounds_of_fits (fits : t.fits a = true) : -2 ^ 63 ≤ a ∧ a < 2 ^ 64 := by
  have range := t.range_bounds
  rw [fits_iff] at fits
  omega

theorem fits_of_ofLiteral? (narrowest : ofLiteral? a = some t) : t.fits a = true := by
  unfold ofLiteral? at narrowest
  have fits := List.find?_some narrowest
  exact fits

theorem wide_of_fits (fits : t.fits a = true) : Range.wide.contains a = true := by
  have bounds := bounds_of_fits fits
  rw [Arithmetic.contains_wide_iff]
  omega

theorem ofLiteral?_eq_none_iff : ofLiteral? a = none ↔ ∀ t : IntTy, ¬ t.fits a = true := by
  unfold ofLiteral? candidates
  constructor
  · intro refused t fits
    have bounds := bounds_of_fits fits
    split at refused
    · have widest := List.find?_eq_none.mp refused u64 (by decide)
      rw [fits_iff] at widest
      change ¬ (0 ≤ a ∧ a ≤ 2 ^ 64 - 1) at widest
      omega
    · have widest := List.find?_eq_none.mp refused i64 (by decide)
      rw [fits_iff] at widest
      change ¬ (-2 ^ 63 ≤ a ∧ a ≤ 2 ^ 63 - 1) at widest
      omega
  · intro refused
    exact List.find?_eq_none.mpr fun t _ => refused t

theorem fits_modulo (a : Int) (nonzero : b ≠ 0) (fits : t.fits b = true) :
    t.fits (MathOp.modulo.exact a b) = true := by
  have shape := t.range_shape
  have bounds := MathOp.fmod_bounds a nonzero
  rw [MathOp.exact_modulo]
  rw [fits_iff] at fits ⊢
  omega

theorem overflow_of_divide (nonzero : b ≠ 0) (left : t.fits a = true) (right : t.fits b = true)
    (overflow : ¬ t.fits (MathOp.divide.exact a b) = true) : a = t.range.low ∧ b = -1 := by
  have near := Int.natAbs_fdiv_le_natAbs a b
  rw [MathOp.exact_divide] at overflow
  rw [fits_iff] at left right overflow
  obtain ⟨_, ⟨_, unsigned⟩ | ⟨_, signed, symmetric⟩⟩ := t.range_shape
  · have above : 0 ≤ a.fdiv b := Int.fdiv_nonneg (by omega) (by omega)
    omega
  · have lowest : a = t.range.low := by omega
    have opposite : a.fdiv b = -a := by omega
    exact ⟨lowest, MathOp.eq_neg_one_of_fdiv (by omega) nonzero opposite⟩

theorem fits_neg_iff (signed : t.isSigned = true) (fits : t.fits a = true) :
    t.fits (-a) = true ↔ a ≠ t.range.low := by
  have shape := t.range_shape
  rw [signed] at shape
  rw [fits_iff] at fits ⊢
  simp only [Bool.true_eq_false, false_and, false_or, true_and] at shape
  omega

end IntTy

namespace Arithmetic

variable {op : MathOp} {s u : IntTy} {a b : Int}

/-- What is computed on numbers of some types is exact, unless it is out of the wide range. -/
theorem onInts_eq_check (left : s.fits a = true) (right : u.fits b = true)
    (allowed : ¬ (op.isDivision = true ∧ b = 0)) :
    onInts op a b = Range.wide.check (op.exact a b) := by
  have wide := IntTy.wide_of_fits left
  have divides (nonzero : b ≠ 0) : Range.wide.contains (a.fdiv b) = true := by
    refine (contains_fdiv_iff wide nonzero).mpr ?_
    rintro ⟨rfl, _⟩
    exact absurd (IntTy.bounds_of_fits left).1 (by decide)
  cases op with
  | add | subtract | multiply => rfl
  | divide =>
    have nonzero : b ≠ 0 := fun zero => allowed ⟨rfl, zero⟩
    rw [MathOp.exact_divide, onInts, floorDiv_eq wide, if_neg nonzero]
  | modulo =>
    have nonzero : b ≠ 0 := fun zero => allowed ⟨rfl, zero⟩
    have rest := IntTy.wide_of_fits (IntTy.fits_modulo a nonzero right)
    rw [MathOp.exact_modulo] at rest ⊢
    rw [onInts, floorMod_eq wide (IntTy.wide_of_fits right), if_neg nonzero, Range.check,
      if_pos (divides nonzero), Range.check, if_pos rest]
    rfl

end Arithmetic

namespace Constant

variable {op : MathOp} {s u : IntTy} {a b : Int}

theorem fold_ints (left : s.fits a = true) (right : u.fits b = true) :
    (int a).fold op (int b) =
      if op.isDivision ∧ b = 0 then .error .divisionByZero
      else if Range.wide.contains (op.exact a b) then .ok (some (int (op.exact a b)))
      else .error (.overflow op a b) := by
  rw [fold]
  by_cases zero : op.isDivision = true ∧ b = 0
  · have refused : (op.isDivision && b == 0) = true := by simp [zero]
    rw [if_pos refused, if_pos zero]
  · have allowed : ¬ (op.isDivision && b == 0) = true := by simpa using zero
    rw [if_neg allowed, if_neg zero, Arithmetic.onInts_eq_check left right zero, Range.check]
    split_ifs <;> rfl

end Constant

namespace Program

theorem integerResult_check (t : IntTy) (operation : Operation) (position : Position) (v : Int) :
    integerResult t operation position (Range.wide.check v) =
      if t.fits v then .ok (.int v t)
      else .error (.runtime (.integerOverflow operation t position)) := by
  by_cases wide : Range.wide.contains v = true
  · rw [Range.check, if_pos wide]
    rfl
  · have exceeds : ¬ t.fits v = true := fun fits => wide (IntTy.wide_of_fits fits)
    rw [Range.check, if_neg wide, if_neg exceeds]
    rfl

variable {p : Program} {node : Node} {t s u : IntTy} {a b : Int}

theorem math_ints (op : MathOp) (noted : p.types[node.id]? = some (.int t))
    (left : s.fits a = true) (right : u.fits b = true) :
    p.math node op (.int a s) (.int b u) =
      if op.isDivision ∧ b = 0 then
        .error (.runtime (.divisionByZero (.ints op a b) node.position))
      else if t.fits (op.exact a b) then .ok (.int (op.exact a b) t)
      else .error (.runtime (.integerOverflow (.ints op a b) t node.position)) := by
  rw [math, integerTypeOf_eq noted]
  by_cases zero : op.isDivision = true ∧ b = 0
  · have refused : (op.isDivision && b == 0) = true := by simp [zero]
    rw [if_pos zero]
    change (if _ then _ else _) = _
    rw [if_pos refused]
    rfl
  · have allowed : ¬ (op.isDivision && b == 0) = true := by simpa using zero
    rw [if_neg zero]
    change (if _ then _ else _) = _
    rw [if_neg allowed, Arithmetic.onInts_eq_check left right zero, integerResult_check]

theorem negate_int (noted : p.types[node.id]? = some (.int t)) (fits : t.fits a = true)
    (signed : t.isSigned = true) :
    p.unary node .negate (.int a s) =
      if a = t.range.low then
        .error (.runtime (.integerOverflow (.negation a) t node.position))
      else .ok (.int (-a) t) := by
  have exists_iff := IntTy.fits_neg_iff signed fits
  rw [unary, integerTypeOf_eq noted]
  change integerResult t (.negation a) node.position (Range.wide.check (-a)) = _
  rw [integerResult_check]
  by_cases lowest : a = t.range.low
  · rw [if_pos lowest, if_neg (mt exists_iff.mp (not_not_intro lowest))]
  · rw [if_neg lowest, if_pos (exists_iff.mpr lowest)]

end Program
end LoopLang
