import LoopLang.Proofs.Value.Exact

namespace LoopLang

namespace MathOp

variable {op : MathOp} {a b v : Int}

/-- The mathematical results of an operation. A quotient is rounded toward negative infinity; a
    remainder is what that quotient leaves, nearer to zero than the divisor and of its sign. -/
def Yields (op : MathOp) (a b v : Int) : Prop :=
  match op with
  | add => v = a + b
  | subtract => v = a - b
  | multiply => v = a * b
  | divide => b ≠ 0 ∧ v = ⌊(a : ℚ) / b⌋
  | modulo => b ≠ 0 ∧ a = b * ⌊(a : ℚ) / b⌋ + v ∧ |v| < |b| ∧ (v = 0 ∨ v.sign = b.sign)

theorem modulo_shape (a : Int) (nonzero : b ≠ 0) :
    |modulo.exact a b| < |b| ∧ (modulo.exact a b = 0 ∨ (modulo.exact a b).sign = b.sign) := by
  rw [exact_modulo]
  rcases fmod_bounds a nonzero with ⟨low, high⟩ | ⟨low, high⟩
  · have positive : 0 < b := by omega
    rw [abs_of_nonneg low, abs_of_pos positive, Int.sign_eq_one_of_pos positive]
    refine ⟨high, low.eq_or_lt.imp Eq.symm fun above => Int.sign_eq_one_of_pos above⟩
  · have negative : b < 0 := by omega
    rw [abs_of_nonpos high, abs_of_neg negative, Int.sign_eq_neg_one_of_neg negative]
    refine ⟨by omega, high.eq_or_lt.imp id fun below => Int.sign_eq_neg_one_of_neg below⟩

theorem yields_iff : op.Yields a b v ↔ (op.isDivision = true → b ≠ 0) ∧ v = op.exact a b := by
  cases op with
  | add | subtract | multiply => simp [Yields, isDivision, exact]
  | divide => simp [Yields, isDivision, exact]
  | modulo =>
    have defined : modulo.exact a b = a - b * ⌊(a : ℚ) / b⌋ := rfl
    constructor
    · rintro ⟨nonzero, parts, _⟩
      exact ⟨fun _ => nonzero, by omega⟩
    · rintro ⟨nonzero, rfl⟩
      exact ⟨nonzero rfl, by omega, modulo_shape a (nonzero rfl)⟩

end MathOp

namespace Arithmetic

variable {op : MathOp} {a b v : Int}

theorem floorMod_eq_none_iff (left : Range.wide.contains a = true)
    (right : Range.wide.contains b = true) :
    floorMod a b = none ↔ b = 0 ∨ a = Range.wide.low ∧ b = -1 := by
  rw [floorMod_eq left right]
  by_cases zero : b = 0
  · simp [zero]
  · rw [if_neg zero, Option.map_eq_none_iff, Range.check, ← not_iff_not, not_or,
      ← contains_fdiv_iff left zero]
    simp [zero]

theorem onInts_eq_some_iff (left : Range.wide.contains a = true)
    (right : Range.wide.contains b = true) : onInts op a b = some v ↔
      op.Yields a b v ∧ Range.wide.contains v = true ∧
        ¬ (op = .modulo ∧ a = Range.wide.low ∧ b = -1) := by
  have checked : ∀ w : Int, Range.wide.check w = some v ↔
      v = w ∧ Range.wide.contains v = true := by
    intro w
    rw [Range.check_eq_some_iff, Range.contains_iff]
    constructor
    · rintro ⟨rfl, fits⟩
      exact ⟨rfl, fits⟩
    · rintro ⟨rfl, fits⟩
      exact ⟨rfl, fits⟩
  rw [MathOp.yields_iff]
  cases op with
  | add | subtract | multiply => simp [onInts, checked, MathOp.isDivision, MathOp.exact]
  | divide =>
    by_cases zero : b = 0
    · simp [onInts, floorDiv_eq left, zero, MathOp.isDivision]
    · simp [onInts, floorDiv_eq left, zero, checked, MathOp.exact_divide]
  | modulo =>
    by_cases missing : b = 0 ∨ a = Range.wide.low ∧ b = -1
    · rw [onInts, (floorMod_eq_none_iff left right).mpr missing]
      simp only [reduceCtorEq, false_iff]
      rintro ⟨⟨nonzero, _⟩, _, other⟩
      exact missing.elim (nonzero rfl) fun lowest => other ⟨trivial, lowest⟩
    · obtain ⟨nonzero, other⟩ := not_or.mp missing
      have fits := (contains_fdiv_iff left nonzero).mpr other
      rw [onInts, floorMod_eq left right, if_neg nonzero, Range.check, if_pos fits,
        MathOp.exact_modulo]
      constructor
      · rintro ⟨⟩
        exact ⟨⟨fun _ => nonzero, rfl⟩, contains_fmod right nonzero, fun lowest => other lowest.2⟩
      · rintro ⟨⟨_, rfl⟩, _⟩
        rfl

/-- Over the whole wide range an operation has just the mathematical results that are in range, but
    for one: the lowest number has no remainder by -1. No step of truncating division and its
    corrections overflows. -/
theorem exact_but_lowest (left : Range.wide.contains a = true)
    (right : Range.wide.contains b = true) :
    (∀ op v, onInts op a b = some v ↔ op.Yields a b v ∧ Range.wide.contains v = true ∧
      ¬ (op = .modulo ∧ a = Range.wide.low ∧ b = -1)) ∧
    (floorMod a b = none ↔ b = 0 ∨ a = Range.wide.low ∧ b = -1) ∧
    floorDivSteps a b = liftM (floorDiv a b) ∧ floorModSteps a b = liftM (floorMod a b) :=
  ⟨fun _ _ => onInts_eq_some_iff left right, floorMod_eq_none_iff left right, floorDivSteps_eq left,
    floorModSteps_eq left right⟩

theorem exact_at_lowest : Range.wide.contains Range.wide.low = true ∧
    Range.wide.contains (-3) = true ∧
    (∀ op v, onInts op Range.wide.low (-3) = some v ↔
      op.Yields Range.wide.low (-3) v ∧ Range.wide.contains v = true ∧
        ¬ (op = .modulo ∧ Range.wide.low = Range.wide.low ∧ (-3 : Int) = -1)) ∧
    (floorMod Range.wide.low (-3) = none ↔
      (-3 : Int) = 0 ∨ Range.wide.low = Range.wide.low ∧ (-3 : Int) = -1) ∧
    floorDivSteps Range.wide.low (-3) = liftM (floorDiv Range.wide.low (-3)) ∧
    floorModSteps Range.wide.low (-3) = liftM (floorMod Range.wide.low (-3)) :=
  ⟨by decide, by decide, exact_but_lowest (by decide) (by decide)⟩

/-- The remainder that is missing would be zero. -/
theorem lowest_modulo_missing : Range.wide.contains Range.wide.low = true ∧
    Range.wide.contains (-1) = true ∧ MathOp.modulo.Yields Range.wide.low (-1) 0 ∧
    Range.wide.contains 0 = true ∧ onInts .modulo Range.wide.low (-1) = none ∧
    floorMod Range.wide.low (-1) = none := by
  refine ⟨by decide, by decide, MathOp.yields_iff.mpr ⟨fun _ => by decide, ?_⟩, by decide,
    by decide, by decide⟩
  rw [MathOp.exact_modulo]
  decide

end Arithmetic
end LoopLang
