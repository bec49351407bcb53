import Mathlib

namespace LoopLang

theorem compare_trans {α : Type} [Ord α] [Std.TransOrd α] {a b c : α} {o : Ordering}
    (first : compare a b = o) (second : compare b c = o) : compare a c = o := by
  cases o with
  | lt => exact Std.TransCmp.lt_trans first second
  | eq => exact Std.TransCmp.eq_trans first second
  | gt => exact Std.TransCmp.gt_trans first second

namespace FloatOrder

open Float.Model (UnpackedFloat)

/-- Places are in the order of their ranks, and inside a rank in that of the other two numbers. -/
abbrev Line : Type := ℤ ×ₗ ℤ ×ₗ ℤ

def point (rank exponent mantissa : ℤ) : Line := toLex (rank, toLex (exponent, mantissa))

theorem compare_point (a b c x y z : ℤ) : compare (point a b c) (point x y z) =
    (compare a x).then ((compare b y).then (compare c z)) := by
  simp [point, Prod.Lex.compare_def, compareLex, compareOn]

/-- The infinities are outermost. Among negative numbers the greater exponent comes first. -/
def place? : UnpackedFloat → Option Line
  | .notANumber => none
  | .infinity .negative => some (point (-2) 0 0)
  | .finite .negative mantissa exponent _ => some (point (-1) (-exponent) (-mantissa))
  | .zero _ => some (point 0 0 0)
  | .finite .positive mantissa exponent _ => some (point 1 exponent mantissa)
  | .infinity .positive => some (point 2 0 0)

section Unpacked

variable {m n : ℕ} {d e : ℤ} {hm : 0 < m} {hn : 0 < n}

theorem compare_neg (a b : ℤ) : compare (-a) (-b) = compare b a := by
  simp [compare, compareOfLessAndEq, eq_comm]

theorem compare_natCast (a b : ℕ) : compare (a : ℤ) b = compare a b := by
  simp [compare, compareOfLessAndEq]

theorem compare_positive : UnpackedFloat.compare (.finite .positive m e hm)
    (.finite .positive n d hn) = some (compare (point 1 e m) (point 1 d n)) := by
  simp [compare_point, UnpackedFloat.compare, compare_natCast]

theorem compare_negative : UnpackedFloat.compare (.finite .negative m e hm)
    (.finite .negative n d hn) =
      some (compare (point (-1) (-e) (-m)) (point (-1) (-d) (-n))) := by
  have exponents : (compare e d).swap = compare d e := Std.OrientedOrd.eq_swap.symm
  have mantissas : (compare m n).swap = compare n m := Std.OrientedOrd.eq_swap.symm
  simp [compare_point, UnpackedFloat.compare, compare_neg, compare_natCast, Ordering.swap_then,
    exponents, mantissas]

theorem compare_eq_place? (x y : UnpackedFloat) :
    x.compare y = (place? x).bind fun p => (place? y).map (compare p) := by
  rcases x with s | _ | s | ⟨s, m, e, hm⟩ <;> rcases y with t | _ | t | ⟨t, n, d, hn⟩ <;>
    try cases s
  all_goals try cases t
  case finite.finite.positive.positive => exact compare_positive
  case finite.finite.negative.negative => exact compare_negative
  -- Everywhere else the ranks decide.
  all_goals rfl

end Unpacked

section Single

variable {x y z : Float32} {o : Ordering}

def spot? (x : Float32) : Option Line := place? x.toModel.unpack

/-- How two floats stand to each other, if both are numbers. -/
def standing? (x y : Float32) : Option Ordering :=
  (spot? x).bind fun p => (spot? y).map (compare p)

theorem beq_eq_standing? (x y : Float32) : (x == y) = (standing? x y == some .eq) := by
  change x.toModel.unpack.beq y.toModel.unpack = _
  rw [UnpackedFloat.beq, compare_eq_place?]
  rfl

-- Both zeros have one place, and what comes of dividing them has none.
example : standing? 0 (-0) = some .eq ∧ standing? 0 (0 / 0) = none := by decide

theorem lt_iff_standing? : x < y ↔ standing? x y = some .lt := by
  have unpacked : x < y ↔ x.toModel.unpack.lt y.toModel.unpack = true := decide_eq_true_iff
  rw [unpacked, UnpackedFloat.lt, compare_eq_place?, beq_iff_eq]
  rfl

theorem spot?_eq_none_iff : spot? x = none ↔ x.isNaN = true := by
  change place? x.toModel.unpack = none ↔ x.toModel.unpack.isNaN = true
  rcases x.toModel.unpack with sign | _ | sign | ⟨sign, m, e, hm⟩
  · cases sign <;> simp [place?, UnpackedFloat.isNaN]
  · simp [place?, UnpackedFloat.isNaN]
  · simp [place?, UnpackedFloat.isNaN]
  · cases sign <;> simp [place?, UnpackedFloat.isNaN]

theorem beq_self (x : Float32) : (x == x) = !x.isNaN := by
  rw [beq_eq_standing?, standing?]
  cases placed : spot? x with
  | none =>
    rw [spot?_eq_none_iff.mp placed]
    rfl
  | some p =>
    have number : x.isNaN = false := by
      rw [← Bool.not_eq_true, ← spot?_eq_none_iff, placed]
      nofun
    have level : compare p p = .eq := Std.ReflCmp.compare_self
    rw [number, Option.bind_some, Option.map_some, level]
    rfl

theorem standing?_eq_some_iff : standing? x y = some o ↔
    ∃ p q, spot? x = some p ∧ spot? y = some q ∧ compare p q = o := by
  simp [standing?, Option.bind_eq_some_iff, Option.map_eq_some_iff]

theorem exists_standing? (left : x.isNaN = false) (right : y.isNaN = false) :
    ∃ o, standing? x y = some o := by
  have placed : ∀ z : Float32, z.isNaN = false → ∃ p, spot? z = some p := by
    intro z number
    apply Option.ne_none_iff_exists'.mp
    rw [Ne, spot?_eq_none_iff, number]
    decide
  obtain ⟨p, hp⟩ := placed x left
  obtain ⟨q, hq⟩ := placed y right
  exact ⟨_, standing?_eq_some_iff.mpr ⟨p, q, hp, hq, rfl⟩⟩

theorem standing?_swap (h : standing? x y = some o) : standing? y x = some o.swap := by
  obtain ⟨p, q, hp, hq, rfl⟩ := standing?_eq_some_iff.mp h
  have turned : compare q p = (compare p q).swap := Std.OrientedOrd.eq_swap
  exact standing?_eq_some_iff.mpr ⟨q, p, hq, hp, turned⟩

theorem beq_comm (x y : Float32) : (x == y) = (y == x) := by
  have turned : ∀ {x y : Float32}, (x == y) = true → (y == x) = true := by
    intro x y same
    rw [beq_eq_standing?, beq_iff_eq] at same ⊢
    exact standing?_swap same
  exact Bool.eq_iff_iff.mpr ⟨turned, turned⟩

theorem standing?_trans (first : standing? x y = some o) (second : standing? y z = some o) :
    standing? x z = some o := by
  obtain ⟨p, q, hp, hq, compared⟩ := standing?_eq_some_iff.mp first
  obtain ⟨q', r, hq', hr, compared'⟩ := standing?_eq_some_iff.mp second
  have same : q' = q := Option.some.inj (hq'.symm.trans hq)
  subst same
  exact standing?_eq_some_iff.mpr ⟨p, r, hp, hr, compare_trans compared compared'⟩

end Single

end FloatOrder
end LoopLang
