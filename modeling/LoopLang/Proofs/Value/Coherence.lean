import LoopLang.Proofs.Value.Equality
import LoopLang.Proofs.Value.Operations

namespace LoopLang

namespace CompareOp

def tells : CompareOp → Ordering → Bool
  | equal => Ordering.isEq
  | notEqual => Ordering.isNe
  | less => Ordering.isLT
  | lessEqual => Ordering.isLE
  | greater => Ordering.isGT
  | greaterEqual => Ordering.isGE

/-- The three strict ways to stand exclude each other, and the other comparisons deny one. -/
theorem tells_one (o : Ordering) : [less, equal, greater].countP (·.tells o) = 1 ∧
    notEqual.tells o = !equal.tells o ∧ lessEqual.tells o = !greater.tells o ∧
    greaterEqual.tells o = !less.tells o := by
  cases o <;> decide

end CompareOp

namespace Value

variable {a a' b b' c : Value} {o : Ordering} {standing : Option Ordering}

/-- How the first value stands to the second one is what all comparisons tell of. -/
def Stands (a b : Value) (o : Ordering) : Prop :=
  ∀ (op : CompareOp) (position : Position), op.apply a b position = .ok (.bool (op.tells o))

section Order

theorem order?_float (x y : Float32) :
    (float x).order? (float y) = some (FloatOrder.standing? x y) := by
  have turned : FloatOrder.standing? y x = some .lt ↔ FloatOrder.standing? x y = some .gt :=
    ⟨FloatOrder.standing?_swap, FloatOrder.standing?_swap⟩
  simp only [order?, FloatOrder.beq_eq_standing?, FloatOrder.lt_iff_standing?, turned]
  cases FloatOrder.standing? x y with
  | none => rfl
  | some o => cases o <;> rfl

inductive Ranked : Value → Value → Option Ordering → Prop where
  | ints {i j s t} : Ranked (.int i s) (.int j t) (some (compare i j))
  | floats {x y} : Ranked (.float x) (.float y) (FloatOrder.standing? x y)
  | chars {x y} : Ranked (.char x) (.char y) (some (compare x y))
  | strings {x y} : Ranked (.string x) (.string y) (some (compare x y))

theorem ranked_of_order? (found : a.order? b = some standing) : Ranked a b standing := by
  cases a with
  | int =>
    cases b with
    | int =>
      cases found
      exact .ints
    | _ => cases found
  | float =>
    cases b with
    | float =>
      rw [order?_float] at found
      cases found
      exact .floats
    | _ => cases found
  | char =>
    cases b with
    | char =>
      cases found
      exact .chars
    | _ => cases found
  | string =>
    cases b with
    | string =>
      cases found
      exact .strings
    | _ => cases found
  | _ => cases b <;> cases found

/-- Only NaN keeps values with an order from standing in one of the three ways. -/
theorem Ranked.exists_ordering (ranked : Ranked a b standing) (left : ¬a.HasNaN)
    (right : ¬b.HasNaN) : ∃ o, standing = some o := by
  cases ranked with
  | @floats x y =>
    apply FloatOrder.exists_standing?
    · exact Bool.eq_false_iff.mpr fun nan => left (.float nan)
    · exact Bool.eq_false_iff.mpr fun nan => right (.float nan)
  | ints | chars | strings => exact ⟨_, rfl⟩

theorem Ranked.equals_eq (ranked : Ranked a b standing) :
    a.equals b = (standing == some .eq) := by
  cases ranked with
  | floats => exact FloatOrder.beq_eq_standing? _ _
  | ints | chars | strings =>
    rw [equals, Bool.eq_iff_iff, beq_iff_eq, beq_iff_eq, Option.some.injEq]
    exact Std.LawfulEqCmp.compare_eq_iff_eq.symm

theorem Ranked.swap (ranked : Ranked a b standing) (stands : standing = some o) :
    b.order? a = some (some o.swap) := by
  cases ranked with
  | floats => rw [order?_float, FloatOrder.standing?_swap stands]
  | ints | chars | strings =>
    cases stands
    rw [order?, Std.OrientedOrd.eq_swap]

theorem Ranked.trans {standing' : Option Ordering} (first : Ranked a b standing)
    (second : Ranked b c standing') (stands : standing = some o) (stands' : standing' = some o) :
    a.order? c = some (some o) := by
  cases first with
  | floats =>
    cases second
    rw [order?_float, FloatOrder.standing?_trans stands stands']
  | ints | chars | strings =>
    cases second
    rw [order?, compare_trans (Option.some.inj stands) (Option.some.inj stands')]

theorem stands_of_order? (found : a.order? b = some (some o)) : a.Stands b o := by
  have same := (ranked_of_order? found).equals_eq
  intro op position
  cases op with
  | equal | notEqual =>
    rw [CompareOp.apply, same]
    cases o <;> rfl
  | less | lessEqual | greater | greaterEqual =>
    simp only [CompareOp.apply, found]
    cases o <;> rfl

theorem less_eq_true_iff {position : Position} :
    CompareOp.less.apply a b position = .ok (.bool true) ↔ a.order? b = some (some .lt) := by
  unfold CompareOp.apply
  cases a.order? b with
  | none => simp
  | some standing => simp [CompareOp.holds]

end Order

section Alike

theorem Alike.order?_eq (left : a.Alike a') (right : b.Alike b') :
    a.order? b = a'.order? b' := by
  have on_left : a.order? b = a'.order? b := by
    cases left with
    | same => rfl
    | _ => cases b <;> rfl
  have on_right : a'.order? b = a'.order? b' := by
    cases right with
    | same => rfl
    | _ => cases a' <;> rfl
  exact on_left.trans on_right

/-- What a comparison answers, it answers about all values that are like the compared ones. -/
theorem Alike.apply_eq_ok {op : CompareOp} {position : Position} {answer : Value}
    (left : a.Alike a') (right : b.Alike b') (answered : op.apply a b position = .ok answer) :
    op.apply a' b' position = .ok answer := by
  have equal := left.equals_eq right
  have ordered := left.order?_eq right
  cases op with
  | equal | notEqual => rwa [CompareOp.apply, ← equal]
  | less | lessEqual | greater | greaterEqual =>
    simp only [CompareOp.apply, ordered] at answered ⊢
    cases found : a'.order? b' with
    | none => simp [found] at answered
    | some standing => simpa [found] using answered

end Alike

section Admitted

variable {g : Globals} {l r type : Ty} {op : CompareOp}

theorem HasType.stands (left : a.HasType g l) (right : b.HasType g r)
    (ordering : op.isOrdering = true) (admitted : Ty.ofCompare op l r = .ok type)
    (numbers : ¬a.HasNaN ∧ ¬b.HasNaN) : ∃ o, a.Stands b o ∧ b.Stands a o.swap := by
  obtain ⟨_, common, meets, ordered⟩ := Ty.ofCompare_eq_ok_iff.mp admitted
  obtain ⟨standing, found⟩ := CompareOp.order?_isSome left right meets (ordered ordering)
  have ranked := ranked_of_order? found
  obtain ⟨o, rfl⟩ := ranked.exists_ordering numbers.1 numbers.2
  exact ⟨o, stands_of_order? found, stands_of_order? (ranked.swap rfl)⟩

end Admitted

/-- Equality is symmetric, transitive, and reflexive where there is no NaN. It answers the same about
coerced values, and so does every comparison about all values that are alike. Where the checker lets
a program order two values, and neither of them is NaN, all comparisons tell of one way to stand,
which for integers of any two types is that of the numbers. Less is transitive. -/
theorem comparisons_cohere (g : Globals) :
    (∀ a b : Value, a.Distinct → b.Distinct → a.equals b = b.equals a) ∧
    (∀ a b c : Value, a.Distinct → a.equals b = true → b.equals c = true → a.equals c = true) ∧
    (∀ a : Value, a.Distinct → (a.equals a = true ↔ ¬a.HasNaN)) ∧
    (∀ (a b : Value) (t u : Ty), a.Alike (a.coerce t) ∧
      (a.coerce t).equals (b.coerce u) = a.equals b) ∧
    (∀ (a a' b b' : Value), a.Alike a' → b.Alike b' →
      ∀ (op : CompareOp) (position : Position) (answer : Value),
        op.apply a b position = .ok answer ↔ op.apply a' b' position = .ok answer) ∧
    (∀ (a b : Value) (l r type : Ty) (op : CompareOp), a.HasType g l → b.HasType g r →
      op.isOrdering = true → Ty.ofCompare op l r = .ok type → ¬a.HasNaN ∧ ¬b.HasNaN →
      ∃ o, a.Stands b o ∧ b.Stands a o.swap) ∧
    (∀ o : Ordering, [CompareOp.less, .equal, .greater].countP (·.tells o) = 1 ∧
      CompareOp.notEqual.tells o = !CompareOp.equal.tells o ∧
      CompareOp.lessEqual.tells o = !CompareOp.greater.tells o ∧
      CompareOp.greaterEqual.tells o = !CompareOp.less.tells o) ∧
    (∀ (a b c : Value) (position : Position),
      CompareOp.less.apply a b position = .ok (.bool true) →
      CompareOp.less.apply b c position = .ok (.bool true) →
      CompareOp.less.apply a c position = .ok (.bool true)) ∧
    ∀ (i j : Int) (s t : IntTy), (int i s).Stands (int j t) (compare i j) := by
  refine ⟨?symmetric, ?transitive, ?reflexive, ?coerced, ?alike, ?ordered, CompareOp.tells_one,
    ?less, fun i j s t => stands_of_order? rfl⟩
  case symmetric => exact fun a b ha hb => ha.equals_comm hb
  case transitive => exact fun a b c ha first second => ha.equals_trans first second
  case reflexive => exact fun a ha => ha.equals_self_iff
  case coerced =>
    intro a b t u
    have left := alike_coerce a t
    exact ⟨left, (left.equals_eq (alike_coerce b u)).symm⟩
  case alike =>
    intro a a' b b' left right op position answer
    exact ⟨left.apply_eq_ok right, left.symm.apply_eq_ok right.symm⟩
  case ordered =>
    exact fun a b l r type op left right ordering admitted => left.stands right ordering admitted
  case less =>
    intro a b c position first second
    rw [less_eq_true_iff] at first second ⊢
    exact (ranked_of_order? first).trans (ranked_of_order? second) rfl rfl

def tally (t : IntTy) : List (String × Value) :=
  [("label", .string "a"), ("counts", .array (.int t) [.int 5 t, .int 200 t])]

theorem distinct_tally (t : IntTy) : (Value.struct "Tally" (tally t)).Distinct ∧
    (Value.struct "Tally" (tally t).reverse).Distinct := by
  have members : ∀ key v, (key, v) ∈ tally t → v.Distinct := by
    intro key v member
    simp only [tally, List.mem_cons, List.not_mem_nil, or_false, Prod.mk.injEq] at member
    rcases member with ⟨_, rfl⟩ | ⟨_, rfl⟩
    · exact .string
    · exact .array (by simp [Distinct.int])
  constructor
  · exact .struct (by simp [tally]) members
  · exact .struct (by simp [tally]) fun key v member => members key v (List.mem_reverse.mp member)

theorem alike_tally (s t : IntTy) :
    (Value.struct "Tally" (tally s)).Alike (.struct "Tally" (tally t).reverse) := by
  apply Alike.struct
  · exact .swap _ _ _
  · intro key v w left right
    simp only [tally, List.mem_reverse, List.mem_cons, List.not_mem_nil, or_false,
      Prod.mk.injEq] at left right
    rcases left with ⟨rfl, rfl⟩ | ⟨rfl, rfl⟩
    · rcases right with ⟨_, rfl⟩ | ⟨other, _⟩
      · exact .same
      · exact absurd other (by decide)
    · rcases right with ⟨other, _⟩ | ⟨_, rfl⟩
      · exact absurd other (by decide)
      · exact .items (.cons .int (.cons .int .nil))

theorem comparisons_cohere_tally :
    (Value.struct "Tally" (tally .u8)).equals (.struct "Tally" (tally .i64).reverse) = true ∧
    (Value.struct "Tally" (tally .i64).reverse).equals (.struct "Tally" (tally .u8)) = true ∧
    (Value.struct "Tally" (tally .u8)).equals (.struct "Tally" (tally .i16)) = true ∧
    ¬(Value.struct "Tally" (tally .u8)).HasNaN ∧
    CompareOp.notEqual.apply (.struct "Tally" (tally .i64).reverse) (.struct "Tally" (tally .u8))
      .start = .ok (.bool false) ∧
    (∃ o, (int 200 .u8).Stands (int (-3) .i16) o ∧ (int (-3) .i16).Stands (int 200 .u8) o.swap) ∧
    CompareOp.less.apply (int 5 .u8) (int 70000 .i64) .start = .ok (.bool true) := by
  obtain ⟨symm, trans, refl, _, alike, ordered, _, less, _⟩ := comparisons_cohere Globals.empty
  have plain := (distinct_tally .u8).1
  have turned := (distinct_tally .i64).2
  have first : (struct "Tally" (tally .u8)).equals (struct "Tally" (tally .i64).reverse) = true :=
    by rfl
  have second : (struct "Tally" (tally .i64).reverse).equals (struct "Tally" (tally .i16)) = true :=
    by rfl
  refine ⟨first, (symm _ _ turned plain).trans first, trans _ _ _ plain first second,
    (refl _ plain).mp rfl, ?_, ?_, ?_⟩
  · exact (alike _ _ _ _ (alike_tally .u8 .i64) .same .notEqual .start _).mp rfl
  · exact ordered _ _ (.int .u8) (.int .i16) .bool .less (.int rfl) (.int rfl) rfl rfl
      ⟨nofun, nofun⟩
  · exact less _ (int 200 .i16) _ _ rfl rfl

end Value
end LoopLang
