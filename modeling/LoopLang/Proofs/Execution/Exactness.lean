import LoopLang.Proofs.Execution.Points
import LoopLang.Proofs.Value.Exact

namespace LoopLang.Program

variable {p : Program} {n : Nat} {m m₁ m₂ : Machine} {d : CellTypes} {names : Scopes Binding}
  {source : String} {node : Node} {op : MathOp} {left right operand e : Expr} {a b : Int} {s u : IntTy}

theorem eval_literal (value : Literal) (m : Machine) :
    p.eval (n + 1) (.literal node value) m = Run.lift (p.literal node value) m := by
  rw [eval]

theorem literal_integer (noted : p.types[node.id]? = some (.int s)) (a : Int) :
    p.literal node (.integer a) = .ok (.int a s) := by
  rw [literal, typeOf_eq noted]
  rfl

theorem eq_of_constant? {c : Constant} {type : Ty} (typed : e.Typed p names type)
    (constant : e.constant? = some c) (ran : p.eval n e m = .ok (.int a s) m₁) : c = .int a := by
  obtain _ | n := n
  · cases ran
  cases typed with
  | @literal node value _ picked noted =>
    cases value with
    | integer v =>
      cases constant
      simp only [Ty.ofLiteral] at picked
      split at picked
      · cases picked
        rw [eval_literal, literal_integer noted] at ran
        cases ran
        rfl
      · cases picked
    | float v =>
      rw [eval_literal] at ran
      cases ran
    | _ => cases constant
  | _ => cases constant

theorem fold_ints {result : Constant} {type : Ty} (left : s.fits a = true)
    (right : u.fits b = true)
    (folds : (Constant.int a).fold op (.int b) = .ok (some result))
    (rule : Ty.ofConstant result = .ok type) :
    ¬ (op.isDivision = true ∧ b = 0) ∧
      ∃ t, type = .int t ∧ IntTy.ofLiteral? (op.exact a b) = some t := by
  rw [Constant.fold_ints left right] at folds
  split at folds
  · cases folds
  · rename_i allowed
    split at folds
    · cases folds
      simp only [Ty.ofConstant, Ty.ofLiteral] at rule
      split at rule
      · rename_i t narrowest
        cases rule
        exact ⟨allowed, t, rfl, narrowest⟩
      · cases rule
    · cases folds

theorem ofMath_ints {type : Ty} (rule : Ty.ofMath op (.int s) (.int u) = .ok type) :
    ∃ t, type = .int t ∧ t.accepts s = true ∧ t.accepts u = true := by
  unfold Ty.ofMath at rule
  split at rule
  · cases rule
  · rename_i meets
    split at rule
    · rename_i supported
      cases rule
      cases type with
      | primitive t =>
        obtain ⟨l, r, same_left, same_right, left_accepted, right_accepted⟩ :=
          Ty.primitives_of_common? meets
        cases same_left
        cases same_right
        cases t with
        | int t => exact ⟨t, rfl, left_accepted, right_accepted⟩
        | _ => simp [Primitive.accepts] at left_accepted
      | _ => simp [Ty.supports] at supported
    · cases rule

/-- An operation on two integers has an integer type, which both of them fit unless the type was
picked for their result. -/
theorem Fine.ints (typed : p.Typed) (fine : p.Fine d names (.value (.math node op left right)) m)
    (left_ran : p.eval n left m = .ok (.int a s) m₁)
    (right_ran : p.eval n right m₁ = .ok (.int b u) m₂) :
    s.fits a = true ∧ u.fits b = true ∧ ∃ t, p.types[node.id]? = some (.int t) ∧
      (t.fits a = true ∧ t.fits b = true ∨ t.fits (op.exact a b) = true) := by
  obtain ⟨stored, named, type, e_typed⟩ := fine
  have sound := p.sound typed n
  cases e_typed with
  | folded left_typed right_typed left_constant right_constant folds rule noted =>
    obtain ⟨_, _, stored₁, named₁, left_fits⟩ := (sound.eval left_typed stored named).ok left_ran
    obtain ⟨_, _, _, _, right_fits⟩ := (sound.eval right_typed stored₁ named₁).ok right_ran
    cases eq_of_constant? left_typed left_constant left_ran
    cases eq_of_constant? right_typed right_constant right_ran
    cases left_fits with
    | int left_fits =>
      cases right_fits with
      | int right_fits =>
        obtain ⟨_, t, rfl, narrowest⟩ := fold_ints left_fits right_fits folds rule
        exact ⟨left_fits, right_fits, t, noted, .inr (IntTy.fits_of_ofLiteral? narrowest)⟩
  | math left_typed right_typed _ rule noted =>
    obtain ⟨_, _, stored₁, named₁, left_fits⟩ := (sound.eval left_typed stored named).ok left_ran
    obtain ⟨_, _, _, _, right_fits⟩ := (sound.eval right_typed stored₁ named₁).ok right_ran
    cases left_fits with
    | int left_fits =>
      cases right_fits with
      | int right_fits =>
        obtain ⟨t, rfl, left_accepted, right_accepted⟩ := ofMath_ints rule
        exact ⟨left_fits, right_fits, t, noted, .inl ⟨IntTy.fits_of_accepts left_accepted left_fits,
          IntTy.fits_of_accepts right_accepted right_fits⟩⟩

theorem Fine.negated (typed : p.Typed) (fine : p.Fine d names (.value (.unary node .negate e)) m)
    (ran : p.eval n e m = .ok (.int a s) m₁) :
    p.types[node.id]? = some (.int s) ∧ s.fits a = true ∧ s.isSigned = true := by
  obtain ⟨stored, named, type, e_typed⟩ := fine
  cases e_typed with
  | unary operand_typed rule noted =>
    obtain ⟨_, _, _, _, fits⟩ := ((p.sound typed n).eval operand_typed stored named).ok ran
    cases fits with
    | int fits =>
      simp only [Ty.ofUnary] at rule
      split at rule
      · rename_i negatable
        cases rule
        have signed : s.isSigned = true := by
          simpa [Ty.isNegatable, Primitive.isSigned] using negatable
        exact ⟨noted, fits, signed⟩
      · cases rule

/-- An operation whose operands are integers has their exact result, with the type that is noted
for it, or else fails: a division by zero as such, anything else if the type does not hold the
result. No remainder is refused so, and a single quotient of each type. A negation is refused to
the lowest number of a type alone. -/
theorem exact_or_refused (compiled : compile source = .ok p) {pt : Point}
    (reached : p.Reached pt) (fuel : pt.fuel = n + 1) :
    (∀ node op left right a s m₁ b u m₂, pt.task = .value (.math node op left right) →
      p.eval n left pt.machine = .ok (.int a s) m₁ → p.eval n right m₁ = .ok (.int b u) m₂ →
      ∃ t, p.types[node.id]? = some (.int t) ∧
        p.eval pt.fuel (.math node op left right) pt.machine =
          (if op.isDivision ∧ b = 0 then
            .error (.fault (.runtime (.divisionByZero (.ints op a b) node.position))) m₂
          else if t.fits (op.exact a b) then .ok (.int (op.exact a b) t) m₂
          else .error (.fault (.runtime (.integerOverflow (.ints op a b) t node.position))) m₂) ∧
        (op.isDivision → b ≠ 0 → ¬ t.fits (op.exact a b) →
          op = .divide ∧ a = t.range.low ∧ b = -1)) ∧
    ∀ node operand a s m₁, pt.task = .value (.unary node .negate operand) →
      p.eval n operand pt.machine = .ok (.int a s) m₁ →
      ∃ t, p.types[node.id]? = some (.int t) ∧
        p.eval pt.fuel (.unary node .negate operand) pt.machine =
          if a = t.range.low then
            .error (.fault (.runtime (.integerOverflow (.negation a) t node.position))) m₁
          else .ok (.int (-a) t) m₁ := by
  have typed := typed_of_compile compiled
  obtain ⟨d, fine, _⟩ := reached.fine typed
  constructor
  · intro node op left right a s m₁ b u m₂ task left_ran right_ran
    rw [task] at fine
    obtain ⟨left_fits, right_fits, t, noted, held⟩ := fine.ints typed left_ran right_ran
    refine ⟨t, noted, ?_, ?_⟩
    · rw [fuel, eval, Run.bind_of_ok left_ran, Run.bind_of_ok right_ran,
        math_ints op noted left_fits right_fits]
      split_ifs <;> rfl
    · intro division nonzero exceeds
      obtain ⟨left_held, right_held⟩ | held := held
      · cases op with
        | divide => exact ⟨rfl, IntTy.overflow_of_divide nonzero left_held right_held exceeds⟩
        | modulo => exact absurd (IntTy.fits_modulo a nonzero right_held) exceeds
        | _ => cases division
      · exact absurd held exceeds
  · intro node operand a s m₁ task ran
    rw [task] at fine
    obtain ⟨noted, fits, signed⟩ := fine.negated typed ran
    refine ⟨s, noted, ?_⟩
    rw [fuel, eval, Run.bind_of_ok ran, negate_int noted fits signed]
    split_ifs <;> rfl

theorem Reached.first_value {f : Function} {name : String} {type found : Ty} {value : Expr}
    {isConst : Bool} {rest : List Stmt} (fuel : Nat)
    (main : p.globals.function? "main" = some f) (none_taken : f.params = [])
    (begins : f.body = .define node name type value isConst :: rest)
    (noted : p.typeOf node = .ok found) :
    p.Reached ⟨fuel, .value value, { Machine.initial with depth := 1 }, Scopes.empty,
      [⟨Scopes.empty, Scopes.empty⟩]⟩ := by
  have block := Reached.main_body (fuel + 2) .initial main none_taken
  rw [begins] at block
  have statement := block.part (.inr (.inr .statement))
  exact statement.part (.inr (.inr (.defined noted)))

def lowest : String := "func main() { n: i8 = -128 / (1 - 2); }"

def computesFirst (p : Program) : Bool :=
  (p.globals.function? "main").any fun f => f.params.isEmpty && match f.body with
    | .define node _ _ (.math _ _ left right) _ :: _ => (p.typeOf node).toOption.any fun _ =>
      match p.eval 59 left { Machine.initial with depth := 1 } with
      | .ok (.int _ _) m =>
        match p.eval 59 right m with
        | .ok (.int _ _) _ => true
        | _ => false
      | _ => false
    | _ => false

set_option maxRecDepth 100000 in
theorem exact_in_lowest : ∃ p pt node op left right a s m₁ b u m₂ t,
    compile lowest = .ok p ∧ p.Reached pt ∧ pt.task = .value (.math node op left right) ∧
    p.eval 59 left pt.machine = .ok (.int a s) m₁ ∧ p.eval 59 right m₁ = .ok (.int b u) m₂ ∧
    p.types[node.id]? = some (.int t) ∧
    p.eval 60 (.math node op left right) pt.machine =
      (if op.isDivision ∧ b = 0 then
        .error (.fault (.runtime (.divisionByZero (.ints op a b) node.position))) m₂
      else if t.fits (op.exact a b) then .ok (.int (op.exact a b) t) m₂
      else .error (.fault (.runtime (.integerOverflow (.ints op a b) t node.position))) m₂) := by
  have facts : (compile lowest).toOption.any computesFirst := by decide +kernel
  obtain ⟨p, compiled, facts⟩ := exists_of_any facts
  obtain ⟨f, found, facts⟩ := (Option.any_eq_true _ _).mp facts
  rw [Bool.and_eq_true, List.isEmpty_iff] at facts
  obtain ⟨none_taken, facts⟩ := facts
  split at facts
  · rename_i node name type inner op left right isConst rest body
    obtain ⟨type, noted, facts⟩ := exists_of_any facts
    have reached := Reached.first_value 60 found none_taken body noted
    split at facts
    · rename_i a s m₁ left_ran
      split at facts
      · rename_i b u m₂ right_ran
        obtain ⟨t, typed, evaluates, _⟩ :=
          (exact_or_refused compiled reached rfl).1 _ _ _ _ a s m₁ b u m₂ rfl left_ran right_ran
        exact ⟨p, _, inner, op, left, right, a, s, m₁, b, u, m₂, t, compiled, reached, rfl,
          left_ran, right_ran, typed, evaluates⟩
      · cases facts
    · cases facts
  · cases facts

end LoopLang.Program
