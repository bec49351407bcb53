import LoopLang.Proofs.Execution.Exactness
import LoopLang.Proofs.Typing.Literals

namespace LoopLang

variable {op : MathOp} {a b : Int} {s u : IntTy}

namespace Check

def Refuses {α : Type} (x : Check α) (c : Context) (kind : CompileKind) (position : Position) :
    Prop :=
  ∃ cause function, x c = .error (.compile ⟨cause, position, function⟩) ∧ cause.kind = kind

variable {g : Globals} {node leftNode rightNode : Node}

/-- All that the check of an operation on two literals of some types can do. -/
theorem expr_literals (left : IntTy.ofLiteral? a = some s) (right : IntTy.ofLiteral? b = some u)
    (c : Context) :
    expr g (.math node op (.literal leftNode (.integer a)) (.literal rightNode (.integer b))) c =
      if op.isDivision ∧ b = 0 then .error (.compile ⟨.fold .divisionByZero, node.position, none⟩)
      else
        match IntTy.ofLiteral? (op.exact a b) with
        | some t => .ok (.int t, { c with
            types := ((c.types.insert leftNode.id (.int s)).insert rightNode.id
              (.int u)).insert node.id (.int t) })
        | none => .error (.compile ⟨if Range.wide.contains (op.exact a b) then
            .literalOutOfRange (op.exact a b) else .fold (.overflow op a b), node.position, none⟩) := by
  have left_type : Ty.ofLiteral (.integer a) = .ok (.int s) := by rw [Ty.ofLiteral, left]
  have right_type : Ty.ofLiteral (.integer b) = .ok (.int u) := by rw [Ty.ofLiteral, right]
  have folds : (Constant.int a).fold op (.int b) = _ :=
    Constant.fold_ints (IntTy.fits_of_ofLiteral? left) (IntTy.fits_of_ofLiteral? right)
  rw [expr, bind_of_ok (expr_literal left_type c), bind_of_ok (expr_literal right_type _)]
  simp only [Expr.constant?]
  rw [folds]
  split
  · rfl
  · split
    · rename_i wide
      simp only [Except.mapError, liftAt, pure_bind, Ty.ofConstant, Ty.ofLiteral]
      cases IntTy.ofLiteral? (op.exact a b) <;> rfl
    · rename_i wide
      have refused : IntTy.ofLiteral? (op.exact a b) = none :=
        IntTy.ofLiteral?_eq_none_iff.mpr fun t fits => wide (IntTy.wide_of_fits fits)
      rw [refused]
      rfl

theorem literals_cases (left : s.fits a = true) (right : u.fits b = true) (c : Context)
    {check : Check Ty} (same : check = expr g (.math node op (.literal leftNode (.integer a))
      (.literal rightNode (.integer b)))) :
    (op.isDivision = true ∧ b = 0 ∧ check.Refuses c .divisionByZero node.position) ∨
    (¬ (op.isDivision = true ∧ b = 0) ∧ (∀ t : IntTy, ¬ t.fits (op.exact a b) = true) ∧
      check.Refuses c .literalOutOfRange node.position) ∨
    (¬ (op.isDivision = true ∧ b = 0) ∧ ∃ t c', IntTy.ofLiteral? (op.exact a b) = some t ∧
      check c = .ok (.int t, c')) := by
  have has_type : ∀ {v : Int} {t : IntTy}, t.fits v = true → ∃ w, IntTy.ofLiteral? v = some w := by
    intro v t fits
    apply Option.ne_none_iff_exists'.mp
    intro refused
    exact IntTy.ofLiteral?_eq_none_iff.mp refused t fits
  obtain ⟨l, left_type⟩ := has_type left
  obtain ⟨r, right_type⟩ := has_type right
  have outcome := congrFun same c
  rw [expr_literals left_type right_type c] at outcome
  by_cases zero : op.isDivision = true ∧ b = 0
  · rw [if_pos zero] at outcome
    exact .inl ⟨zero.1, zero.2, _, _, outcome, rfl⟩
  · rw [if_neg zero] at outcome
    cases narrowest : IntTy.ofLiteral? (op.exact a b) with
    | some t =>
      rw [narrowest] at outcome
      exact .inr (.inr ⟨zero, t, _, rfl, outcome⟩)
    | none =>
      rw [narrowest] at outcome
      have refused : check.Refuses c .literalOutOfRange node.position :=
        ⟨_, _, outcome, by split <;> rfl⟩
      exact .inr (.inl ⟨zero, IntTy.ofLiteral?_eq_none_iff.mp narrowest, refused⟩)

theorem Refuses.kind_eq {α : Type} {x : Check α} {c : Context} {k k' : CompileKind}
    {position position' : Position} (h : x.Refuses c k position)
    (h' : x.Refuses c k' position') : k = k' := by
  obtain ⟨cause, function, fails, rfl⟩ := h
  obtain ⟨cause', function', fails', rfl⟩ := h'
  rw [fails] at fails'
  cases fails'
  rfl

theorem Refuses.not_ok {α : Type} {x : Check α} {c c' : Context} {k : CompileKind}
    {position : Position} {v : α} (h : x.Refuses c k position) : x c ≠ .ok (v, c') := by
  obtain ⟨cause, function, fails, _⟩ := h
  rw [fails]
  nofun

end Check

namespace Expr

variable {p : Program} {names : Scopes Binding} {node leftNode rightNode : Node} {type : Ty}

theorem Typed.integers (h : Expr.Typed p names (.math node op (.literal leftNode (.integer a))
    (.literal rightNode (.integer b))) type) :
    (∃ s : IntTy, p.types[leftNode.id]? = some (.int s) ∧ s.fits a = true) ∧
    (∃ u : IntTy, p.types[rightNode.id]? = some (.int u) ∧ u.fits b = true) ∧
    ¬ (op.isDivision = true ∧ b = 0) ∧
    ∃ t, p.types[node.id]? = some (.int t) ∧ IntTy.ofLiteral? (op.exact a b) = some t := by
  have literal : ∀ {inner : Node} {v : Int} {type : Ty},
      Expr.Typed p names (.literal inner (.integer v)) type →
        ∃ t : IntTy, p.types[inner.id]? = some (.int t) ∧ t.fits v = true := by
    intro inner v type h
    cases h with
    | literal picked noted =>
      rw [Ty.ofLiteral] at picked
      split at picked
      · rename_i t narrowest
        cases picked
        exact ⟨t, noted, IntTy.fits_of_ofLiteral? narrowest⟩
      · cases picked
  cases h with
  | folded left right first second folds rule noted =>
    obtain ⟨s, left_noted, left_fits⟩ := literal left
    obtain ⟨u, right_noted, right_fits⟩ := literal right
    cases first
    cases second
    obtain ⟨allowed, t, rfl, narrowest⟩ := Program.fold_ints left_fits right_fits folds rule
    exact ⟨⟨s, left_noted, left_fits⟩, ⟨u, right_noted, right_fits⟩, allowed, t, noted, narrowest⟩
  | math _ _ unfolded _ _ =>
    have none := unfolded _ rfl _ rfl
    rw [Constant.fold] at none
    split at none
    · cases none
    · split at none <;> cases none

theorem Typed.floats {x y : Float} (h : Expr.Typed p names (.math node op
    (.literal leftNode (.float x)) (.literal rightNode (.float y))) type) :
    ¬ (op.isDivision && y.toFloat32 == 0) = true := by
  cases h with
  | folded _ _ first second folds _ _ =>
    cases first
    cases second
    rw [Constant.fold] at folds
    split at folds
    · cases folds
    · assumption
  | math _ _ unfolded _ _ =>
    have none := unfolded _ rfl _ rfl
    rw [Constant.fold] at none
    split at none <;> cases none

end Expr

namespace Program

variable {p : Program} {n : Nat} {m : Machine} {d : CellTypes} {names : Scopes Binding}
  {node leftNode rightNode : Node}

theorem Fine.literals_eval (fine : p.Fine d names (.value (.math node op
      (.literal leftNode (.integer a)) (.literal rightNode (.integer b)))) m) :
    ∃ t, IntTy.ofLiteral? (op.exact a b) = some t ∧ p.types[node.id]? = some (.int t) ∧
      p.eval (n + 2) (.math node op (.literal leftNode (.integer a))
        (.literal rightNode (.integer b))) m = .ok (.int (op.exact a b) t) m := by
  obtain ⟨_, _, type, typed⟩ := fine
  obtain ⟨⟨s, left_noted, left⟩, ⟨u, right_noted, right⟩, allowed, t, noted, narrowest⟩ :=
    typed.integers
  have left_ran : p.eval (n + 1) (.literal leftNode (.integer a)) m = .ok (.int a s) m := by
    rw [eval_literal, literal_integer left_noted]
    rfl
  have right_ran : p.eval (n + 1) (.literal rightNode (.integer b)) m = .ok (.int b u) m := by
    rw [eval_literal, literal_integer right_noted]
    rfl
  refine ⟨t, narrowest, noted, ?_⟩
  rw [eval, Run.bind_of_ok left_ran, Run.bind_of_ok right_ran, math_ints op noted left right,
    if_neg allowed, if_pos (IntTy.fits_of_ofLiteral? narrowest)]
  rfl

theorem Fine.float_literals_eval {x y : Float} (fine : p.Fine d names (.value (.math node op
      (.literal leftNode (.float x)) (.literal rightNode (.float y)))) m) :
    p.eval (n + 2) (.math node op (.literal leftNode (.float x)) (.literal rightNode (.float y))) m =
      .ok (.float (Arithmetic.onFloats op x.toFloat32 y.toFloat32)) m := by
  obtain ⟨_, _, type, typed⟩ := fine
  have left_ran : p.eval (n + 1) (.literal leftNode (.float x)) m =
      .ok (.float x.toFloat32) m := eval_literal _ m
  have right_ran : p.eval (n + 1) (.literal rightNode (.float y)) m =
      .ok (.float y.toFloat32) m := eval_literal _ m
  rw [eval, Run.bind_of_ok left_ran, Run.bind_of_ok right_ran, math, if_neg typed.floats]
  rfl

/-- Two literals are refused where they are checked if they divide by zero or if no type holds
their exact result, and for nothing else. Otherwise they evaluate to just that result, with the
type of its literal. Literals of floats that are not refused evaluate to what was computed. -/
theorem folding_agrees (op : MathOp) :
    (∀ (g : Globals) (c : Context) (node leftNode rightNode : Node) (s u : IntTy) (a b : Int),
      s.fits a → u.fits b →
      ∀ check, check = Check.expr g
        (.math node op (.literal leftNode (.integer a)) (.literal rightNode (.integer b))) →
      (check.Refuses c .divisionByZero node.position ↔ op.isDivision ∧ b = 0) ∧
      (check.Refuses c .literalOutOfRange node.position ↔
        ¬ (op.isDivision ∧ b = 0) ∧ ∀ t : IntTy, ¬ t.fits (op.exact a b)) ∧
      ((∃ type c', check c = .ok (type, c')) ↔
        ¬ (op.isDivision ∧ b = 0) ∧ ∃ t : IntTy, t.fits (op.exact a b)) ∧
      ∀ type c', check c = .ok (type, c') →
        Ty.ofLiteral (.integer (op.exact a b)) = .ok type) ∧
    ∀ source p pt n node leftNode rightNode, compile source = .ok p → p.Reached pt →
      pt.fuel = n + 2 →
      (∀ a b, pt.task = .value (.math node op (.literal leftNode (.integer a))
          (.literal rightNode (.integer b))) →
        ∃ t, IntTy.ofLiteral? (op.exact a b) = some t ∧ p.types[node.id]? = some (.int t) ∧
          p.eval pt.fuel (.math node op (.literal leftNode (.integer a))
            (.literal rightNode (.integer b))) pt.machine =
              .ok (.int (op.exact a b) t) pt.machine) ∧
      ∀ x y, pt.task = .value (.math node op (.literal leftNode (.float x))
          (.literal rightNode (.float y))) →
        p.eval pt.fuel (.math node op (.literal leftNode (.float x))
          (.literal rightNode (.float y))) pt.machine =
            .ok (.float (Arithmetic.onFloats op x.toFloat32 y.toFloat32)) pt.machine := by
  constructor
  · intro g c node leftNode rightNode s u a b left right check same
    rcases Check.literals_cases left right c same with
      ⟨division, zero, refused⟩ | ⟨allowed, no_type, refused⟩ | ⟨allowed, t, c', narrowest, ok⟩
    · refine ⟨iff_of_true refused ⟨division, zero⟩, ?_, ?_, ?_⟩
      · exact iff_of_false (fun out => nomatch refused.kind_eq out)
          fun other => other.1 ⟨division, zero⟩
      · exact iff_of_false (fun ⟨_, _, ok⟩ => refused.not_ok ok)
          fun other => other.1 ⟨division, zero⟩
      · exact fun type c' ok => (refused.not_ok ok).elim
    · refine ⟨?_, iff_of_true refused ⟨allowed, no_type⟩, ?_, ?_⟩
      · exact iff_of_false (fun zero => nomatch refused.kind_eq zero) allowed
      · exact iff_of_false (fun ⟨_, _, ok⟩ => refused.not_ok ok)
          fun ⟨_, t, fits⟩ => no_type t fits
      · exact fun type c' ok => (refused.not_ok ok).elim
    · have fits := IntTy.fits_of_ofLiteral? narrowest
      refine ⟨?_, ?_, iff_of_true ⟨_, _, ok⟩ ⟨allowed, t, fits⟩, ?_⟩
      · exact iff_of_false (fun zero => zero.not_ok ok) allowed
      · exact iff_of_false (fun out => out.not_ok ok) fun ⟨_, no_type⟩ => no_type t fits
      · intro type c'' again
        rw [ok] at again
        cases again
        rw [Ty.ofLiteral, narrowest]
  · intro source p pt n node leftNode rightNode compiled reached fuel
    obtain ⟨d, fine, _⟩ := reached.fine (typed_of_compile compiled)
    rw [fuel]
    constructor
    · intro a b task
      rw [task] at fine
      exact fine.literals_eval
    · intro x y task
      rw [task] at fine
      exact fine.float_literals_eval

def widening : String := "func main() { n: u16 = 200 * 2; }"

def foldsFirst (p : Program) : Bool :=
  (p.globals.function? "main").any fun f => f.params.isEmpty && match f.body with
    | .define node _ _ (.math _ _ (.literal _ (.integer _)) (.literal _ (.integer _))) _ :: _ =>
      (p.typeOf node).toOption.any fun _ => true
    | _ => false

set_option maxRecDepth 100000 in
theorem folding_in_widening : ∃ p pt node op leftNode rightNode a b t,
    compile widening = .ok p ∧ p.Reached pt ∧ pt.task = .value (.math node op
      (.literal leftNode (.integer a)) (.literal rightNode (.integer b))) ∧
    IntTy.ofLiteral? (op.exact a b) = some t ∧
    p.eval 60 (.math node op (.literal leftNode (.integer a))
      (.literal rightNode (.integer b))) pt.machine = .ok (.int (op.exact a b) t) pt.machine ∧
    ((Check.expr p.globals (.math node op (.literal leftNode (.integer 200))
        (.literal rightNode (.integer 2)))).Refuses ⟨∅, Scopes.empty⟩ .divisionByZero node.position ↔
      op.isDivision ∧ (2 : Int) = 0) := by
  have facts : (compile widening).toOption.any foldsFirst := by decide +kernel
  obtain ⟨p, compiled, facts⟩ := exists_of_any facts
  obtain ⟨f, found, facts⟩ := (Option.any_eq_true _ _).mp facts
  rw [Bool.and_eq_true, List.isEmpty_iff] at facts
  obtain ⟨none_taken, facts⟩ := facts
  split at facts
  · rename_i node name type inner op leftNode a rightNode b isConst rest body
    obtain ⟨type, noted, _⟩ := exists_of_any facts
    have reached := Reached.first_value 60 found none_taken body noted
    have agrees := folding_agrees op
    obtain ⟨t, narrowest, _, evaluates⟩ :=
      (agrees.2 _ p _ 58 inner leftNode rightNode compiled reached rfl).1 a b rfl
    have zero := (agrees.1 p.globals ⟨∅, Scopes.empty⟩ inner leftNode rightNode .u8 .u8 200 2
      (by decide) (by decide) _ rfl).1
    exact ⟨p, _, inner, op, leftNode, rightNode, a, b, t, compiled, reached, rfl, narrowest,
      evaluates, zero⟩
  · cases facts

end Program
end LoopLang
