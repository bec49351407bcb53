import LoopLang.Proofs.Typing.Checked
import LoopLang.Proofs.Typing.Separate
import LoopLang.Proofs.Value.Operations

namespace LoopLang

namespace IntTy

variable {t u s : IntTy}

theorem accepts_trans (h : t.accepts u = true) (h' : u.accepts s = true) : t.accepts s = true :=
  accepts_iff_fits.mpr fun _ fits => fits_of_accepts h (fits_of_accepts h' fits)

theorem accepts_antisymm (h : t.accepts s = true) (h' : s.accepts t = true) : t = s := by
  revert h h'
  cases t <;> cases s <;> decide

end IntTy

namespace Primitive

variable {t u s : Primitive}

theorem accepts_trans (h : t.accepts u = true) (h' : u.accepts s = true) : t.accepts s = true := by
  cases t with
  | int t =>
    obtain ⟨u, rfl⟩ := eq_int_of_accepts h
    obtain ⟨s, rfl⟩ := eq_int_of_accepts h'
    exact IntTy.accepts_trans h h'
  | f32 | string | bool | char =>
    have same := eq_of_accepts rfl h
    subst same
    exact h'

theorem accepts_antisymm (h : t.accepts s = true) (h' : s.accepts t = true) : t = s := by
  cases t with
  | int t =>
    obtain ⟨s, rfl⟩ := eq_int_of_accepts h
    rw [IntTy.accepts_antisymm h h']
  | f32 | string | bool | char => exact (eq_of_accepts rfl h).symm

end Primitive

namespace Ty

variable {t u s l r : Ty}

section Order

/-- A type takes what it has just if nothing in it is still to be resolved. -/
theorem accepts_self_iff : t.accepts t = true ↔ t.isResolved = true := by
  induction t with
  | primitive p => simp [accepts, isResolved, p.accepts_refl]
  | array element ih => simpa [accepts, isResolved] using ih
  | _ => simp [accepts, isResolved]

theorem isResolved_of_accepts (h : t.accepts s = true) : t.isResolved = true := by
  induction t generalizing s with
  | named name => cases s <;> simp [accepts] at h
  | array element ih =>
    cases s with
    | array inner => exact ih h
    | _ => simp [accepts] at h
  | _ => rfl

theorem accepts_trans (h : t.accepts u = true) (h' : u.accepts s = true) : t.accepts s = true := by
  induction t generalizing u s with
  | any => rfl
  | named name => cases u <;> simp [accepts] at h
  | primitive p =>
    cases u <;> simp [accepts] at h
    cases s <;> simp [accepts] at h'
    exact Primitive.accepts_trans h h'
  | array element ih =>
    cases u <;> simp [accepts] at h
    cases s <;> simp [accepts] at h'
    exact ih h h'
  | struct name | enum name =>
    cases u <;> simp [accepts] at h
    subst h
    exact h'

theorem accepts_antisymm (h : t.accepts s = true) (h' : s.accepts t = true) : t = s := by
  induction t generalizing s with
  | named name => cases s <;> simp [accepts] at h
  | primitive p =>
    cases s <;> simp [accepts] at h
    rw [Primitive.accepts_antisymm h h']
  | array element ih =>
    cases s <;> simp [accepts] at h
    rw [ih h h']
  | struct name | enum name =>
    cases s <;> simp [accepts] at h
    rw [h]
  | any => cases s <;> simp [accepts] at h' ⊢

end Order

section Joins

structure IsJoin (l r t : Ty) : Prop where
  left : t.accepts l = true
  right : t.accepts r = true
  least : ∀ u : Ty, u.accepts l = true → u.accepts r = true → u.accepts t = true

theorem isJoin_of_common? (h : common? l r = some t) : IsJoin l r t := by
  unfold common? at h
  split at h
  · rename_i accepted
    cases h
    have own := accepts_self_iff.mpr (isResolved_of_accepts accepted)
    exact ⟨own, accepted, fun _ first _ => first⟩
  · split at h
    · rename_i accepted
      cases h
      have own := accepts_self_iff.mpr (isResolved_of_accepts accepted)
      exact ⟨accepted, own, fun _ _ second => second⟩
    · cases h

/-- It makes no difference which of the types is tried first: where both take the other, they are
the same. -/
theorem common?_comm (l r : Ty) : common? l r = common? r l := by
  by_cases first : l.accepts r = true <;> by_cases second : r.accepts l = true
  · rw [accepts_antisymm first second]
  all_goals simp [common?, first, second]

end Joins
end Ty

namespace Check

def Still {α : Type} (x : Check α) : Prop := ∀ c, x.Yields c fun _ c' => c'.scopes = c.scopes

namespace Still

variable {α β : Type}

theorem bind {x : Check α} {f : α → Check β} (first : x.Still) (rest : ∀ a, (f a).Still) :
    (x >>= f).Still := by
  intro c
  refine (first c).bind fun a c1 same => ?_
  exact (rest a c1).mono fun _ c2 still => still.trans same

theorem pure (a : α) : (pure a : Check α).Still := fun _ => Yields.pure rfl

theorem fail {position : Position} {cause : CompileCause} : (fail position cause : Check α).Still :=
  fun _ => Yields.fail

theorem liftAt (position : Position) (x : Except CompileCause α) : (liftAt position x).Still := by
  cases x with
  | error cause => exact fail
  | ok a => exact pure a

theorem of_same {x : Check α} {P : Context → α → Prop}
    (h : ∀ c, x.Yields c fun a c' => c' = c ∧ P c a) : x.Still := by
  intro c
  exact (h c).mono fun _ _ ends => congrArg Context.scopes ends.1

theorem record (node : Node) (type : Ty) : (record node type >>= fun _ => Pure.pure type).Still :=
  fun _ => record_bind (Yields.pure rfl)

theorem refuse {q : Prop} [Decidable q] {position : Position} {cause : CompileCause}
    {f : Unit → Check α} (rest : (f ()).Still) :
    (if q then Check.fail position cause >>= f else f ()).Still := by
  split
  · exact fun _ => Yields.refuse
  · exact rest

theorem require {q : Prop} [Decidable q] {position : Position} {cause : CompileCause}
    {f : Unit → Check α} (rest : (f ()).Still) :
    (if q then f () else Check.fail position cause >>= f).Still := by
  split
  · exact rest
  · exact fun _ => Yields.refuse

end Still

section Still

variable (g : Globals)

theorem root_still (name : String) (position : Position) : (root g name position).Still :=
  .of_same fun _ => root_yields g name position

theorem memberType_still (type : Ty) (name : String) (position : Position) :
    (memberType g type name position).Still :=
  .of_same fun _ => memberType_yields (p := ⟨g, ∅⟩) type name position

theorem method_still (root : String) (receiver : Ty) (name : String) (position : Position) :
    (method root receiver name position).Still :=
  .of_same fun _ => method_yields root receiver name position

theorem function_still (callee : String) (position : Position) :
    (function g callee position).Still :=
  .of_same fun _ => function_yields (p := ⟨g, ∅⟩) callee position

theorem argumentCount_still (callee : String) (params : List Param) (args : List Expr)
    (position : Position) : (argumentCount callee params args position).Still :=
  .of_same fun _ => argumentCount_yields callee params args position

theorem referenceArgument_still (callee : String) (param : Param) (arg : Expr) :
    (referenceArgument callee param arg).Still := by
  intro c
  exact (referenceArgument_yields ⟨.empty, ∅⟩ callee param arg).mono fun _ _ notes => notes.1

theorem missingFields_still (s : Struct) (given : List String) (position : Position) :
    (missingFields g s given position).Still :=
  .of_same fun _ => missingFields_yields g s given position

mutual

theorem expr_still (e : Expr) : (expr g e).Still := by
  cases e with
  | literal node value => exact (Still.liftAt _ _).bind fun type => .record node type
  | place node name path =>
    apply (root_still g name node.position).bind
    intro reached
    apply (steps_still node.position reached path).bind
    intro place
    exact .record node place.1
  | method node name path called calledAt args =>
    apply (root_still g name node.position).bind
    intro reached
    apply (steps_still node.position reached path).bind
    intro place
    apply (method_still name place.1 called calledAt).bind
    intro s
    apply (argumentCount_still called s.params args calledAt).bind
    intro _
    apply (arguments_still called s.params args).bind
    intro _
    cases s.returns with
    | none => exact .fail
    | some type => exact .record node type
  | call node callee args =>
    apply (function_still g callee node.position).bind
    intro s
    apply (argumentCount_still callee s.params args node.position).bind
    intro _
    apply (arguments_still callee s.params args).bind
    intro _
    cases s.returns with
    | none => exact .fail
    | some type => exact .record node type
  | math node op left right =>
    apply (expr_still left).bind
    intro l
    apply (expr_still right).bind
    intro r
    split
    · exact (Still.liftAt _ _).bind fun folded => (Still.liftAt _ _).bind fun type => .record node type
    · exact (Still.liftAt _ _).bind fun type => .record node type
  | compare node op left right =>
    apply (expr_still left).bind
    intro l
    apply (expr_still right).bind
    intro r
    exact (Still.liftAt _ _).bind fun type => .record node type
  | unary node op operand =>
    apply (expr_still operand).bind
    intro t
    exact (Still.liftAt _ _).bind fun type => .record node type
  | build node name given =>
    rw [expr]
    cases g.struct? name with
    | none => exact .fail
    | some s =>
      apply (fields_still s [] given).bind
      intro _
      apply (missingFields_still g s _ node.position).bind
      intro _
      exact .record node (.struct name)
termination_by structural e

theorem steps_still (position : Position) (reached : Reached) (path : List Step) :
    (steps g position reached path).Still := by
  cases path with
  | nil =>
    cases reached with
    | enum enum => exact .fail
    | part type inString => exact .pure _
  | cons step path =>
    cases step with
    | index e =>
      cases reached with
      | enum enum => exact .fail
      | part type inString =>
        apply (expr_still e).bind
        intro t
        apply Still.refuse
        cases type.item? with
        | some item => exact steps_still position _ path
        | none => exact .fail
    | member name at_ =>
      cases reached with
      | enum enum => exact (Still.liftAt _ _).bind fun type => steps_still position _ path
      | part type inString =>
        exact (memberType_still g type name at_).bind fun _ => steps_still position _ path
termination_by structural path

theorem arguments_still (callee : String) (params : List Param) (args : List Expr) :
    (arguments g callee params args).Still := by
  cases args with
  | nil => cases params <;> exact .pure _
  | cons arg args =>
    cases params with
    | nil => exact .pure _
    | cons param params =>
      rw [arguments]
      split
      · apply (referenceArgument_still callee param arg).bind
        intro _
        exact arguments_still callee params args
      · apply (expr_still arg).bind
        intro type
        apply Still.require
        exact arguments_still callee params args
termination_by structural args

theorem fields_still (s : Struct) (earlier : List String) (given : List Field) :
    (fields g s earlier given).Still := by
  cases given with
  | nil => exact .pure _
  | cons field rest =>
    obtain ⟨name, position, value⟩ := field
    rw [fields]
    cases s.member? name with
    | none => exact .fail
    | some m =>
      apply Still.refuse
      apply (expr_still value).bind
      intro type
      apply Still.require
      exact fields_still s (name :: earlier) rest
termination_by structural given

end
end Still
end Check

namespace Expr

def Accepted (g : Globals) (c : Context) (e : Expr) (type : Ty) : Prop :=
  ∃ c', Check.expr g e c = .ok (type, c')

variable {g : Globals} {c c' : Context} {e left right : Expr} {t : Ty} {node : Node}

/-- What is accepted depends on the variables in scope, not on the types found so far. -/
theorem Accepted.of_scopes (h : e.Accepted g c t) (same : c'.scopes = c.scopes) :
    e.Accepted g c' t := by
  obtain ⟨d, ran⟩ := h
  have again := Check.expr_follows (t := .any .refl) (.refl g) e c c' ⟨same, trivial⟩
  rw [ran, relabelled_refl] at again
  obtain ⟨d', ran', _⟩ := again
  exact ⟨d', ran'⟩

theorem accepted_operands (check : Ty → Ty → Except CompileCause Ty) (node : Node)
    (position : Position) :
    (∃ c', (do
      let l ← Check.expr g left
      let r ← Check.expr g right
      let type ← Check.liftAt position (check l r)
      Check.record node type
      return type) c = .ok (t, c')) ↔
      ∃ l r, left.Accepted g c l ∧ right.Accepted g c r ∧ check l r = .ok t := by
  constructor
  · rintro ⟨c', ran⟩
    obtain ⟨l, c1, first, ran⟩ := Check.ran_bind ran
    obtain ⟨r, c2, second, ran⟩ := Check.ran_bind ran
    have before : c.scopes = c1.scopes := (Check.expr_still g left c l c1 first).symm
    have accepted : right.Accepted g c r := Accepted.of_scopes ⟨c2, second⟩ before
    refine ⟨l, r, ⟨c1, first⟩, accepted, ?_⟩
    cases result : check l r with
    | error cause =>
      rw [result] at ran
      cases ran
    | ok type =>
      rw [result] at ran
      cases ran
      rfl
  · rintro ⟨l, r, ⟨c1, first⟩, second, result⟩
    have after := Check.expr_still g left c l c1 first
    obtain ⟨c2, second⟩ := second.of_scopes after
    rw [Check.bind_of_ok first, Check.bind_of_ok second, result]
    exact ⟨_, rfl⟩

theorem accepted_math {op : MathOp} (unfolded : left.constant? = none ∨ right.constant? = none) :
    (math node op left right).Accepted g c t ↔
      ∃ l r, left.Accepted g c l ∧ right.Accepted g c r ∧ Ty.ofMath op l r = .ok t := by
  rw [← accepted_operands (Ty.ofMath op) node node.position]
  unfold Accepted
  rw [Check.expr]
  rcases unfolded with literal | literal
  · simp [literal]
  · cases left.constant? <;> simp [literal]

theorem accepted_compare {op : CompareOp} : (compare node op left right).Accepted g c t ↔
    ∃ l r, left.Accepted g c l ∧ right.Accepted g c r ∧ Ty.ofCompare op l r = .ok t :=
  accepted_operands (Ty.ofCompare op) node node.position

theorem Accepted.math_swapped {op : MathOp}
    (unfolded : left.constant? = none ∨ right.constant? = none)
    (h : (math node op left right).Accepted g c t) : (math node op right left).Accepted g c t := by
  rw [accepted_math unfolded] at h
  rw [accepted_math unfolded.symm]
  obtain ⟨l, r, first, second, result⟩ := h
  exact ⟨r, l, second, first, by rwa [Ty.ofMath_eq_ok_iff, Ty.common?_comm,
    ← Ty.ofMath_eq_ok_iff]⟩

theorem Accepted.compare_swapped {op : CompareOp}
    (h : (compare node op left right).Accepted g c t) :
    (compare node op right left).Accepted g c t := by
  rw [accepted_compare] at h ⊢
  obtain ⟨l, r, first, second, result⟩ := h
  exact ⟨r, l, second, first, by rwa [Ty.ofCompare_eq_ok_iff, Ty.common?_comm,
    ← Ty.ofCompare_eq_ok_iff]⟩

end Expr

/-- Being assignable is a partial order of the types in which nothing is left to be resolved. So it
does not matter which way round an operation that is not on two numeric literals is written: it is
accepted with the same type or not at all. The type that its operands meet in is the least that
takes both of them. -/
theorem operands_meet :
    (∀ t : Ty, t.accepts t = true ↔ t.isResolved = true) ∧
    (∀ t u s : Ty, t.accepts u = true → u.accepts s = true → t.accepts s = true) ∧
    (∀ t s : Ty, t.accepts s = true → s.accepts t = true → t = s) ∧
    ∀ (g : Globals) (c : Context) (node : Node) (left right : Expr) (type : Ty),
      (left.constant? = none ∨ right.constant? = none → ∀ op,
        ((Expr.math node op left right).Accepted g c type ↔
          (Expr.math node op right left).Accepted g c type) ∧
        ((Expr.math node op left right).Accepted g c type →
          ∃ l r, left.Accepted g c l ∧ right.Accepted g c r ∧ Ty.IsJoin l r type)) ∧
      ∀ op,
        ((Expr.compare node op left right).Accepted g c type ↔
          (Expr.compare node op right left).Accepted g c type) ∧
        ((Expr.compare node op left right).Accepted g c type → type = .bool ∧
          ∃ l r common, left.Accepted g c l ∧ right.Accepted g c r ∧ Ty.common? l r = some common ∧
            Ty.IsJoin l r common ∧ (op.isOrdering = true → common.isOrdered = true)) := by
  refine ⟨fun t => Ty.accepts_self_iff, fun t u s => Ty.accepts_trans,
    fun t s => Ty.accepts_antisymm, fun g c node left right type => ⟨fun unfolded op => ⟨?_, ?_⟩,
      fun op => ⟨?_, ?_⟩⟩⟩
  · exact ⟨.math_swapped unfolded, .math_swapped unfolded.symm⟩
  · intro accepted
    obtain ⟨l, r, first, second, result⟩ := (Expr.accepted_math unfolded).mp accepted
    exact ⟨l, r, first, second, Ty.isJoin_of_common? (Ty.ofMath_eq_ok_iff.mp result).1⟩
  · exact ⟨.compare_swapped, .compare_swapped⟩
  · intro accepted
    obtain ⟨l, r, first, second, result⟩ := Expr.accepted_compare.mp accepted
    obtain ⟨truth, common, met, ordered⟩ := Ty.ofCompare_eq_ok_iff.mp result
    exact ⟨truth, l, r, common, first, second, met, Ty.isJoin_of_common? met, ordered⟩

theorem operands_meet_in_wider :
    let c : Context :=
      ⟨∅, ⟨[("few", ⟨.int .u8, .mutable⟩), ("more", ⟨.int .i32, .constant⟩)], []⟩⟩
    let few := Expr.place ⟨0, ⟨1, 1⟩⟩ "few" []
    let more := Expr.place ⟨1, ⟨1, 7⟩⟩ "more" []
    (Expr.math ⟨2, ⟨1, 5⟩⟩ .subtract more few).Accepted .empty c (.int .i32) ∧
      ∃ l r, few.Accepted .empty c l ∧ more.Accepted .empty c r ∧ Ty.IsJoin l r (.int .i32) := by
  intro c few more
  have forwards : (Expr.math ⟨2, ⟨1, 5⟩⟩ .subtract few more).Accepted .empty c (.int .i32) :=
    ⟨_, rfl⟩
  have met := (operands_meet.2.2.2 .empty c ⟨2, ⟨1, 5⟩⟩ few more (.int .i32)).1 (.inl rfl) .subtract
  exact ⟨met.1.mp forwards, met.2 forwards⟩

end LoopLang
