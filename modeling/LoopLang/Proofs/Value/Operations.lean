import LoopLang.Execution.Operation
import LoopLang.Proofs.Value.Defaults

namespace LoopLang

namespace Primitive

variable {t source : Primitive}

theorem accepts_refl (t : Primitive) : t.accepts t = true := by
  cases t with
  | int t => cases t <;> rfl
  | _ => rfl

theorem eq_int_of_accepts {t : IntTy} (h : (int t).accepts source = true) :
    ∃ s, source = int s := by
  cases source with
  | int s => exact ⟨s, rfl⟩
  | _ => simp [accepts] at h

theorem eq_of_accepts (other : t.int? = none) (h : t.accepts source = true) : source = t := by
  cases t with
  | int t => simp [int?] at other
  | _ => simpa [accepts, eq_comm] using h

end Primitive

namespace Ty

variable {l r type : Ty} {t : Primitive}

theorem primitives_of_common? (h : l.common? r = some (.primitive t)) :
    ∃ a b, l = .primitive a ∧ r = .primitive b ∧ t.accepts a = true ∧ t.accepts b = true := by
  unfold common? at h
  split at h
  · rename_i accepts
    cases h
    cases r with
    | primitive b => exact ⟨t, b, rfl, rfl, t.accepts_refl, accepts⟩
    | _ => simp [Ty.accepts] at accepts
  · split at h
    · rename_i accepts
      cases h
      cases l with
      | primitive a => exact ⟨a, t, rfl, rfl, accepts, t.accepts_refl⟩
      | _ => simp [Ty.accepts] at accepts
    · cases h

theorem ofMath_eq_ok_iff {op : MathOp} :
    ofMath op l r = .ok type ↔ common? l r = some type ∧ type.supports op = true := by
  unfold ofMath
  cases common? l r with
  | none => simp
  | some common =>
    by_cases supported : common.supports op = true
    · simp [supported]
      rintro rfl
      exact supported
    · simp [supported]
      rintro rfl
      simpa using supported

theorem ofCompare_eq_ok_iff {op : CompareOp} : ofCompare op l r = .ok type ↔ type = bool ∧
    ∃ common, common? l r = some common ∧ (op.isOrdering = true → common.isOrdered = true) := by
  unfold ofCompare
  cases common? l r with
  | none => simp
  | some common =>
    by_cases refused : (op.isOrdering && !common.isOrdered) = true
    · have unordered : ¬(op.isOrdering = true → common.isOrdered = true) := by simpa using refused
      simp [refused, unordered]
    · have ordered : op.isOrdering = true → common.isOrdered = true := by simpa using refused
      dsimp only
      rw [if_neg refused, Except.ok.injEq, eq_comm]
      simpa using fun _ => ordered

end Ty

namespace Program

variable {p : Program} {node : Node} {l r type : Ty} {a b : Value}

theorem integerTypeOf_eq {t : IntTy} (noted : p.types[node.id]? = some (.primitive (.int t))) :
    p.integerTypeOf node = .ok t := by
  rw [integerTypeOf, typeOf_eq noted]
  rfl

theorem integerResult_answers (t : IntTy) (operation : Operation) (position : Position)
    (result : Option Int) : Answers (integerResult t operation position result)
      (·.HasType p.globals (.primitive (.int t))) := by
  unfold integerResult
  split
  · split
    · rename_i fits
      exact .int fits
    · trivial
  · trivial

theorem math_ints_answers {t : IntTy} (op : MathOp) (x y : Int) (s u : IntTy)
    (noted : p.types[node.id]? = some (.primitive (.int t))) :
    Answers (p.math node op (.int x s) (.int y u))
      (·.HasType p.globals (.primitive (.int t))) := by
  rw [math, integerTypeOf_eq noted]
  by_cases zero : (op.isDivision && y == 0) = true
  · change Answers (if _ then _ else _) _
    rw [if_pos zero]
    trivial
  · change Answers (if _ then _ else _) _
    rw [if_neg zero]
    exact integerResult_answers t _ node.position _

theorem math_floats_answers (op : MathOp) (x y : Float32) :
    Answers (p.math node op (.float x) (.float y)) (·.HasType p.globals (.primitive .f32)) := by
  rw [math]
  split
  · trivial
  · exact .float

theorem math_answers {op : MathOp} (left : a.HasType p.globals l) (right : b.HasType p.globals r)
    (rule : Ty.ofMath op l r = .ok type) (noted : p.types[node.id]? = some type) :
    Answers (p.math node op a b) (·.HasType p.globals type) := by
  obtain ⟨meets, supported⟩ := Ty.ofMath_eq_ok_iff.mp rule
  cases type with
  | primitive t =>
    obtain ⟨l, r, rfl, rfl, left_accepted, right_accepted⟩ := Ty.primitives_of_common? meets
    cases t with
    | int t =>
      obtain ⟨s, rfl⟩ := Primitive.eq_int_of_accepts left_accepted
      obtain ⟨u, rfl⟩ := Primitive.eq_int_of_accepts right_accepted
      cases left
      cases right
      exact math_ints_answers op _ _ s u noted
    | f32 =>
      cases Primitive.eq_of_accepts rfl left_accepted
      cases Primitive.eq_of_accepts rfl right_accepted
      cases left
      cases right
      exact math_floats_answers op _ _
    | string =>
      cases Primitive.eq_of_accepts rfl left_accepted
      cases Primitive.eq_of_accepts rfl right_accepted
      cases left
      cases right
      have add : op = .add := by simpa [Ty.supports] using supported
      rw [math, if_pos add]
      exact .string
    | bool | char => simp [Ty.supports, Primitive.isNumeric] at supported
  | _ => simp [Ty.supports] at supported

theorem typed_of_constant? {names : Scopes Binding} {e : Expr} {c : Constant}
    (typed : e.Typed p names type) (h : e.constant? = some c) :
    (∃ v t, c = .int v ∧ type = .primitive (.int t)) ∨
      (∃ v, c = .float v ∧ type = .primitive .f32) := by
  cases typed with
  | @literal _ value _ picked _ =>
    cases value with
    | integer v =>
      cases h
      simp only [Ty.ofLiteral] at picked
      split at picked
      · rename_i t _
        cases picked
        exact .inl ⟨v, t, rfl, rfl⟩
      · cases picked
    | float v =>
      cases h
      cases picked
      exact .inr ⟨_, rfl, rfl⟩
    | _ => cases h
  | _ => cases h

/-- The type of two literals' result suits the operation on their values. -/
theorem folded_answers {op : MathOp} {names : Scopes Binding} {left right : Expr}
    {x y result : Constant} (left_typed : left.Typed p names l)
    (right_typed : right.Typed p names r) (left_constant : left.constant? = some x)
    (right_constant : right.constant? = some y) (folds : x.fold op y = .ok (some result))
    (rule : Ty.ofConstant result = .ok type) (noted : p.types[node.id]? = some type)
    (a_typed : a.HasType p.globals l) (b_typed : b.HasType p.globals r) :
    Answers (p.math node op a b) (·.HasType p.globals type) := by
  obtain ⟨v, s, rfl, rfl⟩ | ⟨v, rfl, rfl⟩ := typed_of_constant? left_typed left_constant <;>
    obtain ⟨w, u, rfl, rfl⟩ | ⟨w, rfl, rfl⟩ :=
      typed_of_constant? right_typed right_constant
  · cases a_typed
    cases b_typed
    obtain ⟨z, rfl⟩ : ∃ z, result = .int z := by
      simp only [Constant.fold] at folds
      split at folds
      · cases folds
      · split at folds
        · cases folds
          exact ⟨_, rfl⟩
        · cases folds
    simp only [Ty.ofConstant, Ty.ofLiteral] at rule
    split at rule
    · cases rule
      exact math_ints_answers op _ _ s u noted
    · cases rule
  · cases folds
  · cases folds
  · cases a_typed
    cases b_typed
    obtain ⟨z, rfl⟩ : ∃ z, result = .float z := by
      simp only [Constant.fold] at folds
      split at folds
      · cases folds
      · cases folds
        exact ⟨_, rfl⟩
    cases rule
    exact math_floats_answers op _ _

theorem unary_answers {op : UnaryOp} (operand : a.HasType p.globals l)
    (rule : Ty.ofUnary op l = .ok type) (noted : p.types[node.id]? = some type) :
    Answers (p.unary node op a) (·.HasType p.globals type) := by
  cases op with
  | not =>
    simp only [Ty.ofUnary] at rule
    split at rule
    · rename_i same
      cases rule
      subst same
      cases operand
      exact .bool
    · cases rule
  | negate =>
    simp only [Ty.ofUnary] at rule
    split at rule
    · rename_i negatable
      cases rule
      cases operand with
      | int fits =>
        rw [unary, integerTypeOf_eq noted]
        exact integerResult_answers _ _ node.position _
      | float => exact .float
      | _ => simp [Ty.isNegatable, Primitive.isSigned] at negatable
    · cases rule

end Program

namespace CompareOp

variable {g : Globals} {l r type : Ty} {a b : Value}

theorem order?_isSome (left : a.HasType g l) (right : b.HasType g r)
    (meets : l.common? r = some type) (ordered : type.isOrdered = true) :
    ∃ order, a.order? b = some order := by
  cases type with
  | primitive t =>
    obtain ⟨l, r, rfl, rfl, left_accepted, right_accepted⟩ := Ty.primitives_of_common? meets
    cases t with
    | int t =>
      obtain ⟨s, rfl⟩ := Primitive.eq_int_of_accepts left_accepted
      obtain ⟨u, rfl⟩ := Primitive.eq_int_of_accepts right_accepted
      cases left
      cases right
      exact ⟨_, rfl⟩
    | f32 | string | char =>
      cases Primitive.eq_of_accepts rfl left_accepted
      cases Primitive.eq_of_accepts rfl right_accepted
      cases left
      cases right
      exact ⟨_, rfl⟩
    | bool => simp [Ty.isOrdered, Primitive.isOrdered] at ordered
  | _ => simp [Ty.isOrdered] at ordered

theorem apply_answers {op : CompareOp} (left : a.HasType g l) (right : b.HasType g r)
    (rule : Ty.ofCompare op l r = .ok type) (position : Position) :
    Answers (op.apply a b position) (·.HasType g type) := by
  obtain ⟨rfl, common, meets, ordered⟩ := Ty.ofCompare_eq_ok_iff.mp rule
  cases op with
  | equal | notEqual => exact .bool
  | less | lessEqual | greater | greaterEqual =>
    obtain ⟨order, found⟩ := order?_isSome left right meets (ordered rfl)
    simp only [apply, found]
    exact .bool

end CompareOp

def Fit (g : Globals) (params : List Param) (args : List Value) : Prop :=
  List.Forall₂ (fun param v => ∃ type, param.type.accepts type = true ∧ v.HasType g type)
    params args

theorem Fit.single {g : Globals} {param : Param} {args : List Value} (h : Fit g [param] args) :
    ∃ v type, args = [v] ∧ param.type.accepts type = true ∧ v.HasType g type := by
  cases h with
  | cons first rest =>
    cases rest
    obtain ⟨type, accepted, typed⟩ := first
    exact ⟨_, type, rfl, accepted, typed⟩

namespace Builtin

variable {g : Globals}

theorem byValue_signature (b : Builtin) :
    ∀ param ∈ b.signature.params, param.byReference = false := by
  simp [signature, Signature.param]

theorem apply_answers (b : Builtin) {args : List Value} (fit : Fit g b.signature.params args)
    (position : Position) : Answers (b.apply args position) fun _ => True := by
  obtain ⟨v, type, rfl, accepted, typed⟩ := fit.single
  cases b with
  | assert =>
    cases typed with
    | bool => rename_i holds; cases holds <;> trivial
    | _ => simp [Signature.param, accepts, Ty.bool, Ty.accepts, Primitive.accepts] at accepted
  | _ => trivial

end Builtin

namespace Method

variable {g : Globals} {v : Value} {type : Ty} {name : String} {m : Method}

theorem byValue_signatureOn (m : Method) {type : Ty} :
    ∀ param ∈ (m.signatureOn type).params, param.byReference = false := by
  cases type <;> cases m <;> simp [signatureOn, signature, Signature.ofItems, Signature.param]

theorem ofValue?_eq (typed : v.HasType g type) : ofValue? v name = ofTy? type name := by
  cases typed <;> rfl

theorem fits_codePoint (c : Char) : IntTy.u32.fits c.toNat = true := by
  have bound : c.toNat < 2 ^ 32 := c.val.toNat_lt
  rw [IntTy.fits_iff]
  change 0 ≤ (c.toNat : Int) ∧ (c.toNat : Int) ≤ 2 ^ 32 - 1
  omega

theorem count_answers (n : Nat) (position : Position) :
    Answers (count n position) (·.HasType g (.int .u32)) := by
  unfold count
  split
  · rename_i fits
    exact .int fits
  · trivial

theorem append_answers {element : Ty} {args : List Value} (known : element.Known g)
    (fit : Fit g (append.signatureOn (.array element)).params args) (position : Position)
    (typed : v.HasType g (.array element)) :
    Answers (append.apply v args position) fun (result, w) =>
      result = none ∧ w.HasType g (.array element) := by
  change Fit g [{ Signature.param .any with type := element }] args at fit
  obtain ⟨item, type, rfl, accepted, item_typed⟩ := fit.single
  cases typed with
  | array items_typed =>
    refine ⟨rfl, .array fun other member => ?_⟩
    rcases List.mem_append.mp member with old | new
    · exact items_typed other old
    · rw [List.mem_singleton.mp new]
      exact item_typed.coerce known.specific accepted

theorem call_answers {args : List Value} (lookup : ofTy? type name = some m)
    (known : type.Known g) (fit : Fit g (m.signatureOn type).params args)
    (position : Position) (v : Value) (typed : v.HasType g type) :
    Answers (call name args position v) fun (result, w) =>
      Option.Rel (Value.HasType g) result m.signature.returns ∧ w.HasType g type := by
  rw [call, ofValue?_eq typed, lookup]
  cases type with
  | array element =>
    simp only [ofTy?, ofArray?] at lookup
    split at lookup
    · cases lookup
      apply (append_answers (show element.Known g from known) fit position typed).mono
      intro pair ends
      obtain ⟨_, w⟩ := pair
      obtain ⟨rfl, typed⟩ := ends
      exact ⟨.none, typed⟩
    · cases lookup
      cases typed with
      | array items_typed =>
        exact (count_answers _ position).bind fun n counted =>
          ⟨.some counted, .array items_typed⟩
    · cases lookup
  | primitive t =>
    simp only [ofTy?] at lookup
    unfold ofPrimitive? at lookup
    split at lookup
    · cases lookup
      cases typed with
      | string =>
        exact (count_answers _ position).bind fun n counted => ⟨.some counted, .string⟩
    · cases lookup
      cases typed with
      | string => exact ⟨.some .string, .string⟩
    · cases lookup
      cases typed with
      | string => exact ⟨.some .string, .string⟩
    · cases lookup
      cases typed with
      | char =>
        exact ⟨.some (.int (fits_codePoint _)), .char⟩
    · cases lookup
  | _ => simp [ofTy?] at lookup

end Method
end LoopLang
