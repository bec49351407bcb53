import LoopLang.Tree.Parser

namespace LoopLang

namespace Parse

/-- When `n` tokens are left, reading leaves the last of them, in a number that satisfies `post`,
    or else it fails for a reason other than its bound. -/
def Leaves {α : Type} (x : Parse α) (n : Nat) (post : α → Nat → Prop) : Prop :=
  ∀ r : Reader, r.rest.length = n →
    match x r with
    | .ok (a, r') => r'.rest <:+ r.rest ∧ post a r'.rest.length
    | .error e => e.cause ≠ .tooDeep

section Rules

variable {α β : Type} {n : Nat}

theorem Leaves.bind {x : Parse α} {f : α → Parse β} {P : α → Nat → Prop} {post : β → Nat → Prop}
    (first : x.Leaves n P) (second : ∀ a n', P a n' → (f a).Leaves n' post) :
    (x >>= f).Leaves n post := by
  intro r left
  have now := first r left
  change match x r >>= fun pair => f pair.1 pair.2 with
    | .ok (b, r') => r'.rest <:+ r.rest ∧ post b r'.rest.length
    | .error e => e.cause ≠ .tooDeep
  cases read : x r with
  | error e =>
    rw [read] at now
    exact now
  | ok pair =>
    rw [read] at now
    have later := second pair.1 _ now.2 pair.2 rfl
    change match f pair.1 pair.2 with
      | .ok (b, r') => r'.rest <:+ r.rest ∧ post b r'.rest.length
      | .error e => e.cause ≠ .tooDeep
    cases read_on : f pair.1 pair.2 with
    | error e =>
      rw [read_on] at later
      exact later
    | ok last =>
      rw [read_on] at later
      exact ⟨later.1.trans now.1, later.2⟩

theorem Leaves.pure {a : α} {post : α → Nat → Prop} (h : post a n) :
    (pure a : Parse α).Leaves n post := by
  intro r left
  rw [← left] at h
  exact ⟨List.suffix_rfl, h⟩

theorem Leaves.mono {x : Parse α} {P post : α → Nat → Prop} (h : x.Leaves n P)
    (imp : ∀ a n', P a n' → post a n') : x.Leaves n post := by
  intro r left
  have now := h r left
  cases read : x r with
  | error e =>
    rw [read] at now
    exact now
  | ok pair =>
    rw [read] at now
    exact ⟨now.1, imp _ _ now.2⟩

theorem Leaves.either_bind {c : Prop} [Decidable c] {x y : Parse α} {f : α → Parse β}
    {P : α → Nat → Prop} {post : β → Nat → Prop} (yes : c → x.Leaves n P) (no : ¬c → y.Leaves n P)
    (rest : ∀ a n', P a n' → (f a).Leaves n' post) :
    (if c then x >>= f else y >>= f).Leaves n post := by
  by_cases holds : c
  · rw [if_pos holds]
    exact (yes holds).bind rest
  · rw [if_neg holds]
    exact (no holds).bind rest

theorem Leaves.map {x : Parse α} {f : α → β} {post : Nat → Prop}
    (h : x.Leaves n fun _ => post) : (f <$> x).Leaves n fun _ => post := by
  rw [map_eq_pure_bind]
  exact h.bind fun _ _ done => .pure done

theorem Leaves.failAt {position : Position} {cause : ParseCause} {post : α → Nat → Prop}
    (text : cause ≠ .tooDeep) : (Parse.failAt position cause : Parse α).Leaves n post :=
  fun _ _ => text

theorem leaves_here : here.Leaves n fun _ n' => n' = n := fun _ left => ⟨List.suffix_rfl, left⟩

theorem leaves_peek : peek.Leaves n fun next n' => n' = n ∧ (next.isSome → 0 < n) := by
  intro r left
  refine ⟨List.suffix_rfl, left, fun some => ?_⟩
  rw [← left]
  cases tokens : r.rest with
  | nil =>
    rw [tokens] at some
    cases some
  | cons _ _ => exact Nat.succ_pos _

theorem leaves_peekSecond : peekSecond.Leaves n fun _ n' => n' = n :=
  fun _ left => ⟨List.suffix_rfl, left⟩

theorem leaves_advance : advance.Leaves n fun _ n' => n' = n - 1 := by
  intro r left
  rw [← left]
  exact ⟨List.tail_suffix _, List.length_tail⟩

theorem leaves_number (position : Position) : (number position).Leaves n fun _ n' => n' = n :=
  fun _ left => ⟨List.suffix_rfl, left⟩

theorem Leaves.fail {cause : ParseCause} {post : α → Nat → Prop} (text : cause ≠ .tooDeep) :
    (Parse.fail cause : Parse α).Leaves n post :=
  leaves_here.bind fun _ _ _ => .failAt text

theorem leaves_accept (mark : Symbol) :
    (accept mark).Leaves n fun found n' => n' ≤ n ∧ (found = true → n' < n) := by
  refine leaves_peek.bind fun next n1 ends => ?_
  obtain ⟨rfl, some⟩ := ends
  split
  · rename_i found
    have := some (by rw [found]; rfl)
    exact leaves_advance.bind fun _ n2 same => .pure (by omega)
  · exact .pure ⟨Nat.le_refl _, nofun⟩

theorem leaves_acceptWord (word : Keyword) :
    (acceptWord word).Leaves n fun found n' => n' ≤ n ∧ (found = true → n' < n) := by
  refine leaves_peek.bind fun next n1 ends => ?_
  obtain ⟨rfl, some⟩ := ends
  split
  · rename_i found
    have := some (by rw [found]; rfl)
    exact leaves_advance.bind fun _ n2 same => .pure (by omega)
  · exact .pure ⟨Nat.le_refl _, nofun⟩

theorem leaves_isNext (mark : Symbol) : (isNext mark).Leaves n fun _ n' => n' = n :=
  leaves_peek.bind fun _ _ ends => .pure ends.1

theorem leaves_expect (mark : Symbol) (wanted : String) :
    (expect mark wanted).Leaves n fun _ n' => n' < n := by
  refine (leaves_accept mark).bind fun found n1 ends => ?_
  split
  · rename_i accepted
    exact .pure (ends.2 accepted)
  · exact leaves_peek.bind fun _ _ _ => .fail nofun

theorem leaves_expectName : expectName.Leaves n fun _ n' => n' < n := by
  refine leaves_peek.bind fun next n1 ends => ?_
  obtain ⟨rfl, some⟩ := ends
  split
  · have := some rfl
    exact leaves_advance.bind fun _ n2 same => .pure (by omega)
  · exact .fail nofun

theorem leaves_operator {ω : Type} (class? : Token → Option ω) :
    (operator? class?).Leaves n fun found n' => n' ≤ n ∧ (found.isSome → n' < n) := by
  refine leaves_peek.bind fun next n1 ends => ?_
  obtain ⟨rfl, some⟩ := ends
  split
  · rename_i op found
    obtain ⟨token, rfl, _⟩ := Option.bind_eq_some_iff.mp found
    have := some rfl
    exact leaves_advance.bind fun _ n2 same => .pure (by omega)
  · exact .pure ⟨Nat.le_refl _, nofun⟩

theorem leaves_type : type.Leaves n fun _ n' => n' < n := by
  refine (leaves_accept _).bind fun bracket n1 ends1 => ?_
  split
  · refine leaves_expectName.bind fun _ n2 less2 => (leaves_expect _ _).bind fun _ n3 less3 => ?_
    exact .pure (by omega)
  · refine leaves_peek.bind fun next n2 ends2 => ?_
    obtain ⟨rfl, some⟩ := ends2
    split
    · have := some rfl
      exact leaves_advance.bind fun _ n3 same => .pure (by omega)
    · exact .fail nofun

end Rules

/-- What fuel each reader of expressions needs when `n` tokens are left. The number added grows
    along calls that take up no token; each token pays for the longest chain of them. -/
structure ExprProgress (fuel : Nat) : Prop where
  expression {n} : 10 * n + 6 ≤ fuel → (expression fuel).Leaves n fun _ n' => n' < n
  sum {n} : 10 * n + 5 ≤ fuel → (sum fuel).Leaves n fun _ n' => n' < n
  sumTail {n} (left : Expr) : 10 * n + 1 ≤ fuel → (sumTail fuel left).Leaves n fun _ n' => n' ≤ n
  product {n} : 10 * n + 4 ≤ fuel → (product fuel).Leaves n fun _ n' => n' < n
  productTail {n} (left : Expr) : 10 * n + 1 ≤ fuel →
    (productTail fuel left).Leaves n fun _ n' => n' ≤ n
  unary {n} : 10 * n + 3 ≤ fuel → (unary fuel).Leaves n fun _ n' => n' < n
  primary {n} : 10 * n + 2 ≤ fuel → (primary fuel).Leaves n fun _ n' => n' < n
  arguments {n} : 10 * n + 8 ≤ fuel → (arguments fuel).Leaves n fun _ n' => n' < n
  expressionList {n} : 10 * n + 7 ≤ fuel → (expressionList fuel).Leaves n fun _ n' => n' < n
  fieldList {n} : 10 * n + 1 ≤ fuel → (fieldList fuel).Leaves n fun _ n' => n' ≤ n
  access {n} (start : Position) (root : String) (steps : List Step) : 10 * n + 1 ≤ fuel →
    (access fuel start root steps).Leaves n fun _ n' => n' ≤ n

namespace ExprProgress

variable {fuel n : Nat}

theorem zero : ExprProgress 0 := by
  constructor <;> intros <;> omega

theorem expression_succ (ih : ExprProgress fuel) (enough : 10 * n + 6 ≤ fuel + 1) :
    (Parse.expression (fuel + 1)).Leaves n fun _ n' => n' < n := by
  rw [Parse.expression]
  refine (ih.sum (by omega)).bind fun left n1 less1 => ?_
  refine (leaves_operator _).bind fun found n2 ends2 => ?_
  split
  · exact .pure (by omega)
  · refine (ih.sum (by omega)).bind fun right n3 less3 => ?_
    exact (leaves_number _).bind fun _ n4 same => .pure (by omega)

theorem sumTail_succ (ih : ExprProgress fuel) (left : Expr) (enough : 10 * n + 1 ≤ fuel + 1) :
    (Parse.sumTail (fuel + 1) left).Leaves n fun _ n' => n' ≤ n := by
  rw [Parse.sumTail]
  refine (leaves_operator _).bind fun found n1 ends1 => ?_
  split
  · exact .pure ends1.1
  · have less1 := ends1.2 rfl
    refine (ih.product (by omega)).bind fun right n2 less2 => ?_
    refine (leaves_number _).bind fun _ n3 same => ?_
    exact (ih.sumTail _ (by omega)).mono fun _ n4 less4 => by omega

theorem productTail_succ (ih : ExprProgress fuel) (left : Expr)
    (enough : 10 * n + 1 ≤ fuel + 1) :
    (Parse.productTail (fuel + 1) left).Leaves n fun _ n' => n' ≤ n := by
  rw [Parse.productTail]
  refine (leaves_operator _).bind fun found n1 ends1 => ?_
  split
  · exact .pure ends1.1
  · have less1 := ends1.2 rfl
    refine (ih.unary (by omega)).bind fun right n2 less2 => ?_
    refine (leaves_number _).bind fun _ n3 same => ?_
    exact (ih.productTail _ (by omega)).mono fun _ n4 less4 => by omega

theorem unary_succ (ih : ExprProgress fuel) (enough : 10 * n + 3 ≤ fuel + 1) :
    (Parse.unary (fuel + 1)).Leaves n fun _ n' => n' < n := by
  -- After a sign or a `not` there is one token less for the operand.
  have operand {m : Nat} (less : m < n) (start : Position) (op : UnaryOp) :
      (Parse.unary fuel >>= fun e => number start >>= fun node =>
        (pure (.unary node op e) : Parse Expr)).Leaves m fun _ n' => n' < n := by
    refine (ih.unary (by omega)).bind fun e n1 less1 => ?_
    exact (leaves_number _).bind fun _ n2 same => .pure (by omega)
  rw [Parse.unary]
  refine leaves_here.bind fun start n1 same1 => leaves_peek.bind fun next n2 ends2 => ?_
  subst same1
  obtain ⟨rfl, some⟩ := ends2
  split
  · have := some rfl
    exact leaves_advance.bind fun _ n3 same => operand (by omega) start .not
  · have := some rfl
    exact leaves_advance.bind fun _ n3 same => operand (by omega) start .not
  · have := some rfl
    refine leaves_advance.bind fun _ n3 same => leaves_peek.bind fun after n4 ends4 => ?_
    split
    · refine leaves_advance.bind fun _ n5 same5 => (leaves_number _).bind fun _ n6 same6 => ?_
      exact .pure (by omega)
    · exact operand (by omega) start .negate
  · exact ih.primary (by omega)

theorem primary_succ (ih : ExprProgress fuel) (enough : 10 * n + 2 ≤ fuel + 1) :
    (Parse.primary (fuel + 1)).Leaves n fun _ n' => n' < n := by
  rw [Parse.primary]
  refine leaves_here.bind fun start n1 same1 => leaves_peek.bind fun next n2 ends2 => ?_
  subst same1
  obtain ⟨rfl, some⟩ := ends2
  split
  · rename_i value found
    obtain ⟨token, rfl, _⟩ := Option.bind_eq_some_iff.mp found
    have := some rfl
    refine leaves_advance.bind fun _ n3 same3 => (leaves_number _).bind fun _ n4 same4 => ?_
    exact .pure (by omega)
  · have := some rfl
    refine leaves_advance.bind fun _ n3 same3 => ?_
    refine (ih.expression (by omega)).bind fun inner n4 less4 => ?_
    exact (leaves_expect _ _).bind fun _ n5 less5 => .pure (by omega)
  · have := some rfl
    refine leaves_advance.bind fun _ n3 same3 => (leaves_isNext _).bind fun call n4 same4 => ?_
    split
    · refine (ih.arguments (by omega)).bind fun args n5 less5 => ?_
      exact (leaves_number _).bind fun _ n6 same6 => .pure (by omega)
    · refine (leaves_accept _).bind fun build n5 ends5 => ?_
      split
      · refine (ih.fieldList (by omega)).bind fun given n6 less6 => ?_
        refine (leaves_expect _ _).bind fun _ n7 less7 => ?_
        exact (leaves_number _).bind fun _ n8 same8 => .pure (by omega)
      · exact (ih.access _ _ _ (by omega)).mono fun _ n6 less6 => by omega
  · exact .fail nofun

theorem arguments_succ (ih : ExprProgress fuel) (enough : 10 * n + 8 ≤ fuel + 1) :
    (Parse.arguments (fuel + 1)).Leaves n fun _ n' => n' < n := by
  rw [Parse.arguments]
  refine leaves_advance.bind fun _ n1 same1 => (leaves_isNext _).bind fun empty n2 same2 => ?_
  refine Leaves.either_bind (P := fun _ n' => n' ≤ n2) (fun _ => .pure (Nat.le_refl _))
    (fun _ => ?_) fun args n3 less3 => ?_
  · exact (ih.expressionList (by omega)).mono fun _ n3 less3 => Nat.le_of_lt less3
  · exact (leaves_expect _ _).bind fun _ n4 less4 => .pure (by omega)

theorem expressionList_succ (ih : ExprProgress fuel) (enough : 10 * n + 7 ≤ fuel + 1) :
    (Parse.expressionList (fuel + 1)).Leaves n fun _ n' => n' < n := by
  rw [Parse.expressionList]
  refine (ih.expression (by omega)).bind fun e n1 less1 => ?_
  refine (leaves_accept _).bind fun more n2 ends2 => ?_
  split
  · refine (ih.expressionList (by omega)).bind fun es n3 less3 => ?_
    exact .pure (by omega)
  · exact .pure (by omega)

theorem fieldList_succ (ih : ExprProgress fuel) (enough : 10 * n + 1 ≤ fuel + 1) :
    (Parse.fieldList (fuel + 1)).Leaves n fun _ n' => n' ≤ n := by
  rw [Parse.fieldList]
  refine (leaves_isNext _).bind fun done n1 same1 => ?_
  split
  · exact .pure (by omega)
  · refine leaves_here.bind fun start n2 same2 => leaves_expectName.bind fun name n3 less3 => ?_
    refine (leaves_expect _ _).bind fun _ n4 less4 => ?_
    refine (ih.expression (by omega)).bind fun value n5 less5 => ?_
    refine (leaves_accept _).bind fun more n6 ends6 => ?_
    split
    · exact (ih.fieldList (by omega)).bind fun given n7 less7 => .pure (by omega)
    · exact .pure (by omega)

theorem access_succ (ih : ExprProgress fuel) (start : Position) (root : String)
    (steps : List Step) (enough : 10 * n + 1 ≤ fuel + 1) :
    (Parse.access (fuel + 1) start root steps).Leaves n fun _ n' => n' ≤ n := by
  rw [Parse.access]
  refine (leaves_accept _).bind fun bracket n1 ends1 => ?_
  split
  · rename_i found
    have less1 := ends1.2 found
    refine (ih.expression (by omega)).bind fun index n2 less2 => ?_
    refine (leaves_expect _ _).bind fun _ n3 less3 => ?_
    exact (ih.access _ _ _ (by omega)).mono fun _ n4 less4 => by omega
  · refine (leaves_accept _).bind fun dot n2 ends2 => ?_
    split
    · rename_i found
      have less2 := ends2.2 found
      refine leaves_here.bind fun nameAt n3 same3 => leaves_expectName.bind fun name n4 less4 => ?_
      refine (leaves_isNext _).bind fun call n5 same5 => ?_
      split
      · refine (ih.arguments (by omega)).bind fun args n6 less6 => ?_
        refine (leaves_isNext _).bind fun _ n7 same7 => (leaves_isNext _).bind fun _ n8 same8 => ?_
        split
        · have refused : (Parse.fail .methodNotLast : Parse Unit).Leaves n8 fun _ _ => False :=
            .fail nofun
          exact refused.bind fun _ _ no => no.elim
        · exact (leaves_number _).bind fun _ n9 same9 => .pure (by omega)
      · exact (ih.access _ _ _ (by omega)).mono fun _ n6 less6 => by omega
    · exact (leaves_number _).bind fun _ n3 same3 => .pure (by omega)

end ExprProgress

theorem exprProgress : (fuel : Nat) → ExprProgress fuel
  | 0 => .zero
  | fuel + 1 =>
    have ih := exprProgress fuel
    { expression := ih.expression_succ
      sum := fun enough => by
        rw [Parse.sum]
        refine (ih.product (by omega)).bind fun left n1 less1 => ?_
        exact (ih.sumTail _ (by omega)).mono fun _ n2 less2 => by omega
      sumTail := ih.sumTail_succ
      product := fun enough => by
        rw [Parse.product]
        refine (ih.unary (by omega)).bind fun left n1 less1 => ?_
        exact (ih.productTail _ (by omega)).mono fun _ n2 less2 => by omega
      productTail := ih.productTail_succ
      unary := ih.unary_succ
      primary := ih.primary_succ
      arguments := ih.arguments_succ
      expressionList := ih.expressionList_succ
      fieldList := ih.fieldList_succ
      access := ih.access_succ }

section Statements

structure StmtProgress (fuel : Nat) : Prop where
  block {n} : 10 * n + 1 ≤ fuel → (block fuel).Leaves n fun _ n' => n' < n
  statements {n} : 10 * n + 8 ≤ fuel → (statements fuel).Leaves n fun _ n' => n' < n
  statement {n} : 10 * n + 7 ≤ fuel → (statement fuel).Leaves n fun _ n' => n' < n
  elifList {n} : 10 * n + 1 ≤ fuel → (elifList fuel).Leaves n fun _ n' => n' ≤ n

variable {fuel n : Nat}

theorem condition_leaves (enough : 10 * n ≤ fuel) (keyword : Keyword) :
    (condition fuel keyword).Leaves n fun _ n' => n' < n := by
  refine (leaves_expect _ _).bind fun _ n1 less1 => ?_
  refine ((exprProgress fuel).expression (by omega)).bind fun test n2 less2 => ?_
  exact (leaves_expect _ _).bind fun _ n3 less3 => .pure (by omega)

theorem declaration_leaves (enough : 10 * n ≤ fuel) (isConst : Bool) :
    (declaration fuel isConst).Leaves n fun _ n' => n' < n := by
  refine leaves_here.bind fun start n1 same1 => leaves_expectName.bind fun name n2 less2 => ?_
  refine (leaves_expect _ _).bind fun _ n3 less3 => leaves_type.bind fun type n4 less4 => ?_
  refine (leaves_number _).bind fun node n5 same5 => (leaves_accept _).bind fun given n6 ends6 => ?_
  split
  · refine ((exprProgress fuel).expression (by omega)).bind fun value n7 less7 => ?_
    exact (leaves_expect _ _).bind fun _ n8 less8 => .pure (by omega)
  · split
    · exact .fail nofun
    · exact (leaves_expect _ _).bind fun _ n7 less7 => .pure (by omega)

theorem expressionStatement_leaves (enough : 10 * n + 6 ≤ fuel) :
    (expressionStatement fuel).Leaves n fun _ n' => n' < n := by
  refine leaves_here.bind fun start n1 same1 => ?_
  refine ((exprProgress fuel).expression (by omega)).bind fun e n2 less2 => ?_
  refine (leaves_accept _).bind fun assigns n3 ends3 => ?_
  split
  · split
    · refine ((exprProgress fuel).expression (by omega)).bind fun value n4 less4 => ?_
      exact (leaves_expect _ _).bind fun _ n5 less5 => .pure (by omega)
    · exact .failAt nofun
  · refine (leaves_expect _ _).bind fun _ n4 less4 => ?_
    split
    · exact .pure (by omega)
    · exact .pure (by omega)
    · exact .pure (by omega)
    · exact .failAt nofun

namespace StmtProgress

theorem zero : StmtProgress 0 := by
  constructor <;> intros <;> omega

theorem block_succ (ih : StmtProgress fuel) (enough : 10 * n + 1 ≤ fuel + 1) :
    (Parse.block (fuel + 1)).Leaves n fun _ n' => n' < n := by
  rw [Parse.block]
  refine (leaves_expect _ _).bind fun _ n1 less1 => ?_
  exact (ih.statements (by omega)).mono fun _ n2 less2 => by omega

theorem statements_succ (ih : StmtProgress fuel) (enough : 10 * n + 8 ≤ fuel + 1) :
    (Parse.statements (fuel + 1)).Leaves n fun _ n' => n' < n := by
  rw [Parse.statements]
  refine (leaves_accept _).bind fun closed n1 ends1 => ?_
  split
  · rename_i found
    exact .pure (ends1.2 found)
  · refine leaves_peek.bind fun next n2 ends2 => ?_
    split
    · exact .fail nofun
    · refine (ih.statement (by omega)).bind fun first n3 less3 => ?_
      exact (ih.statements (by omega)).bind fun rest n4 less4 => .pure (by omega)

theorem statement_succ (ih : StmtProgress fuel) (enough : 10 * n + 7 ≤ fuel + 1) :
    (Parse.statement (fuel + 1)).Leaves n fun _ n' => n' < n := by
  rw [Parse.statement]
  refine leaves_here.bind fun start n1 same1 => leaves_peek.bind fun next n2 ends2 => ?_
  subst same1
  obtain ⟨rfl, some⟩ := ends2
  split
  · have := some rfl
    refine leaves_advance.bind fun _ n3 same3 => ?_
    exact (declaration_leaves (by omega) false).mono fun _ n4 less4 => by omega
  · have := some rfl
    refine leaves_advance.bind fun _ n3 same3 => ?_
    exact (declaration_leaves (by omega) true).mono fun _ n4 less4 => by omega
  · have := some rfl
    refine leaves_advance.bind fun _ n3 same3 => ?_
    exact (ih.block (by omega)).bind fun body n4 less4 => .pure (by omega)
  · have := some rfl
    refine leaves_advance.bind fun _ n3 same3 => ?_
    refine (condition_leaves (by omega) _).bind fun test n4 less4 => ?_
    refine (ih.block (by omega)).bind fun body n5 less5 => ?_
    refine (ih.elifList (by omega)).bind fun elifs n6 less6 => ?_
    refine (leaves_acceptWord _).bind fun other n7 ends7 => ?_
    refine Leaves.either_bind (P := fun _ n' => n' ≤ n7) (fun _ => ?_)
      (fun _ => .pure (Nat.le_refl _)) fun last n8 less8 => .pure (by omega)
    exact (ih.block (by omega)).map.mono fun _ n8 less8 => Nat.le_of_lt less8
  · have := some rfl
    refine leaves_advance.bind fun _ n3 same3 => (leaves_isNext _).bind fun bare n4 same4 => ?_
    refine Leaves.either_bind (P := fun _ n' => n' ≤ n4) (fun _ => .pure (Nat.le_refl _))
      (fun _ => ?_) fun value n5 less5 => ?_
    · exact ((exprProgress fuel).expression (by omega)).map.mono fun _ n5 less5 =>
        Nat.le_of_lt less5
    · exact (leaves_expect _ _).bind fun _ n6 less6 => .pure (by omega)
  · have := some rfl
    refine leaves_advance.bind fun _ n3 same3 => ?_
    exact (leaves_expect _ _).bind fun _ n4 less4 => .pure (by omega)
  · have := some rfl
    refine leaves_advance.bind fun _ n3 same3 => ?_
    exact (leaves_expect _ _).bind fun _ n4 less4 => .pure (by omega)
  · refine leaves_peekSecond.bind fun second n3 same3 => ?_
    split
    · exact (declaration_leaves (by omega) false).mono fun _ n4 less4 => by omega
    · exact (expressionStatement_leaves (by omega)).mono fun _ n4 less4 => by omega
  · exact expressionStatement_leaves (by omega)

theorem elifList_succ (ih : StmtProgress fuel) (enough : 10 * n + 1 ≤ fuel + 1) :
    (Parse.elifList (fuel + 1)).Leaves n fun _ n' => n' ≤ n := by
  rw [Parse.elifList]
  refine (leaves_acceptWord _).bind fun more n1 ends1 => ?_
  split
  · rename_i found
    have less1 := ends1.2 found
    refine (condition_leaves (by omega) _).bind fun test n2 less2 => ?_
    refine (ih.block (by omega)).bind fun body n3 less3 => ?_
    exact (ih.elifList (by omega)).bind fun elifs n4 less4 => .pure (by omega)
  · exact .pure ends1.1

end StmtProgress

theorem stmtProgress : (fuel : Nat) → StmtProgress fuel
  | 0 => .zero
  | fuel + 1 =>
    have ih := stmtProgress fuel
    { block := ih.block_succ
      statements := ih.statements_succ
      statement := ih.statement_succ
      elifList := ih.elifList_succ }

end Statements

section Definitions

variable {fuel n : Nat}

theorem memberList_leaves (enough : 10 * n + 1 ≤ fuel) :
    (memberList fuel).Leaves n fun _ n' => n' ≤ n := by
  induction fuel generalizing n with
  | zero => omega
  | succ fuel ih =>
    rw [memberList]
    refine (leaves_isNext _).bind fun done n1 same1 => ?_
    split
    · exact .pure (by omega)
    · refine leaves_here.bind fun start n2 same2 => leaves_expectName.bind fun name n3 less3 => ?_
      refine (leaves_expect _ _).bind fun _ n4 less4 => leaves_type.bind fun type n5 less5 => ?_
      refine (leaves_accept _).bind fun given n6 ends6 => ?_
      refine Leaves.either_bind (P := fun _ n' => n' ≤ n6) (fun _ => ?_)
        (fun _ => .pure (Nat.le_refl _)) fun default n7 less7 => ?_
      · exact ((exprProgress fuel).expression (by omega)).map.mono fun _ n7 less7 =>
          Nat.le_of_lt less7
      · refine (leaves_accept _).bind fun more n8 ends8 => ?_
        split
        · exact (ih (by omega)).bind fun rest n9 less9 => .pure (by omega)
        · exact .pure (by omega)

theorem entryList_leaves (enough : 10 * n + 1 ≤ fuel) :
    (entryList fuel).Leaves n fun _ n' => n' ≤ n := by
  induction fuel generalizing n with
  | zero => omega
  | succ fuel ih =>
    rw [entryList]
    refine (leaves_isNext _).bind fun done n1 same1 => ?_
    split
    · exact .pure (by omega)
    · refine leaves_expectName.bind fun entry n2 less2 => ?_
      refine (leaves_accept _).bind fun more n3 ends3 => ?_
      split
      · exact (ih (by omega)).bind fun rest n4 less4 => .pure (by omega)
      · exact .pure (by omega)

theorem paramList_leaves (enough : 10 * n + 1 ≤ fuel) :
    (paramList fuel).Leaves n fun _ n' => n' ≤ n := by
  induction fuel generalizing n with
  | zero => omega
  | succ fuel ih =>
    rw [paramList]
    refine leaves_here.bind fun start n1 same1 => leaves_expectName.bind fun name n2 less2 => ?_
    refine (leaves_expect _ _).bind fun _ n3 less3 => ?_
    refine (leaves_accept _).bind fun byReference n4 ends4 => ?_
    refine leaves_type.bind fun type n5 less5 => ?_
    refine (leaves_accept _).bind fun more n6 ends6 => ?_
    split
    · exact (ih (by omega)).bind fun rest n7 less7 => .pure (by omega)
    · exact .pure (by omega)

theorem struct_leaves (enough : 10 * n + 1 ≤ fuel) :
    (struct fuel).Leaves n fun _ n' => n' < n := by
  refine leaves_here.bind fun start n1 same1 => leaves_expectName.bind fun name n2 less2 => ?_
  refine (leaves_expect _ _).bind fun _ n3 less3 => ?_
  refine (memberList_leaves (by omega)).bind fun members n4 less4 => ?_
  exact (leaves_expect _ _).bind fun _ n5 less5 => .pure (by omega)

theorem enum_leaves (enough : 10 * n + 1 ≤ fuel) : (enum fuel).Leaves n fun _ n' => n' < n := by
  refine leaves_here.bind fun start n1 same1 => leaves_expectName.bind fun name n2 less2 => ?_
  refine (leaves_expect _ _).bind fun _ n3 less3 => ?_
  refine (entryList_leaves (by omega)).bind fun entries n4 less4 => ?_
  exact (leaves_expect _ _).bind fun _ n5 less5 => .pure (by omega)

theorem function_leaves (enough : 10 * n + 1 ≤ fuel) :
    (function fuel).Leaves n fun _ n' => n' < n := by
  refine leaves_here.bind fun start n1 same1 => leaves_expectName.bind fun name n2 less2 => ?_
  refine (leaves_expect _ _).bind fun _ n3 less3 => (leaves_isNext _).bind fun empty n4 same4 => ?_
  refine Leaves.either_bind (P := fun _ n' => n' ≤ n4) (fun _ => .pure (Nat.le_refl _))
    (fun _ => paramList_leaves (by omega)) fun params n5 less5 => ?_
  refine (leaves_expect _ _).bind fun _ n6 less6 => (leaves_accept _).bind fun valued n7 ends7 => ?_
  refine Leaves.either_bind (P := fun _ n' => n' ≤ n7)
    (fun _ => leaves_type.map.mono fun _ n8 less8 => Nat.le_of_lt less8)
    (fun _ => .pure (Nat.le_refl _)) fun returns n8 less8 => ?_
  exact ((stmtProgress fuel).block (by omega)).bind fun body n9 less9 => .pure (by omega)

end Definitions

end Parse

theorem Definition.parse_leaves {fuel n : Nat} (enough : 10 * n + 1 ≤ fuel) :
    (Definition.parse fuel).Leaves n fun _ n' => n' < n := by
  refine Parse.leaves_peek.bind fun next n1 ends1 => ?_
  obtain ⟨rfl, some⟩ := ends1
  split
  · have := some rfl
    refine Parse.leaves_advance.bind fun _ n2 same2 => ?_
    exact (Parse.struct_leaves (by omega)).bind fun s n3 less3 => .pure (by omega)
  · have := some rfl
    refine Parse.leaves_advance.bind fun _ n2 same2 => ?_
    exact (Parse.enum_leaves (by omega)).bind fun e n3 less3 => .pure (by omega)
  · have := some rfl
    refine Parse.leaves_advance.bind fun _ n2 same2 => ?_
    exact (Parse.function_leaves (by omega)).bind fun f n3 less3 => .pure (by omega)
  · exact (Parse.function_leaves enough).bind fun f n2 less2 => .pure less2

end LoopLang
