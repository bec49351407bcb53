import LoopLang.Proofs.Tree.Nodes
import LoopLang.Tree.Parser

namespace LoopLang

namespace Parse

/-- Whatever reading yields when the next node has the number `n`, and the number that is then the
    next one, satisfies `post`. -/
def Gives {α : Type} (x : Parse α) (n : NodeId) (post : α → NodeId → Prop) : Prop :=
  ∀ r a r', r.nextId = n → x r = .ok (a, r') → post a r'.nextId

def Quiet {α : Type} (x : Parse α) : Prop := ∀ n, x.Gives n fun _ n' => n' = n

section Rules

variable {α β : Type} {n : NodeId}

theorem Gives.bind {x : Parse α} {f : α → Parse β} {P : α → NodeId → Prop}
    {post : β → NodeId → Prop} (first : x.Gives n P)
    (second : ∀ a n', P a n' → (f a).Gives n' post) : (x >>= f).Gives n post := by
  intro r b r' start run
  change (x r >>= fun pair => f pair.1 pair.2) = .ok (b, r') at run
  cases hx : x r with
  | error e => rw [hx] at run; cases run
  | ok pair =>
    rw [hx] at run
    exact second pair.1 _ (first r pair.1 pair.2 start hx) pair.2 b r' rfl run

theorem Gives.pure {a : α} {post : α → NodeId → Prop} (h : post a n) :
    (pure a : Parse α).Gives n post := by
  intro r b r' start run
  cases run
  rw [start]
  exact h

theorem Gives.map {x : Parse α} {f : α → β} {post : β → NodeId → Prop}
    (h : x.Gives n fun a => post (f a)) : (f <$> x).Gives n post := by
  rw [map_eq_pure_bind]
  exact h.bind fun a n' ha => Gives.pure ha

theorem Gives.failAt {position : Position} {cause : ParseCause} {post : α → NodeId → Prop} :
    (Parse.failAt position cause : Parse α).Gives n post := by
  intro r a r' start run
  cases run

theorem Quiet.bind {x : Parse α} {f : α → Parse β} {post : β → NodeId → Prop} (quiet : x.Quiet)
    (second : ∀ a, (f a).Gives n post) : (x >>= f).Gives n post := by
  refine Gives.bind (quiet n) fun a n' same => ?_
  subst same
  exact second a

theorem quiet_here : here.Quiet := by
  intro n r a r' start run
  cases run
  exact start

theorem quiet_peek : peek.Quiet := by
  intro n r a r' start run
  cases run
  exact start

theorem quiet_peekSecond : peekSecond.Quiet := by
  intro n r a r' start run
  cases run
  exact start

theorem quiet_advance : advance.Quiet := by
  intro n r a r' start run
  cases run
  exact start

theorem Gives.fail {cause : ParseCause} {post : α → NodeId → Prop} :
    (Parse.fail cause : Parse α).Gives n post :=
  quiet_here.bind fun _ => Gives.failAt

theorem quiet_accept (mark : Symbol) : (accept mark).Quiet := by
  intro n
  refine quiet_peek.bind fun next => ?_
  split
  · exact quiet_advance.bind fun _ => Gives.pure rfl
  · exact Gives.pure rfl

theorem quiet_acceptWord (word : Keyword) : (acceptWord word).Quiet := by
  intro n
  refine quiet_peek.bind fun next => ?_
  split
  · exact quiet_advance.bind fun _ => Gives.pure rfl
  · exact Gives.pure rfl

theorem quiet_isNext (mark : Symbol) : (isNext mark).Quiet :=
  fun _ => quiet_peek.bind fun _ => Gives.pure rfl

theorem quiet_expect (mark : Symbol) (wanted : String) : (expect mark wanted).Quiet := by
  intro n
  refine (quiet_accept mark).bind fun found => ?_
  split
  · exact Gives.pure rfl
  · exact quiet_peek.bind fun _ => Gives.fail

theorem quiet_expectName : expectName.Quiet := by
  intro n
  refine quiet_peek.bind fun next => ?_
  split
  · exact quiet_advance.bind fun _ => Gives.pure rfl
  · exact Gives.fail

theorem quiet_operator {ω : Type} (class? : Token → Option ω) : (operator? class?).Quiet := by
  intro n
  refine quiet_peek.bind fun next => ?_
  split
  · exact quiet_advance.bind fun _ => Gives.pure rfl
  · exact Gives.pure rfl

theorem type_written : type.Gives n fun t n' => t.Written ∧ n' = n := by
  refine (quiet_accept _).bind fun bracket => ?_
  split
  · exact quiet_expectName.bind fun _ => (quiet_expect _ _).bind fun _ => Gives.pure ⟨trivial, rfl⟩
  · refine quiet_peek.bind fun next => ?_
    split
    · exact quiet_advance.bind fun _ => Gives.pure ⟨trivial, rfl⟩
    · exact Gives.fail

theorem number_bind {f : Node → Parse β} {position : Position} {post : β → NodeId → Prop}
    (rest : (f ⟨n, position⟩).Gives (n + 1) post) : (number position >>= f).Gives n post := by
  refine Gives.bind (P := fun node n' => node = ⟨n, position⟩ ∧ n' = n + 1) ?_ ?_
  · intro r a r' start run
    cases run
    exact ⟨by rw [start], by rw [start]⟩
  · intro node n' ends
    obtain ⟨rfl, rfl⟩ := ends
    exact rest

end Rules

def Numbered (first : NodeId) (ids : List NodeId) (n : NodeId) : Prop :=
  first ≤ n ∧ ids = List.range' first (n - first)

theorem Numbered.nil (n : NodeId) : Numbered n [] n := by simp [Numbered]

theorem Numbered.push {first n : NodeId} {ids : List NodeId} (h : Numbered first ids n) :
    Numbered first (ids ++ [n]) (n + 1) := by
  obtain ⟨le, rfl⟩ := h
  refine ⟨Nat.le_succ_of_le le, ?_⟩
  rw [Nat.succ_sub le, Nat.succ_eq_add_one, List.range'_concat]
  simp [Nat.add_sub_cancel' le]

/-- All readers of expressions give numbers in the order of `Expr.ids`, with any fuel. Operators
    and accesses are read onto what stands before them, which has its numbers already. -/
structure ExprReads (fuel : Nat) : Prop where
  expression {first ids n} : Numbered first ids n →
    (expression fuel).Gives n fun e => Numbered first (ids ++ e.ids)
  sum {first ids n} : Numbered first ids n →
    (sum fuel).Gives n fun e => Numbered first (ids ++ e.ids)
  sumTail {first ids n} {left : Expr} : Numbered first (ids ++ left.ids) n →
    (sumTail fuel left).Gives n fun e => Numbered first (ids ++ e.ids)
  product {first ids n} : Numbered first ids n →
    (product fuel).Gives n fun e => Numbered first (ids ++ e.ids)
  productTail {first ids n} {left : Expr} : Numbered first (ids ++ left.ids) n →
    (productTail fuel left).Gives n fun e => Numbered first (ids ++ e.ids)
  unary {first ids n} : Numbered first ids n →
    (unary fuel).Gives n fun e => Numbered first (ids ++ e.ids)
  primary {first ids n} : Numbered first ids n →
    (primary fuel).Gives n fun e => Numbered first (ids ++ e.ids)
  arguments {first ids n} : Numbered first ids n →
    (arguments fuel).Gives n fun es => Numbered first (ids ++ Expr.idsOf es)
  expressionList {first ids n} : Numbered first ids n →
    (expressionList fuel).Gives n fun es => Numbered first (ids ++ Expr.idsOf es)
  fieldList {first ids n} : Numbered first ids n →
    (fieldList fuel).Gives n fun given => Numbered first (ids ++ Field.idsOf given)
  access {first ids n} {start : Position} {root : String} {steps : List Step} :
    Numbered first (ids ++ Step.idsOf steps.reverse) n →
    (access fuel start root steps).Gives n fun e => Numbered first (ids ++ e.ids)

namespace ExprReads

variable {fuel : Nat} {first n : NodeId} {ids : List NodeId}

theorem zero : ExprReads 0 := by
  constructor <;> intros <;> exact Gives.fail

theorem expression_succ (ih : ExprReads fuel) (h : Numbered first ids n) :
    (Parse.expression (fuel + 1)).Gives n fun e => Numbered first (ids ++ e.ids) := by
  rw [Parse.expression]
  refine (ih.sum h).bind fun left n1 h1 => (quiet_operator _).bind fun found => ?_
  split
  · exact Gives.pure h1
  · refine (ih.sum h1).bind fun right n2 h2 => number_bind (Gives.pure ?_)
    simpa only [Expr.ids, List.append_assoc] using h2.push

theorem sumTail_succ (ih : ExprReads fuel) {left : Expr} (h : Numbered first (ids ++ left.ids) n) :
    (Parse.sumTail (fuel + 1) left).Gives n fun e => Numbered first (ids ++ e.ids) := by
  rw [Parse.sumTail]
  refine (quiet_operator _).bind fun found => ?_
  split
  · exact Gives.pure h
  · refine (ih.product h).bind fun right n1 h1 => number_bind (ih.sumTail ?_)
    simpa only [Expr.ids, List.append_assoc] using h1.push

theorem productTail_succ (ih : ExprReads fuel) {left : Expr}
    (h : Numbered first (ids ++ left.ids) n) :
    (Parse.productTail (fuel + 1) left).Gives n fun e => Numbered first (ids ++ e.ids) := by
  rw [Parse.productTail]
  refine (quiet_operator _).bind fun found => ?_
  split
  · exact Gives.pure h
  · refine (ih.unary h).bind fun right n1 h1 => number_bind (ih.productTail ?_)
    simpa only [Expr.ids, List.append_assoc] using h1.push

theorem unary_succ (ih : ExprReads fuel) (h : Numbered first ids n) :
    (Parse.unary (fuel + 1)).Gives n fun e => Numbered first (ids ++ e.ids) := by
  rw [Parse.unary]
  refine quiet_here.bind fun start => quiet_peek.bind fun next => ?_
  split
  · refine quiet_advance.bind fun _ => (ih.unary h).bind fun operand n1 h1 =>
      number_bind (Gives.pure ?_)
    simpa only [Expr.ids, List.append_assoc] using h1.push
  · refine quiet_advance.bind fun _ => (ih.unary h).bind fun operand n1 h1 =>
      number_bind (Gives.pure ?_)
    simpa only [Expr.ids, List.append_assoc] using h1.push
  · refine quiet_advance.bind fun _ => quiet_peek.bind fun after => ?_
    split
    · exact quiet_advance.bind fun _ => number_bind (Gives.pure h.push)
    · refine (ih.unary h).bind fun operand n1 h1 => number_bind (Gives.pure ?_)
      simpa only [Expr.ids, List.append_assoc] using h1.push
  · exact ih.primary h

theorem primary_succ (ih : ExprReads fuel) (h : Numbered first ids n) :
    (Parse.primary (fuel + 1)).Gives n fun e => Numbered first (ids ++ e.ids) := by
  rw [Parse.primary]
  refine quiet_here.bind fun start => quiet_peek.bind fun next => ?_
  split
  · exact quiet_advance.bind fun _ => number_bind (Gives.pure h.push)
  · exact quiet_advance.bind fun _ => (ih.expression h).bind fun inner n1 h1 =>
      (quiet_expect _ _).bind fun _ => Gives.pure h1
  · refine quiet_advance.bind fun _ => (quiet_isNext _).bind fun call => ?_
    split
    · refine (ih.arguments h).bind fun args n1 h1 => number_bind (Gives.pure ?_)
      simpa only [Expr.ids, List.append_assoc] using h1.push
    · refine (quiet_accept _).bind fun build => ?_
      split
      · refine (ih.fieldList h).bind fun given n1 h1 =>
          (quiet_expect _ _).bind fun _ => number_bind (Gives.pure ?_)
        simpa only [Expr.ids, List.append_assoc] using h1.push
      · exact ih.access (by simpa only [List.reverse_nil, Step.idsOf, List.append_nil] using h)
  · exact Gives.fail

theorem arguments_succ (ih : ExprReads fuel) (h : Numbered first ids n) :
    (Parse.arguments (fuel + 1)).Gives n fun es => Numbered first (ids ++ Expr.idsOf es) := by
  rw [Parse.arguments]
  refine quiet_advance.bind fun _ => (quiet_isNext _).bind fun empty => ?_
  split
  · refine Gives.bind (P := fun args => Numbered first (ids ++ Expr.idsOf args)) (Gives.pure ?_)
      fun args n1 h1 => (quiet_expect _ _).bind fun _ => Gives.pure h1
    simpa only [Expr.idsOf, List.append_nil] using h
  · exact (ih.expressionList h).bind fun args n1 h1 =>
      (quiet_expect _ _).bind fun _ => Gives.pure h1

theorem expressionList_succ (ih : ExprReads fuel) (h : Numbered first ids n) :
    (Parse.expressionList (fuel + 1)).Gives n fun es =>
      Numbered first (ids ++ Expr.idsOf es) := by
  rw [Parse.expressionList]
  refine (ih.expression h).bind fun e n1 h1 => (quiet_accept _).bind fun more => ?_
  split
  · refine (ih.expressionList h1).bind fun es n2 h2 => Gives.pure ?_
    simpa only [Expr.idsOf, List.append_assoc] using h2
  · exact Gives.pure (by simpa only [Expr.idsOf, List.append_nil] using h1)

theorem fieldList_succ (ih : ExprReads fuel) (h : Numbered first ids n) :
    (Parse.fieldList (fuel + 1)).Gives n fun given =>
      Numbered first (ids ++ Field.idsOf given) := by
  rw [Parse.fieldList]
  refine (quiet_isNext _).bind fun done => ?_
  split
  · exact Gives.pure (by simpa only [Field.idsOf, List.append_nil] using h)
  · refine quiet_here.bind fun start => quiet_expectName.bind fun name =>
      (quiet_expect _ _).bind fun _ => (ih.expression h).bind fun value n1 h1 =>
      (quiet_accept _).bind fun more => ?_
    split
    · refine (ih.fieldList h1).bind fun given n2 h2 => Gives.pure ?_
      simpa only [Field.idsOf, List.append_assoc] using h2
    · exact Gives.pure (by simpa only [Field.idsOf, List.append_nil] using h1)

theorem access_succ (ih : ExprReads fuel) {start : Position} {root : String} {steps : List Step}
    (h : Numbered first (ids ++ Step.idsOf steps.reverse) n) :
    (Parse.access (fuel + 1) start root steps).Gives n fun e => Numbered first (ids ++ e.ids) := by
  rw [Parse.access]
  refine (quiet_accept _).bind fun bracket => ?_
  split
  · refine (ih.expression h).bind fun index n1 h1 => (quiet_expect _ _).bind fun _ =>
      ih.access ?_
    simpa only [List.reverse_cons, Step.idsOf_append, Step.idsOf, List.append_nil,
      List.append_assoc] using h1
  · refine (quiet_accept _).bind fun dot => ?_
    split
    · refine quiet_here.bind fun nameAt => quiet_expectName.bind fun name =>
        (quiet_isNext _).bind fun call => ?_
      split
      · refine (ih.arguments h).bind fun args n1 h1 => (quiet_isNext _).bind fun _ =>
          (quiet_isNext _).bind fun _ => ?_
        have done := h1.push
        rw [List.append_assoc, List.append_assoc] at done
        split
        · exact Gives.fail.bind (P := fun _ _ => False) fun _ _ no => no.elim
        · exact number_bind (Gives.pure (by simpa only [Expr.ids, List.append_assoc] using done))
      · apply ih.access
        simpa only [List.reverse_cons, Step.idsOf_append, Step.idsOf, List.append_nil] using h
    · refine number_bind (Gives.pure ?_)
      simpa only [Expr.ids, List.append_assoc] using h.push

end ExprReads

theorem exprReads : (fuel : Nat) → ExprReads fuel
  | 0 => .zero
  | fuel + 1 =>
    have ih := exprReads fuel
    { expression := ih.expression_succ
      sum := fun h => by
        rw [Parse.sum]
        exact (ih.product h).bind fun left n1 h1 => ih.sumTail h1
      sumTail := ih.sumTail_succ
      product := fun h => by
        rw [Parse.product]
        exact (ih.unary h).bind fun left n1 h1 => ih.productTail h1
      productTail := ih.productTail_succ
      unary := ih.unary_succ
      primary := ih.primary_succ
      arguments := ih.arguments_succ
      expressionList := ih.expressionList_succ
      fieldList := ih.fieldList_succ
      access := ih.access_succ }

def StmtRead (first : NodeId) (before ids : List NodeId) (types : List Ty) (n : NodeId) : Prop :=
  Numbered first (before ++ ids) n ∧ ∀ t ∈ types, t.Written

section Statements

variable {fuel : Nat} {first n : NodeId} {ids : List NodeId}

theorem condition_reads {keyword : Keyword} (h : Numbered first ids n) :
    (condition fuel keyword).Gives n fun e => Numbered first (ids ++ e.ids) :=
  (quiet_expect _ _).bind fun _ => ((exprReads fuel).expression h).bind fun _ _ h1 =>
    (quiet_expect _ _).bind fun _ => Gives.pure h1

theorem declaration_reads {isConst : Bool} (h : Numbered first ids n) :
    (declaration fuel isConst).Gives n fun s => StmtRead first ids s.ids s.types := by
  refine quiet_here.bind fun start => quiet_expectName.bind fun name =>
    (quiet_expect _ _).bind fun _ => type_written.bind fun type n1 => ?_
  intro both
  obtain ⟨written, rfl⟩ := both
  refine number_bind ((quiet_accept _).bind fun defined => ?_)
  split
  · refine ((exprReads fuel).expression h.push).bind fun value n2 h2 =>
      (quiet_expect _ _).bind fun _ => Gives.pure ⟨?_, ?_⟩
    · simpa only [Stmt.ids, List.append_assoc, List.singleton_append] using h2
    · simpa only [Stmt.types, List.mem_singleton, forall_eq] using written
  · split
    · exact Gives.fail
    · refine (quiet_expect _ _).bind fun _ => Gives.pure ⟨h.push, ?_⟩
      simpa only [Stmt.types, List.mem_singleton, forall_eq] using written

theorem expressionStatement_reads (h : Numbered first ids n) :
    (expressionStatement fuel).Gives n fun s => StmtRead first ids s.ids s.types := by
  refine quiet_here.bind fun start => ((exprReads fuel).expression h).bind fun e n1 h1 =>
    (quiet_accept _).bind fun assigned => ?_
  split
  · split
    · refine ((exprReads fuel).expression h1).bind fun value n2 h2 =>
        (quiet_expect _ _).bind fun _ => Gives.pure ⟨?_, by simp [Stmt.types]⟩
      simpa only [Expr.ids, Stmt.ids, List.append_assoc] using h2
    · exact Gives.failAt
  · refine (quiet_expect _ _).bind fun _ => ?_
    split
    · exact Gives.pure ⟨by simpa only [Expr.ids, Stmt.ids] using h1, by simp [Stmt.types]⟩
    · exact Gives.pure ⟨by simpa only [Expr.ids, Stmt.ids] using h1, by simp [Stmt.types]⟩
    · exact Gives.pure ⟨by simpa only [Expr.ids, Stmt.ids] using h1, by simp [Stmt.types]⟩
    · exact Gives.failAt

end Statements

structure StmtReads (fuel : Nat) : Prop where
  block {first ids n} : Numbered first ids n →
    (block fuel).Gives n fun body => StmtRead first ids (Stmt.idsOf body) (Stmt.typesOf body)
  statements {first ids n} : Numbered first ids n →
    (statements fuel).Gives n fun body => StmtRead first ids (Stmt.idsOf body) (Stmt.typesOf body)
  statement {first ids n} : Numbered first ids n →
    (statement fuel).Gives n fun s => StmtRead first ids s.ids s.types
  elifList {first ids n} : Numbered first ids n →
    (elifList fuel).Gives n fun branches =>
      StmtRead first ids (Stmt.idsOfBranches branches) (Stmt.typesOfBranches branches)

namespace StmtReads

variable {fuel : Nat} {first n : NodeId} {ids : List NodeId}

theorem statements_succ (ih : StmtReads fuel) (h : Numbered first ids n) :
    (Parse.statements (fuel + 1)).Gives n fun body =>
      StmtRead first ids (Stmt.idsOf body) (Stmt.typesOf body) := by
  rw [Parse.statements]
  refine (quiet_accept _).bind fun closed => ?_
  split
  · exact Gives.pure ⟨by simpa only [Stmt.idsOf, List.append_nil] using h, by simp [Stmt.typesOf]⟩
  · refine quiet_peek.bind fun next => ?_
    split
    · exact Gives.fail
    · refine (ih.statement h).bind fun s n1 h1 => (ih.statements h1.1).bind fun rest n2 h2 =>
        Gives.pure ⟨?_, ?_⟩
      · simpa only [Stmt.idsOf, List.append_assoc] using h2.1
      · simp only [Stmt.typesOf, List.mem_append]
        intro t member
        rcases member with member | member
        · exact h1.2 t member
        · exact h2.2 t member

theorem elifList_succ (ih : StmtReads fuel) (h : Numbered first ids n) :
    (Parse.elifList (fuel + 1)).Gives n fun branches =>
      StmtRead first ids (Stmt.idsOfBranches branches) (Stmt.typesOfBranches branches) := by
  rw [Parse.elifList]
  refine (quiet_acceptWord _).bind fun more => ?_
  split
  · refine (condition_reads h).bind fun test n1 h1 => (ih.block h1).bind fun body n2 h2 =>
      (ih.elifList h2.1).bind fun rest n3 h3 => Gives.pure ⟨?_, ?_⟩
    · simpa only [Stmt.idsOfBranches, List.append_assoc] using h3.1
    · simp only [Stmt.typesOfBranches, List.mem_append]
      intro t member
      rcases member with member | member
      · exact h2.2 t member
      · exact h3.2 t member
  · exact Gives.pure
      ⟨by simpa only [Stmt.idsOfBranches, List.append_nil] using h, by simp [Stmt.typesOfBranches]⟩

theorem otherwise_reads (ih : StmtReads fuel) {test : Expr} {body : List Stmt}
    {elifs : List (Branch Stmt)} {start : Position}
    (h : StmtRead first ids (test.ids ++ Stmt.idsOf body ++ Stmt.idsOfBranches elifs)
      (Stmt.typesOf body ++ Stmt.typesOfBranches elifs) n) :
    (do
      let otherwise ← if ← acceptWord .else_ then some <$> Parse.block fuel else pure none
      return Stmt.choose start ⟨test, body⟩ elifs otherwise).Gives n
        fun s => StmtRead first ids s.ids s.types := by
  refine (quiet_acceptWord _).bind fun more => ?_
  let Q (otherwise : Option (List Stmt)) :=
    StmtRead first ids (Stmt.choose start ⟨test, body⟩ elifs otherwise).ids
      (Stmt.choose start ⟨test, body⟩ elifs otherwise).types
  split
  · refine Gives.bind (P := Q) (Gives.map ?_) fun otherwise n1 h1 => Gives.pure h1
    intro r last r' begins run
    obtain ⟨numbered, written⟩ := ih.block h.1 r last r' begins run
    refine ⟨by simpa only [Stmt.ids, List.append_assoc] using numbered, ?_⟩
    simp only [Stmt.types, List.mem_append]
    intro t member
    rcases member with member | member
    · exact h.2 t (List.mem_append.mpr member)
    · exact written t member
  · refine Gives.bind (P := Q) (Gives.pure ?_) fun otherwise n1 h1 => Gives.pure h1
    simpa only [Q, Stmt.ids, Stmt.types, List.append_nil] using h

theorem statement_succ (ih : StmtReads fuel) (h : Numbered first ids n) :
    (Parse.statement (fuel + 1)).Gives n fun s => StmtRead first ids s.ids s.types := by
  rw [Parse.statement]
  refine quiet_here.bind fun start => quiet_peek.bind fun next => ?_
  split
  · exact quiet_advance.bind fun _ => declaration_reads h
  · exact quiet_advance.bind fun _ => declaration_reads h
  · refine quiet_advance.bind fun _ => (ih.block h).bind fun body n1 h1 => Gives.pure ?_
    simpa only [Stmt.ids, Stmt.types] using h1
  · refine quiet_advance.bind fun _ => (condition_reads h).bind fun test n1 h1 =>
      (ih.block h1).bind fun body n2 h2 => (ih.elifList h2.1).bind fun elifs n3 h3 => ?_
    refine ih.otherwise_reads ⟨?_, ?_⟩
    · simpa only [List.append_assoc] using h3.1
    · simp only [List.mem_append]
      intro t member
      rcases member with member | member
      · exact h2.2 t member
      · exact h3.2 t member
  · refine quiet_advance.bind fun _ => (quiet_isNext _).bind fun empty => ?_
    let Q (value : Option Expr) := StmtRead first ids (Stmt.return start value).ids []
    split
    · refine Gives.bind (P := Q) (Gives.pure ⟨?_, by simp⟩) fun value n1 h1 =>
        (quiet_expect _ _).bind fun _ => Gives.pure (by simpa only [Stmt.types] using h1)
      simpa only [Stmt.ids, List.append_nil] using h
    · refine Gives.bind (P := Q) (Gives.map ?_) fun value n1 h1 =>
        (quiet_expect _ _).bind fun _ => Gives.pure (by simpa only [Stmt.types] using h1)
      intro r e r' begins run
      have numbered := (exprReads fuel).expression h r e r' begins run
      exact ⟨by simpa only [Stmt.ids] using numbered, by simp⟩
  · refine quiet_advance.bind fun _ => (quiet_expect _ _).bind fun _ => Gives.pure ⟨?_, ?_⟩
    · simpa only [Stmt.ids, List.append_nil] using h
    · simp [Stmt.types]
  · refine quiet_advance.bind fun _ => (quiet_expect _ _).bind fun _ => Gives.pure ⟨?_, ?_⟩
    · simpa only [Stmt.ids, List.append_nil] using h
    · simp [Stmt.types]
  · refine quiet_peekSecond.bind fun second => ?_
    split
    · exact declaration_reads h
    · exact expressionStatement_reads h
  · exact expressionStatement_reads h

end StmtReads

theorem stmtReads : (fuel : Nat) → StmtReads fuel
  | 0 => by constructor <;> intros <;> exact Gives.fail
  | fuel + 1 =>
    have ih := stmtReads fuel
    { block := fun h => by
        rw [Parse.block]
        exact (quiet_expect _ _).bind fun _ => ih.statements h
      statements := ih.statements_succ
      statement := ih.statement_succ
      elifList := ih.elifList_succ }

end Parse
end LoopLang
