import LoopLang.Proofs.Tree.Progress

namespace LoopLang

namespace Reader

structure Before (r r' : Reader) : Prop where
  rest : r'.rest <:+ r.rest
  finish : r'.finish = r.finish

variable {r r' r'' : Reader}

theorem Before.refl (r : Reader) : r.Before r := ⟨List.suffix_rfl, rfl⟩

theorem Before.trans (h : r.Before r') (h' : r'.Before r'') : r.Before r'' :=
  ⟨h'.rest.trans h.rest, h'.finish.trans h.finish⟩

def places (r : Reader) : List Position := r.rest.map (·.position) ++ [r.finish]

theorem Before.places (h : r.Before r') : r'.places <:+ r.places := by
  obtain ⟨taken, tokens⟩ := h.rest
  refine ⟨taken.map (·.position), ?_⟩
  rw [Reader.places, Reader.places, ← tokens, h.finish, List.map_append, List.append_assoc]

theorem next_place (r : Reader) :
    (r.rest.head?.map (·.position)).getD r.finish ∈ r.places := by
  obtain ⟨_ | ⟨l, rest⟩, finish, nextId⟩ := r
  · exact List.mem_singleton_self _
  · exact List.mem_cons_self

end Reader

namespace Parse

/-- Wherever in the tokens of `s` it begins, `y` reads what `x` reads, unless `x` reaches its bound.
    What is read satisfies `post` and leaves the last ones of the tokens; a failure has its place
    among them. -/
def Extends {α : Type} (s : Reader) (x y : Parse α) (post : α → Prop) : Prop :=
  ∀ r, s.Before r →
    match x r with
    | .ok (a, r') => y r = .ok (a, r') ∧ r.Before r' ∧ post a
    | .error e => (e.cause = .tooDeep ∨ y r = .error e) ∧ e.position ∈ s.places

variable {s : Reader} {α β : Type}

section Rules

theorem Extends.bind {x y : Parse α} {f g : α → Parse β} {P : α → Prop} {post : β → Prop}
    (first : Extends s x y P) (rest : ∀ a, P a → Extends s (f a) (g a) post) :
    Extends s (x >>= f) (y >>= g) post := by
  intro r there
  have now := first r there
  change match x r >>= fun pair => f pair.1 pair.2 with
    | .ok (b, r') => (y r >>= fun pair => g pair.1 pair.2) = .ok (b, r') ∧ r.Before r' ∧ post b
    | .error e => (e.cause = .tooDeep ∨ (y r >>= fun pair => g pair.1 pair.2) = .error e) ∧
      e.position ∈ s.places
  cases read : x r with
  | error e =>
    rw [read] at now
    refine ⟨now.1.imp id fun same => ?_, now.2⟩
    rw [same]
    rfl
  | ok pair =>
    rw [read] at now
    obtain ⟨same, before, holds⟩ := now
    have later := rest pair.1 holds pair.2 (there.trans before)
    rw [same]
    change match f pair.1 pair.2 with
      | .ok (b, r') => g pair.1 pair.2 = .ok (b, r') ∧ r.Before r' ∧ post b
      | .error e => (e.cause = .tooDeep ∨ g pair.1 pair.2 = .error e) ∧ e.position ∈ s.places
    cases read_on : f pair.1 pair.2 with
    | error e =>
      rw [read_on] at later
      exact later
    | ok last =>
      rw [read_on] at later
      exact ⟨later.1, before.trans later.2.1, later.2.2⟩

theorem Extends.next {x y : Parse α} {f g : α → Parse β} {P : α → Prop} {post : β → Prop}
    (first : Extends s x y P) (rest : ∀ a, Extends s (f a) (g a) post) :
    Extends s (x >>= f) (y >>= g) post := first.bind fun a _ => rest a

theorem Extends.mono {x y : Parse α} {P post : α → Prop} (h : Extends s x y P)
    (imp : ∀ a, P a → post a) : Extends s x y post := by
  intro r there
  have now := h r there
  cases read : x r with
  | error e =>
    rw [read] at now
    exact now
  | ok pair =>
    rw [read] at now
    exact ⟨now.1, now.2.1, imp _ now.2.2⟩

theorem Extends.pure {a : α} {post : α → Prop} (holds : post a) :
    Extends s (pure a : Parse α) (pure a) post := fun r _ => ⟨rfl, .refl r, holds⟩

theorem Extends.failAt {position : Position} {cause : ParseCause} {post : α → Prop}
    (place : position ∈ s.places) :
    Extends s (Parse.failAt position cause : Parse α) (Parse.failAt position cause) post :=
  fun _ _ => ⟨.inr rfl, place⟩

theorem Extends.some_bind {x y : Parse α} {f g : Option α → Parse β} {P : α → Prop}
    {post : β → Prop} (first : Extends s x y P)
    (rest : ∀ a, Extends s (f (some a)) (g (some a)) post) :
    Extends s (some <$> x >>= f) (some <$> y >>= g) post := by
  rw [bind_map_left, bind_map_left]
  exact first.next rest

theorem extends_here : Extends s here here (· ∈ s.places) :=
  fun r there => ⟨rfl, .refl r, there.places.subset r.next_place⟩

theorem Extends.fail {cause : ParseCause} {post : α → Prop} :
    Extends s (Parse.fail cause : Parse α) (Parse.fail cause) post :=
  extends_here.bind fun _ place => .failAt place

theorem extends_tooDeep (y : Parse α) (post : α → Prop) :
    Extends s (Parse.fail .tooDeep) y post :=
  fun r there => ⟨.inl rfl, there.places.subset r.next_place⟩

theorem extends_peek : Extends s peek peek fun _ => True := fun r _ => ⟨rfl, .refl r, trivial⟩

theorem extends_peekSecond : Extends s peekSecond peekSecond fun _ => True :=
  fun r _ => ⟨rfl, .refl r, trivial⟩

theorem extends_advance : Extends s advance advance fun _ => True :=
  fun _ _ => ⟨rfl, ⟨List.tail_suffix _, rfl⟩, trivial⟩

theorem extends_number (position : Position) :
    Extends s (number position) (number position) (·.position = position) :=
  fun _ _ => ⟨rfl, ⟨List.suffix_rfl, rfl⟩, rfl⟩

end Rules

section Marks

theorem extends_accept (mark : Symbol) :
    Extends s (accept mark) (accept mark) fun _ => True := by
  refine extends_peek.next fun next => ?_
  split
  · exact extends_advance.next fun _ => .pure trivial
  · exact .pure trivial

theorem extends_acceptWord (word : Keyword) :
    Extends s (acceptWord word) (acceptWord word) fun _ => True := by
  refine extends_peek.next fun next => ?_
  split
  · exact extends_advance.next fun _ => .pure trivial
  · exact .pure trivial

theorem extends_isNext (mark : Symbol) : Extends s (isNext mark) (isNext mark) fun _ => True :=
  extends_peek.next fun _ => .pure trivial

theorem extends_expect (mark : Symbol) (wanted : String) :
    Extends s (expect mark wanted) (expect mark wanted) fun _ => True := by
  refine (extends_accept mark).next fun found => ?_
  split
  · exact .pure trivial
  · exact extends_peek.next fun next => .fail

theorem extends_expectName : Extends s expectName expectName fun _ => True := by
  refine extends_peek.next fun next => ?_
  split
  · exact extends_advance.next fun _ => .pure trivial
  · exact .fail

theorem extends_operator {ω : Type} (class? : Token → Option ω) :
    Extends s (operator? class?) (operator? class?) fun _ => True := by
  refine extends_peek.next fun next => ?_
  split
  · exact extends_advance.next fun _ => .pure trivial
  · exact .pure trivial

theorem extends_type : Extends s type type fun _ => True := by
  refine (extends_accept _).next fun bracket => ?_
  split
  · exact extends_expectName.next fun _ => (extends_expect _ _).next fun _ => .pure trivial
  · refine extends_peek.next fun next => ?_
    split
    · exact extends_advance.next fun _ => .pure trivial
    · exact .fail

end Marks

structure ExprExtends (s : Reader) (n n' : Nat) : Prop where
  expression : Extends s (expression n) (expression n') (·.position ∈ s.places)
  sum : Extends s (sum n) (sum n') (·.position ∈ s.places)
  sumTail (left : Expr) : Extends s (sumTail n left) (sumTail n' left) (·.position = left.position)
  product : Extends s (product n) (product n') (·.position ∈ s.places)
  productTail (left : Expr) :
    Extends s (productTail n left) (productTail n' left) (·.position = left.position)
  unary : Extends s (unary n) (unary n') (·.position ∈ s.places)
  primary : Extends s (primary n) (primary n') (·.position ∈ s.places)
  arguments : Extends s (arguments n) (arguments n') fun _ => True
  expressionList : Extends s (expressionList n) (expressionList n') fun _ => True
  fieldList : Extends s (fieldList n) (fieldList n') fun _ => True
  access (start : Position) (root : String) (steps : List Step) :
    Extends s (access n start root steps) (access n' start root steps) (·.position = start)

namespace ExprExtends

variable {n n' : Nat}

theorem zero : ExprExtends s 0 n' := by
  constructor <;> intros <;> exact extends_tooDeep _ _

theorem node_at {start : Position} (place : start ∈ s.places) {make : Node → Expr}
    (own : ∀ node, (make node).position = node.position) :
    Extends s (number start >>= fun node => pure (make node))
      (number start >>= fun node => pure (make node)) (·.position ∈ s.places) :=
  (extends_number start).bind fun node same => .pure (by rwa [own, same])

variable (ih : ExprExtends s n n')
include ih

theorem expression_succ :
    Extends s (Parse.expression (n + 1)) (Parse.expression (n' + 1)) (·.position ∈ s.places) := by
  refine ih.sum.bind fun left place => (extends_operator _).next fun op => ?_
  cases op with
  | none => exact .pure place
  | some op => exact ih.sum.next fun right => node_at place fun _ => rfl

theorem sumTail_succ (left : Expr) :
    Extends s (Parse.sumTail (n + 1) left) (Parse.sumTail (n' + 1) left)
      (·.position = left.position) := by
  refine (extends_operator _).next fun op => ?_
  cases op with
  | none => exact .pure rfl
  | some op =>
    refine ih.product.next fun right => (extends_number _).bind fun node same => ?_
    exact (ih.sumTail _).mono fun e whole => whole.trans same

theorem productTail_succ (left : Expr) :
    Extends s (Parse.productTail (n + 1) left) (Parse.productTail (n' + 1) left)
      (·.position = left.position) := by
  refine (extends_operator _).next fun op => ?_
  cases op with
  | none => exact .pure rfl
  | some op =>
    refine ih.unary.next fun right => (extends_number _).bind fun node same => ?_
    exact (ih.productTail _).mono fun e whole => whole.trans same

theorem unary_succ :
    Extends s (Parse.unary (n + 1)) (Parse.unary (n' + 1)) (·.position ∈ s.places) := by
  refine extends_here.bind fun start place => extends_peek.next fun next => ?_
  split
  · exact extends_advance.next fun _ => ih.unary.next fun e => node_at place fun _ => rfl
  · exact extends_advance.next fun _ => ih.unary.next fun e => node_at place fun _ => rfl
  · refine extends_advance.next fun _ => extends_peek.next fun next => ?_
    split
    · exact extends_advance.next fun _ => node_at place fun _ => rfl
    · exact ih.unary.next fun e => node_at place fun _ => rfl
  · exact ih.primary

theorem primary_succ :
    Extends s (Parse.primary (n + 1)) (Parse.primary (n' + 1)) (·.position ∈ s.places) := by
  refine extends_here.bind fun start place => extends_peek.next fun next => ?_
  split
  · exact extends_advance.next fun _ => node_at place fun _ => rfl
  · refine extends_advance.next fun _ => ih.expression.bind fun inner inside => ?_
    exact (extends_expect _ _).next fun _ => .pure inside
  · refine extends_advance.next fun _ => (extends_isNext _).next fun call => ?_
    split
    · exact ih.arguments.next fun args => node_at place fun _ => rfl
    · refine (extends_accept _).next fun build => ?_
      split
      · refine ih.fieldList.next fun given => (extends_expect _ _).next fun _ => ?_
        exact node_at place fun _ => rfl
      · refine (ih.access start _ []).mono fun e same => ?_
        rwa [same]
  · exact .fail

theorem arguments_succ :
    Extends s (Parse.arguments (n + 1)) (Parse.arguments (n' + 1)) fun _ => True := by
  have close (args : List Expr) :
      Extends s (do expect .rightParen "')' after arguments"; return args)
        (do expect .rightParen "')' after arguments"; return args) fun _ => True :=
    (extends_expect _ _).next fun _ => .pure trivial
  refine extends_advance.next fun _ => (extends_isNext _).next fun none => ?_
  split
  · exact close []
  · exact ih.expressionList.next close

theorem expressionList_succ :
    Extends s (Parse.expressionList (n + 1)) (Parse.expressionList (n' + 1)) fun _ => True := by
  refine ih.expression.next fun first => (extends_accept _).next fun more => ?_
  split
  · exact ih.expressionList.next fun rest => .pure trivial
  · exact .pure trivial

theorem fieldList_succ :
    Extends s (Parse.fieldList (n + 1)) (Parse.fieldList (n' + 1)) fun _ => True := by
  refine (extends_isNext _).next fun ended => ?_
  split
  · exact .pure trivial
  · refine extends_here.next fun start => extends_expectName.next fun name => ?_
    refine (extends_expect _ _).next fun _ => ih.expression.next fun value => ?_
    refine (extends_accept _).next fun more => ?_
    split
    · exact ih.fieldList.next fun rest => .pure trivial
    · exact .pure trivial

theorem access_succ (start : Position) (root : String) (steps : List Step) :
    Extends s (Parse.access (n + 1) start root steps) (Parse.access (n' + 1) start root steps)
      (·.position = start) := by
  refine (extends_accept _).next fun bracket => ?_
  split
  · refine ih.expression.next fun index => (extends_expect _ _).next fun _ => ?_
    exact ih.access start root (.index index :: steps)
  · refine (extends_accept _).next fun dot => ?_
    split
    · refine extends_here.next fun nameAt => extends_expectName.next fun name => ?_
      refine (extends_isNext _).next fun call => ?_
      split
      · have last (args : List Expr) : Extends s
            (do return Expr.method (← number start) root steps.reverse name nameAt args)
            (do return Expr.method (← number start) root steps.reverse name nameAt args)
            (·.position = start) :=
          (extends_number start).bind fun node same => .pure same
        have refused : Extends s (Parse.fail .methodNotLast : Parse Unit)
            (Parse.fail .methodNotLast) fun _ => True := .fail
        refine ih.arguments.next fun args => ?_
        refine (extends_isNext _).next fun dot => (extends_isNext _).next fun bracket => ?_
        split
        · exact refused.next fun _ => last args
        · exact last args
      · exact ih.access start root (.member name nameAt :: steps)
    · exact (extends_number start).bind fun node same => .pure same

theorem succ : ExprExtends s (n + 1) (n' + 1) where
  expression := ih.expression_succ
  sum := by
    refine ih.product.bind fun left place => (ih.sumTail left).mono fun e same => ?_
    rwa [same]
  sumTail := ih.sumTail_succ
  product := by
    refine ih.unary.bind fun left place => (ih.productTail left).mono fun e same => ?_
    rwa [same]
  productTail := ih.productTail_succ
  unary := ih.unary_succ
  primary := ih.primary_succ
  arguments := ih.arguments_succ
  expressionList := ih.expressionList_succ
  fieldList := ih.fieldList_succ
  access := ih.access_succ

end ExprExtends

theorem exprExtends {n n' : Nat} (more : n ≤ n') : ExprExtends s n n' := by
  induction n generalizing n' with
  | zero => exact .zero
  | succ n ih =>
    obtain ⟨n', rfl⟩ := Nat.exists_eq_add_of_le' (Nat.zero_lt_of_lt more)
    exact (ih (Nat.le_of_succ_le_succ more)).succ

section Statements

variable {n n' : Nat} (more : n ≤ n')
include more

theorem extends_condition (keyword : Keyword) :
    Extends s (condition n keyword) (condition n' keyword) fun _ => True := by
  refine (extends_expect _ _).next fun _ => (exprExtends more).expression.next fun test => ?_
  exact (extends_expect _ _).next fun _ => .pure trivial

theorem extends_declaration (isConst : Bool) :
    Extends s (declaration n isConst) (declaration n' isConst) fun _ => True := by
  refine extends_here.next fun start => extends_expectName.next fun name => ?_
  refine (extends_expect _ _).next fun _ => extends_type.next fun type => ?_
  refine (extends_number start).next fun node => (extends_accept _).next fun defined => ?_
  split
  · refine (exprExtends more).expression.next fun value => ?_
    exact (extends_expect _ _).next fun _ => .pure trivial
  · split
    · exact .fail
    · exact (extends_expect _ _).next fun _ => .pure trivial

theorem extends_expressionStatement :
    Extends s (expressionStatement n) (expressionStatement n') fun _ => True := by
  have expression : Extends s (expression n) (expression n') _ := (exprExtends more).expression
  -- Both places that failures have here were read before: that of the expression, if it cannot be
  -- assigned to, and that of the statement, if it does nothing.
  refine extends_here.bind fun start begins => expression.bind fun e place => ?_
  refine (extends_accept _).next fun assigned => ?_
  split
  · cases e with
    | place node root steps =>
      exact expression.next fun value => (extends_expect _ _).next fun _ => .pure trivial
    | _ => exact .failAt place
  · refine (extends_expect _ _).next fun _ => ?_
    cases e with
    | call | place | method => exact .pure trivial
    | _ => exact .failAt begins

end Statements

structure StmtExtends (s : Reader) (n n' : Nat) : Prop where
  block : Extends s (block n) (block n') fun _ => True
  statements : Extends s (statements n) (statements n') fun _ => True
  statement : Extends s (statement n) (statement n') fun _ => True
  elifList : Extends s (elifList n) (elifList n') fun _ => True

namespace StmtExtends

variable {n n' : Nat}

theorem zero : StmtExtends s 0 n' := by
  constructor <;> exact extends_tooDeep _ _

variable (more : n ≤ n') (ih : StmtExtends s n n')
include ih

theorem statements_succ :
    Extends s (Parse.statements (n + 1)) (Parse.statements (n' + 1)) fun _ => True := by
  refine (extends_accept _).next fun closed => ?_
  split
  · exact .pure trivial
  · refine extends_peek.next fun next => ?_
    split
    · exact .fail
    · exact ih.statement.next fun first => ih.statements.next fun rest => .pure trivial

include more

theorem elifList_succ :
    Extends s (Parse.elifList (n + 1)) (Parse.elifList (n' + 1)) fun _ => True := by
  refine (extends_acceptWord _).next fun found => ?_
  split
  · refine (extends_condition more _).next fun test => ih.block.next fun body => ?_
    exact ih.elifList.next fun rest => .pure trivial
  · exact .pure trivial

theorem statement_succ :
    Extends s (Parse.statement (n + 1)) (Parse.statement (n' + 1)) fun _ => True := by
  have declaration := extends_declaration (s := s) more
  refine extends_here.next fun start => extends_peek.next fun next => ?_
  split
  · exact extends_advance.next fun _ => declaration false
  · exact extends_advance.next fun _ => declaration true
  · exact extends_advance.next fun _ => ih.block.next fun body => .pure trivial
  · refine extends_advance.next fun _ => (extends_condition more _).next fun test => ?_
    refine ih.block.next fun body => ih.elifList.next fun elifs => ?_
    refine (extends_acceptWord _).next fun last => ?_
    split
    · exact ih.block.some_bind fun last => .pure trivial
    · exact .pure trivial
  · have last (value : Option Expr) : Extends s
        (do expectSemicolon "return statement"; return Stmt.return start value)
        (do expectSemicolon "return statement"; return Stmt.return start value) fun _ => True :=
      (extends_expect _ _).next fun _ => .pure trivial
    refine extends_advance.next fun _ => (extends_isNext _).next fun ended => ?_
    split
    · exact last none
    · exact (exprExtends more).expression.some_bind fun value => last (some value)
  · exact extends_advance.next fun _ => (extends_expect _ _).next fun _ => .pure trivial
  · exact extends_advance.next fun _ => (extends_expect _ _).next fun _ => .pure trivial
  · refine extends_peekSecond.next fun second => ?_
    split
    · exact declaration false
    · exact extends_expressionStatement more
  · exact extends_expressionStatement more

theorem succ : StmtExtends s (n + 1) (n' + 1) where
  block := (extends_expect _ _).next fun _ => ih.statements
  statements := ih.statements_succ
  statement := ih.statement_succ more
  elifList := ih.elifList_succ more

end StmtExtends

theorem stmtExtends {n n' : Nat} (more : n ≤ n') : StmtExtends s n n' := by
  induction n generalizing n' with
  | zero => exact .zero
  | succ n ih =>
    obtain ⟨n', rfl⟩ := Nat.exists_eq_add_of_le' (Nat.zero_lt_of_lt more)
    exact (ih (Nat.le_of_succ_le_succ more)).succ (Nat.le_of_succ_le_succ more)

section Definitions

variable {n n' : Nat} (more : n ≤ n')
include more

theorem extends_memberList : Extends s (memberList n) (memberList n') fun _ => True := by
  induction n generalizing n' with
  | zero => exact extends_tooDeep _ _
  | succ n ih =>
    obtain ⟨n', rfl⟩ := Nat.exists_eq_add_of_le' (Nat.zero_lt_of_lt more)
    have more := Nat.le_of_succ_le_succ more
    have last (m : Member) : Extends s
        (do if ← accept .comma then return m :: (← memberList n) else return [m])
        (do if ← accept .comma then return m :: (← memberList n') else return [m])
        fun _ => True := by
      refine (extends_accept _).next fun found => ?_
      split
      · exact (ih more).next fun rest => .pure trivial
      · exact .pure trivial
    refine (extends_isNext _).next fun ended => ?_
    split
    · exact .pure trivial
    · refine extends_here.next fun start => extends_expectName.next fun name => ?_
      refine (extends_expect _ _).next fun _ => extends_type.next fun type => ?_
      refine (extends_accept _).next fun given => ?_
      split
      · refine (exprExtends more).expression.some_bind fun e => ?_
        exact last ⟨name, type, some e, start⟩
      · exact last ⟨name, type, none, start⟩

theorem extends_entryList : Extends s (entryList n) (entryList n') fun _ => True := by
  induction n generalizing n' with
  | zero => exact extends_tooDeep _ _
  | succ n ih =>
    obtain ⟨n', rfl⟩ := Nat.exists_eq_add_of_le' (Nat.zero_lt_of_lt more)
    refine (extends_isNext _).next fun ended => ?_
    split
    · exact .pure trivial
    · refine extends_expectName.next fun entry => (extends_accept _).next fun found => ?_
      split
      · exact (ih (Nat.le_of_succ_le_succ more)).next fun rest => .pure trivial
      · exact .pure trivial

theorem extends_paramList : Extends s (paramList n) (paramList n') fun _ => True := by
  induction n generalizing n' with
  | zero => exact extends_tooDeep _ _
  | succ n ih =>
    obtain ⟨n', rfl⟩ := Nat.exists_eq_add_of_le' (Nat.zero_lt_of_lt more)
    refine extends_here.next fun start => extends_expectName.next fun name => ?_
    refine (extends_expect _ _).next fun _ => (extends_accept _).next fun byReference => ?_
    refine extends_type.next fun type => (extends_accept _).next fun found => ?_
    split
    · exact (ih (Nat.le_of_succ_le_succ more)).next fun rest => .pure trivial
    · exact .pure trivial

theorem extends_struct : Extends s (struct n) (struct n') fun _ => True := by
  refine extends_here.next fun start => extends_expectName.next fun name => ?_
  refine (extends_expect _ _).next fun _ => (extends_memberList more).next fun members => ?_
  exact (extends_expect _ _).next fun _ => .pure trivial

theorem extends_enum : Extends s (enum n) (enum n') fun _ => True := by
  refine extends_here.next fun start => extends_expectName.next fun name => ?_
  refine (extends_expect _ _).next fun _ => (extends_entryList more).next fun entries => ?_
  exact (extends_expect _ _).next fun _ => .pure trivial

theorem extends_function : Extends s (function n) (function n') fun _ => True := by
  refine extends_here.next fun start => extends_expectName.next fun name => ?_
  refine (extends_expect _ _).next fun _ => (extends_isNext _).next fun empty => ?_
  have body (params : List Param) (returns : Option Ty) : Extends s
      (do return Function.mk name params returns (← block n) start)
      (do return Function.mk name params returns (← block n') start) fun _ => True :=
    (stmtExtends more).block.next fun body => .pure trivial
  have rest (params : List Param) : Extends s
      (do
        expect .rightParen "')' after parameters"
        let returns ← if ← accept .colon then some <$> type else pure none
        return Function.mk name params returns (← block n) start)
      (do
        expect .rightParen "')' after parameters"
        let returns ← if ← accept .colon then some <$> type else pure none
        return Function.mk name params returns (← block n') start) fun _ => True := by
    refine (extends_expect _ _).next fun _ => (extends_accept _).next fun valued => ?_
    split
    · exact extends_type.some_bind fun type => body params (some type)
    · exact body params none
  split
  · exact rest []
  · exact (extends_paramList more).next rest

end Definitions
end Parse

theorem Definition.extends_parse {s : Reader} {n n' : Nat} (more : n ≤ n') :
    Parse.Extends s (parse n) (parse n') fun _ => True := by
  refine Parse.extends_peek.next fun next => ?_
  split
  · exact Parse.extends_advance.next fun _ => (Parse.extends_struct more).next fun s =>
      .pure trivial
  · exact Parse.extends_advance.next fun _ => (Parse.extends_enum more).next fun e =>
      .pure trivial
  · exact Parse.extends_advance.next fun _ => (Parse.extends_function more).next fun f =>
      .pure trivial
  · exact (Parse.extends_function more).next fun f => .pure trivial

end LoopLang
