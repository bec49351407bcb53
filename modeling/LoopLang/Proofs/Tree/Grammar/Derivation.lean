import LoopLang.Proofs.Tree.Grammar
import LoopLang.Proofs.Tree.Grammar.Taking
import LoopLang.Proofs.Tree.Spelled

namespace LoopLang

namespace Parse

open Grammar (Derives accepted Form Nonterminal Kind)

/-- An expression that a statement may consist of or assign to can be derived as such. -/
def Shaped : Expr → List Token → Prop
  | .place .., ts =>
    Derives accepted (.rule .target) ts [] ∧ Derives accepted (.rule .invocation) ts []
  | .call .., ts | .method .., ts => Derives accepted (.rule .invocation) ts []
  | _, _ => True

structure ExprDerived (n : Nonterminal) (e : Expr) (ts : List Token) : Prop where
  derived : Derives accepted (.rule n) ts []
  shaped : Shaped e ts

/-- The steps of an access, of which the first ones may have been read before. -/
def StepsDerived : Expr → List Token → Prop
  | .place .., ts => Derives accepted (.many .step) ts []
  | .method .., ts =>
    ∃ ts1 ts2, Derives accepted (.many .step) ts1 [] ∧
      Derives accepted (.mark .dot >> .rule .call) ts2 [] ∧ ts = ts1 ++ ts2
  | _, _ => False

theorem StepsDerived.cons {e : Expr} {ts ts' : List Token}
    (first : Derives accepted .step ts []) (others : StepsDerived e ts') :
    StepsDerived e (ts ++ ts') := by
  cases e with
  | place => exact .more first others
  | method =>
    obtain ⟨ts1, ts2, steps, last, rfl⟩ := others
    exact ⟨ts ++ ts1, ts2, .more first steps, last, (List.append_assoc ..).symm⟩
  | _ => exact others.elim

theorem StepsDerived.primary {e : Expr} {root : String} {ts : List Token}
    (h : StepsDerived e ts) : ExprDerived .primary e (.name root :: ts) := by
  have primary_of_access {ts : List Token} (access : Derives accepted (.rule .access) ts []) :
      Derives accepted (.rule .primary) ts [] :=
    .rule (.right (.right (.right (.right (.right (.right (.right (.right (.right access)))))))))
  have root_then {ts : List Token} (steps : Derives accepted (.many .step) ts []) :
      Derives accepted (.rule .place) (.name root :: ts) [] := .rule steps.name_then
  cases e with
  | place =>
    have place := root_then h
    have access : Derives accepted (.rule .access) (.name root :: ts) [] := by
      have alone := place.join (Derives.none (a := .mark .dot >> .rule .call))
      rw [List.append_nil] at alone
      exact .rule alone
    exact ⟨primary_of_access access, .rule (.left place), .rule (.right (.left access))⟩
  | method =>
    obtain ⟨ts1, ts2, steps, last, rfl⟩ := h
    have access : Derives accepted (.rule .access) (.name root :: (ts1 ++ ts2)) [] :=
      .rule ((root_then steps).join (.some last))
    exact ⟨primary_of_access access, .rule (.right (.left access))⟩
  | _ => exact h.elim

theorem derives_literal {t : Token} {value : Literal} (h : literal? t = some value) :
    Derives accepted (.rule .primary) [t] [] := by
  cases t with
  | integer => exact .rule (.left (.terminal trivial))
  | float => exact .rule (.right (.left (.terminal trivial)))
  | string => exact .rule (.right (.right (.left (.terminal trivial))))
  | char => exact .rule (.right (.right (.right (.left (.terminal trivial)))))
  | keyword word =>
    cases word with
    | true_ => exact .rule (.right (.right (.right (.right (.left (.terminal rfl))))))
    | false_ => exact .rule (.right (.right (.right (.right (.right (.left (.terminal rfl)))))))
    | _ => cases h
  | _ => cases h

theorem derives_negative {t : Token} {value : Literal} (h : negative? t = some value) :
    Derives accepted (.rule .unary) [t] [] := by
  refine .rule (.right ?_)
  cases t with
  | integer n => exact derives_literal (rfl : literal? (.integer n) = some (.integer n))
  | float x => exact derives_literal (rfl : literal? (.float x) = some (.float x))
  | _ => cases h

theorem derives_comparand {t : Token} {op : CompareOp} {ts : List Token}
    (h : comparison? t = some op) (operand : Derives accepted (.rule .sum) ts []) :
    Derives accepted .comparand (t :: ts) [] := by
  refine Derives.token_then ?_ operand
  cases t with
  | symbol mark =>
    cases mark with
    | equalEqual => exact .left (.terminal rfl)
    | notEqual => exact .right (.left (.terminal rfl))
    | less => exact .right (.right (.left (.terminal rfl)))
    | lessEqual => exact .right (.right (.right (.left (.terminal rfl))))
    | greater => exact .right (.right (.right (.right (.left (.terminal rfl)))))
    | greaterEqual => exact .right (.right (.right (.right (.right (.terminal rfl)))))
    | _ => cases h
  | _ => cases h

theorem derives_addend {t : Token} {op : MathOp} {ts : List Token} (h : sum? t = some op)
    (operand : Derives accepted (.rule .product) ts []) :
    Derives accepted .addend (t :: ts) [] := by
  refine Derives.token_then ?_ operand
  cases t with
  | symbol mark =>
    cases mark with
    | plus => exact .left (.terminal rfl)
    | minus => exact .right (.terminal rfl)
    | _ => cases h
  | _ => cases h

theorem derives_factor {t : Token} {op : MathOp} {ts : List Token} (h : product? t = some op)
    (operand : Derives accepted (.rule .unary) ts []) :
    Derives accepted .factor (t :: ts) [] := by
  refine Derives.token_then ?_ operand
  cases t with
  | symbol mark =>
    cases mark with
    | star => exact .left (.terminal rfl)
    | slash => exact .right (.left (.terminal rfl))
    | percent => exact .right (.right (.terminal rfl))
    | _ => cases h
  | _ => cases h

structure ExprTakes (fuel : Nat) : Prop where
  expression {next} : (expression fuel).Takes next (ExprDerived .expr)
  sum {next} : (sum fuel).Takes next (ExprDerived .sum)
  sumTail {next left ts} : Shaped left ts → (sumTail fuel left).Takes next fun e ts' =>
    Derives accepted (.many .addend) ts' [] ∧ Shaped e (ts ++ ts')
  product {next} : (product fuel).Takes next (ExprDerived .product)
  productTail {next left ts} : Shaped left ts → (productTail fuel left).Takes next fun e ts' =>
    Derives accepted (.many .factor) ts' [] ∧ Shaped e (ts ++ ts')
  unary {next} : (unary fuel).Takes next (ExprDerived .unary)
  primary {next} : (primary fuel).Takes next (ExprDerived .primary)
  arguments : (arguments fuel).Takes (some (.symbol .leftParen)) fun _ ts =>
    Derives accepted (.between .leftParen .rightParen (.rule .args)) ts []
  expressionList {next} : (expressionList fuel).Takes next fun _ ts =>
    Derives accepted (.separated (.rule .expr)) ts []
  fieldList {next} : (fieldList fuel).Takes next fun _ ts =>
    Derives accepted (.rule .fields) ts []
  access {next start root steps} : (access fuel start root steps).Takes next StepsDerived

namespace ExprTakes

variable {fuel : Nat} {next : Option Token}

theorem zero : ExprTakes 0 := by constructor <;> intros <;> exact .fail

theorem expression_succ (ih : ExprTakes fuel) :
    (Parse.expression (fuel + 1)).Takes next (ExprDerived .expr) := by
  rw [Parse.expression]
  refine ih.sum.bind fun left ts first next => .operator (fun t op next own => ?_) (.pure ?_)
  · refine ih.sum.bind fun right ts' second next => .number fun node => .pure ⟨?_, trivial⟩
    rw [List.append_nil]
    exact .rule (first.derived.join (.some (derives_comparand own second.derived)))
  · rw [List.append_nil]
    have alone := first.derived.join (Derives.none (a := .comparand))
    rw [List.append_nil] at alone
    exact ⟨.rule alone, first.shaped⟩

theorem sumTail_succ (ih : ExprTakes fuel) {left : Expr} {ts : List Token}
    (shaped : Shaped left ts) : (Parse.sumTail (fuel + 1) left).Takes next fun e ts' =>
      Derives accepted (.many .addend) ts' [] ∧ Shaped e (ts ++ ts') := by
  rw [Parse.sumTail]
  refine .operator (fun t op next own => ?_) (.pure ⟨.nil, by rwa [List.append_nil]⟩)
  refine ih.product.bind fun right ts1 second next => .number fun node => ?_
  have chained : Shaped (.math node op left right) (ts ++ t :: ts1) := trivial
  refine (ih.sumTail chained).mono fun e ts2 rest => ?_
  refine ⟨.more (derives_addend own second.derived) rest.1, ?_⟩
  simpa only [List.append_assoc, List.cons_append] using rest.2

theorem sum_succ (ih : ExprTakes fuel) :
    (Parse.sum (fuel + 1)).Takes next (ExprDerived .sum) := by
  rw [Parse.sum]
  refine ih.product.bind fun left ts first next => ?_
  refine (ih.sumTail first.shaped).mono fun e ts' rest => ?_
  exact ⟨.rule (first.derived.join rest.1), rest.2⟩

theorem productTail_succ (ih : ExprTakes fuel) {left : Expr} {ts : List Token}
    (shaped : Shaped left ts) : (Parse.productTail (fuel + 1) left).Takes next fun e ts' =>
      Derives accepted (.many .factor) ts' [] ∧ Shaped e (ts ++ ts') := by
  rw [Parse.productTail]
  refine .operator (fun t op next own => ?_) (.pure ⟨.nil, by rwa [List.append_nil]⟩)
  refine ih.unary.bind fun right ts1 second next => .number fun node => ?_
  have chained : Shaped (.math node op left right) (ts ++ t :: ts1) := trivial
  refine (ih.productTail chained).mono fun e ts2 rest => ?_
  refine ⟨.more (derives_factor own second.derived) rest.1, ?_⟩
  simpa only [List.append_assoc, List.cons_append] using rest.2

theorem product_succ (ih : ExprTakes fuel) :
    (Parse.product (fuel + 1)).Takes next (ExprDerived .product) := by
  rw [Parse.product]
  refine ih.unary.bind fun left ts first next => ?_
  refine (ih.productTail first.shaped).mono fun e ts' rest => ?_
  exact ⟨.rule (first.derived.join rest.1), rest.2⟩

theorem unary_succ (ih : ExprTakes fuel) :
    (Parse.unary (fuel + 1)).Takes next (ExprDerived .unary) := by
  have signed {sign : Token} {op : UnaryOp} {start : Position} {next' : Option Token}
      (own : Derives accepted (.word .not_ <|> .mark .bang <|> .mark .minus) [sign] []) :
      (do
        let operand ← Parse.unary fuel
        return Expr.unary (← number start) op operand).Takes next'
          fun e ts => ExprDerived .unary e (sign :: ts) := by
    refine ih.unary.bind fun operand ts h next => .number fun node => .pure ⟨?_, trivial⟩
    rw [List.append_nil]
    exact .rule (.left (own.join h.derived))
  rw [Parse.unary]
  refine .here fun start => .peek ?_
  split
  · exact .advance fun next => signed (.left (.terminal rfl))
  · exact .advance fun next => signed (.right (.left (.terminal rfl)))
  · refine .advance fun next => .peek ?_
    split
    · rename_i value found
      obtain ⟨t, rfl, own⟩ := Option.bind_eq_some_iff.mp found
      refine .advance fun next => .number fun node => .pure ⟨?_, trivial⟩
      exact .rule (.left (Derives.token_then (.right (.right .mark)) (derives_negative own)))
    · exact signed (.right (.right (.terminal rfl)))
  · exact ih.primary.mono fun e ts h => ⟨.rule (.right h.derived), h.shaped⟩

theorem primary_succ (ih : ExprTakes fuel) :
    (Parse.primary (fuel + 1)).Takes next (ExprDerived .primary) := by
  rw [Parse.primary]
  refine .here fun start => .peek ?_
  split
  · rename_i value found
    obtain ⟨t, rfl, own⟩ := Option.bind_eq_some_iff.mp found
    exact .advance fun next => .number fun node => .pure ⟨derives_literal own, trivial⟩
  · refine .advance fun next => ih.expression.bind fun inner ts h next => .expect fun next =>
      .pure ⟨?_, ?_⟩
    · exact .rule (.right (.right (.right (.right (.right (.right (.left h.derived.between)))))))
    · cases inner with
      | place =>
        exact ⟨.rule (.right h.shaped.1.between), .rule (.right (.right h.shaped.2.between))⟩
      | call => exact .rule (.right (.right h.shaped.between))
      | method => exact .rule (.right (.right h.shaped.between))
      | _ => trivial
  · rename_i name _
    refine .advance fun next => .isNext (fun called => ?_) (.accept (fun next => ?_) ?_)
    · subst called
      refine ih.arguments.bind fun args ts h next => .number fun node => .pure ?_
      rw [List.append_nil]
      have call : Derives accepted (.rule .call) (.name name :: ts) [] := .rule h.name_then
      refine ⟨?_, .rule (.left call)⟩
      exact .rule (.right (.right (.right (.right (.right (.right (.right (.left call))))))))
    · refine ih.fieldList.bind fun fields ts h next => .expect fun next => .number fun node =>
        .pure ⟨?_, trivial⟩
      exact .rule (.right (.right (.right (.right (.right (.right (.right (.right (.left
        h.between.name_then)))))))))
    · exact ih.access.mono fun e ts h => h.primary
  · exact .fail

theorem arguments_succ (ih : ExprTakes fuel) :
    (Parse.arguments (fuel + 1)).Takes (some (.symbol .leftParen)) fun _ ts =>
      Derives accepted (.between .leftParen .rightParen (.rule .args)) ts [] := by
  rw [Parse.arguments]
  have closed {args : List Expr} {ts : List Token} {next : Option Token}
      (h : Derives accepted (.rule .args) ts []) :
      (do
        expect .rightParen "')' after arguments"
        return args).Takes next fun _ ts' =>
          Derives accepted (.between .leftParen .rightParen (.rule .args))
            (.symbol .leftParen :: (ts ++ ts')) [] :=
    .expect fun next => .pure h.between
  refine .advance fun next => .looking fun empty => ?_
  split
  · exact Takes.bind (P := fun _ ts => Derives accepted (.rule .args) ts [])
      (.pure (.rule .none)) fun args ts h next => closed h
  · exact ih.expressionList.bind fun args ts h next => closed (.rule (.some h))

theorem expressionList_succ (ih : ExprTakes fuel) :
    (Parse.expressionList (fuel + 1)).Takes next fun _ ts =>
      Derives accepted (.separated (.rule .expr)) ts [] := by
  rw [Parse.expressionList]
  refine ih.expression.bind fun e ts first next => .accept (fun next => ?_) (.pure ?_)
  · refine .map (ih.expressionList.mono fun es ts' others => ?_)
    exact first.derived.join others.further
  · exact first.derived.join .nil

theorem fieldList_succ (ih : ExprTakes fuel) :
    (Parse.fieldList (fuel + 1)).Takes next fun _ ts => Derives accepted (.rule .fields) ts [] := by
  rw [Parse.fieldList]
  refine .isNext (fun _ => .pure (.rule .none)) (.here fun start => .expectName fun name next =>
    .expect fun next => ih.expression.bind fun value ts h next => ?_)
  have field : Derives accepted .field (.name name :: .symbol .colon :: ts) [] :=
    h.derived.mark_then.name_then
  refine .accept (fun next => ?_) (.pure ?_)
  · refine .map (ih.fieldList.mono fun fields ts' others => ?_)
    cases others with
    | rule listed => exact .rule (field.listed_more listed)
  · rw [List.append_nil]
    exact .rule field.listed_one

theorem access_succ (ih : ExprTakes fuel) {start : Position} {root : String} {steps : List Step} :
    (Parse.access (fuel + 1) start root steps).Takes next StepsDerived := by
  rw [Parse.access]
  refine .accept (fun next => ?_) (.accept (fun next => ?_) ?_)
  · refine ih.expression.bind fun index ts h next => .expect fun next => ?_
    refine ih.access.mono fun e ts' others => ?_
    have bracketed := others.cons (.left h.derived.between)
    simpa only [List.cons_append, List.append_assoc, List.nil_append] using bracketed
  · refine .here fun nameAt => .expectName fun name next => .isNext (fun called => ?_) ?_
    · subst called
      refine ih.arguments.bind fun args ts h next => .looking fun _ => .looking fun _ => ?_
      split
      · exact Takes.fail.bind (P := fun _ _ => False) fun _ _ no => no.elim
      · refine .number fun node => .pure ?_
        rw [List.append_nil]
        exact ⟨[], _, .nil, .mark_then (.rule h.name_then), rfl⟩
    · refine ih.access.mono fun e ts' others => ?_
      have step : Derives accepted .step [.symbol .dot, .name name] [] :=
        .right (Derives.name.mark_then)
      exact others.cons step
  · exact .number fun node => .pure .nil

end ExprTakes

theorem exprTakes : (fuel : Nat) → ExprTakes fuel
  | 0 => .zero
  | fuel + 1 =>
    have ih := exprTakes fuel
    { expression := ih.expression_succ
      sum := ih.sum_succ
      sumTail := ih.sumTail_succ
      product := ih.product_succ
      productTail := ih.productTail_succ
      unary := ih.unary_succ
      primary := ih.primary_succ
      arguments := ih.arguments_succ
      expressionList := ih.expressionList_succ
      fieldList := ih.fieldList_succ
      access := ih.access_succ }

section Statements

variable {fuel : Nat} {next : Option Token}

theorem type_takes : type.Takes next fun _ ts => Derives accepted (.rule .type) ts [] := by
  refine .accept (fun next => ?_) (.peek ?_)
  · refine .expectName fun name next => .expect fun next => .pure ?_
    have element : Derives accepted .name [.name name] [] := .name
    exact .rule (.right element.between)
  · split
    · exact .advance fun next => .pure (.rule (.left .name))
    · exact .fail

theorem condition_takes {keyword : Keyword} :
    (condition fuel keyword).Takes next fun _ ts =>
      Derives accepted (.between .leftParen .rightParen (.rule .expr)) ts [] :=
  .expect fun _ => (exprTakes fuel).expression.bind fun _ _ h _ => .expect fun _ =>
    .pure h.derived.between

theorem declaration_takes {isConst : Bool} :
    (declaration fuel isConst).Takes next fun _ ts =>
      Derives accepted (.name >> .mark .colon >> .rule .type >>
        (if isConst then .value else .optional .value) >> .mark .semicolon) ts [] := by
  refine .here fun start => .expectName fun name next => .expect fun next =>
    type_takes.bind fun type ts typed next => .number fun node => .accept (fun next => ?_) ?_
  · refine (exprTakes fuel).expression.bind fun value ts' h next => .expect fun next => .pure ?_
    have given : Derives accepted .value (.symbol .equal :: ts') [] := h.derived.mark_then
    cases isConst with
    | true => exact (typed.join (given.join .mark)).mark_then.name_then
    | false => exact (typed.join ((Derives.some given).join .mark)).mark_then.name_then
  · cases isConst with
    | true => exact .fail
    | false =>
      exact .expect fun next => .pure (typed.join (Derives.none.join .mark)).mark_then.name_then

theorem expressionStatement_takes :
    (expressionStatement fuel).Takes next fun _ ts =>
      Derives accepted (.rule .statement) ts [] := by
  refine .here fun start => (exprTakes fuel).expression.bind fun e ts h next =>
    .accept (fun next => ?_) ?_
  · split
    · refine (exprTakes fuel).expression.bind fun value ts' given next => .expect fun next =>
        .pure ?_
      have assigned := h.shaped.1.join
        ((given.derived.mark_then (s := .equal)).join (Derives.mark (s := .semicolon)))
      exact .rule (.right (.right (.right (.right (.right (.right (.right (.left assigned))))))))
    · exact .failAt
  · refine .expect fun next => ?_
    have called (invocation : Derives accepted (.rule .invocation) ts []) :
        Derives accepted (.rule .statement) (ts ++ [.symbol .semicolon]) [] :=
      .rule (.right (.right (.right (.right (.right (.right (.right (.right
        (invocation.join .mark)))))))))
    split
    · exact .pure (called h.shaped)
    · exact .pure (called h.shaped.2)
    · exact .pure (called h.shaped)
    · exact .failAt

end Statements

def StatementsDerived (_ : List Stmt) (ts : List Token) : Prop :=
  ∃ body, Derives accepted (.many (.rule .statement)) body [] ∧ ts = body ++ [.symbol .rightBrace]

structure StmtTakes (fuel : Nat) : Prop where
  block {next} : (block fuel).Takes next fun _ ts => Derives accepted (.rule .block) ts []
  statements {next} : (statements fuel).Takes next StatementsDerived
  statement {next} : (statement fuel).Takes next fun _ ts =>
    Derives accepted (.rule .statement) ts []
  elifList {next} : (elifList fuel).Takes next fun _ ts =>
    Derives accepted (.many (.word .elif >> .branch)) ts []

namespace StmtTakes

variable {fuel : Nat} {next : Option Token}

theorem statements_succ (ih : StmtTakes fuel) :
    (Parse.statements (fuel + 1)).Takes next StatementsDerived := by
  rw [Parse.statements]
  refine .accept (fun next => .pure ⟨[], .nil, rfl⟩) (.peek ?_)
  split
  · exact .fail
  · refine ih.statement.bind fun s ts first next => .map (ih.statements.mono fun rest ts' h => ?_)
    obtain ⟨others, derived, rfl⟩ := h
    exact ⟨ts ++ others, .more first derived, (List.append_assoc ..).symm⟩

theorem elifList_succ (ih : StmtTakes fuel) :
    (Parse.elifList (fuel + 1)).Takes next fun _ ts =>
      Derives accepted (.many (.word .elif >> .branch)) ts [] := by
  rw [Parse.elifList]
  refine .acceptWord (fun next => ?_) (.pure .nil)
  refine condition_takes.bind fun test ts h next => ih.block.bind fun body ts' h' next =>
    .map (ih.elifList.mono fun rest ts'' others => ?_)
  have branch : Derives accepted (.word .elif >> .branch) (.keyword .elif :: (ts ++ ts')) [] :=
    (h.join h').word_then
  simpa only [List.cons_append, List.append_assoc] using branch.more others

theorem statement_succ (ih : StmtTakes fuel) :
    (Parse.statement (fuel + 1)).Takes next fun _ ts =>
      Derives accepted (.rule .statement) ts [] := by
  rw [Parse.statement]
  refine .here fun start => .peek ?_
  split
  · refine .advance fun next => declaration_takes.mono fun s ts h => ?_
    exact .rule (.left ((Derives.some .word).join h))
  · refine .advance fun next => declaration_takes.mono fun s ts h => ?_
    exact .rule (.right (.left h.word_then))
  · refine .advance fun next => .map (ih.block.mono fun body ts h => ?_)
    exact .rule (.right (.right (.left h.word_then)))
  · refine .advance fun next => condition_takes.bind fun test ts h next =>
      ih.block.bind fun body ts' h' next => ih.elifList.bind fun elifs ts'' h'' next => ?_
    have chosen {last : List Token}
        (h3 : Derives accepted (.optional (.word .else_ >> .rule .block)) last []) :
        Derives accepted (.rule .statement)
          (.keyword .if_ :: (ts ++ (ts' ++ (ts'' ++ last)))) [] := by
      have all : Derives accepted (.word .if_ >> .branch >> _) _ [] :=
        ((h.join h').join (h''.join h3)).word_then
      rw [List.append_assoc] at all
      exact .rule (.right (.right (.right (.left all))))
    refine .acceptWord (fun next => .map (.map (ih.block.mono fun body ts3 h3 => ?_)))
      (.map (.pure (chosen .none)))
    exact chosen (.some h3.word_then)
  · refine .advance fun next => .looking fun empty => ?_
    have returned {value : Option Expr} {ts : List Token} {next : Option Token}
        (h : Derives accepted (.optional (.rule .expr)) ts []) :
        (do
          expectSemicolon "return statement"
          return Stmt.return start value).Takes next fun _ ts' =>
            Derives accepted (.rule .statement) (.keyword .return_ :: (ts ++ ts')) [] :=
      .expect fun next => .pure
        (.rule (.right (.right (.right (.right (.left (h.join .mark).word_then))))))
    split
    · exact Takes.bind (P := fun _ ts => Derives accepted (.optional (.rule .expr)) ts [])
        (.pure .none) fun value ts h next => returned h
    · exact Takes.bind (P := fun _ ts => Derives accepted (.optional (.rule .expr)) ts [])
        (.map ((exprTakes fuel).expression.mono fun e ts h => .some h.derived))
        fun value ts h next => returned h
  · refine .advance fun next => .expect fun next => .pure ?_
    exact .rule (.right (.right (.right (.right (.right (.left Derives.mark.word_then))))))
  · refine .advance fun next => .expect fun next => .pure ?_
    exact .rule (.right (.right (.right (.right (.right (.right (.left Derives.mark.word_then)))))))
  · refine .peekSecond fun second => ?_
    split
    · refine declaration_takes.mono fun s ts h => ?_
      exact .rule (.left ((Derives.none (a := .word .var)).join h))
    · exact expressionStatement_takes
  · exact expressionStatement_takes

end StmtTakes

theorem stmtTakes : (fuel : Nat) → StmtTakes fuel
  | 0 => by constructor <;> intros <;> exact .fail
  | fuel + 1 =>
    have ih := stmtTakes fuel
    { block := by
        intro next
        rw [Parse.block]
        refine .expect fun next => ih.statements.mono fun body ts h => ?_
        obtain ⟨inner, derived, rfl⟩ := h
        exact .rule derived.between
      statements := ih.statements_succ
      statement := ih.statement_succ
      elifList := ih.elifList_succ }

def partNames (names : List String) : List (Kind × String) := names.map fun name => (.part, name)

section Lists

variable {fuel : Nat} {next : Option Token}

theorem optional_takes {mark : Symbol} :
    (accept mark).Takes next fun _ ts => Derives accepted (.optional (.mark mark)) ts [] := by
  rw [Parse.accept]
  refine .peek ?_
  split
  · rename_i same
    rw [same]
    exact .advance fun next => .pure (.some .mark)
  · exact .pure .none

theorem memberList_takes : (memberList fuel).Takes next fun members ts =>
    Derives accepted (.rule .members) ts (partNames (members.map Member.name)) := by
  induction fuel generalizing next with
  | zero => exact .fail
  | succ fuel ih =>
    rw [memberList]
    refine .looking fun empty => ?_
    split
    · exact .pure (.rule .none)
    · refine .here fun start => .expectName fun name next => .expect fun next =>
        type_takes.bind fun type ts typed next => ?_
      have rest {default : Option Expr} {ts' : List Token} {next : Option Token}
          (given : Derives accepted (.optional .value) ts' []) :
          (do
            let member := Member.mk name type default start
            if ← accept .comma then return member :: (← memberList fuel)
            else return [member]).Takes next fun members ts'' =>
              Derives accepted (.rule .members)
                (.name name :: .symbol .colon :: (ts ++ (ts' ++ ts'')))
                (partNames (members.map Member.name)) := by
        have member : Derives accepted .member (.name name :: .symbol .colon :: (ts ++ ts'))
          [(.part, name)] := Derives.defined.seq (typed.join given).mark_then
        refine .accept (fun next => .map (ih.mono fun members ts'' others => ?_)) (.pure ?_)
        · cases others with
          | rule listed =>
            rw [← List.append_assoc]
            exact .rule (member.listed_more listed)
        · rw [List.append_nil]
          exact .rule member.listed_one
      refine .accept (fun next => ?_) ?_
      · refine Takes.bind (P := fun _ ts' => Derives accepted (.rule .expr) ts' [])
          (.map ((exprTakes fuel).expression.mono fun e ts' h => h.derived))
          fun default ts' h next => ?_
        exact rest (.some (h.mark_then (s := .equal)))
      · exact Takes.bind (P := fun _ ts' => Derives accepted (.optional .value) ts' [])
          (.pure .none) fun default ts' h next => rest h

theorem entryList_takes : (entryList fuel).Takes next fun entries ts =>
    Derives accepted (.rule .entries) ts (partNames entries) := by
  induction fuel generalizing next with
  | zero => exact .fail
  | succ fuel ih =>
    rw [entryList]
    refine .looking fun empty => ?_
    split
    · exact .pure (.rule .none)
    · refine .expectName fun entry next =>
        .accept (fun next => .map (ih.mono fun entries ts others => ?_)) (.pure ?_)
      · cases others with
        | rule listed => exact .rule (Derives.defined.listed_more listed)
      · exact .rule Derives.defined.listed_one

theorem paramList_takes : (paramList fuel).Takes next fun _ ts =>
    Derives accepted (.separated (.rule .param)) ts [] := by
  induction fuel generalizing next with
  | zero => exact .fail
  | succ fuel ih =>
    rw [paramList]
    refine .here fun start => .expectName fun name next => .expect fun next =>
      optional_takes.bind fun byReference ts star next =>
      type_takes.bind fun type ts' typed next => ?_
    have param : Derives accepted (.rule .param) (.name name :: .symbol .colon :: (ts ++ ts')) [] :=
      .rule (star.join typed).mark_then.name_then
    refine .accept (fun next => .map (ih.mono fun params ts'' others => ?_)) (.pure ?_)
    · rw [← List.append_assoc]
      exact param.join others.further
    · rw [List.append_nil]
      have alone := param.join (Derives.nil (a := .mark .comma >> .rule .param))
      rwa [List.append_nil] at alone

theorem struct_takes : (struct fuel).Takes next fun s ts =>
    Derives accepted (.defined .type >> .between .leftBrace .rightBrace (.rule .members)) ts
      ((.type, s.name) :: partNames (s.members.map Member.name)) :=
  .here fun _ => .expectName fun _ _ => .expect fun _ => memberList_takes.bind fun _ _ h _ =>
    .expect fun _ => .pure (Derives.defined.seq h.between)

theorem enum_takes : (enum fuel).Takes next fun e ts =>
    Derives accepted (.defined .type >> .between .leftBrace .rightBrace (.rule .entries)) ts
      ((.type, e.name) :: partNames e.entries) :=
  .here fun _ => .expectName fun _ _ => .expect fun _ => entryList_takes.bind fun _ _ h _ =>
    .expect fun _ => .pure (Derives.defined.seq h.between)

def FunctionDerived (f : Function) (ts : List Token) : Prop :=
  Derives accepted (.defined .function >> .between .leftParen .rightParen .params >> .result >>
    .rule .block) ts [(.function, f.name)]

theorem function_takes : (function fuel).Takes next FunctionDerived := by
  refine .here fun start => .expectName fun name next => .expect fun next =>
    .looking fun empty => ?_
  have rest {params : List Param} {ts : List Token} {next : Option Token}
      (given : Derives accepted .params ts []) :
      (do
        expect .rightParen "')' after parameters"
        let returns ← if ← accept .colon then some <$> type else pure none
        let body ← block fuel
        return (⟨name, params, returns, body, start⟩ : Function)).Takes next fun f ts' =>
          FunctionDerived f (.name name :: .symbol .leftParen :: (ts ++ ts')) := by
    have ends {returns : Option Ty} {ts' : List Token} {next : Option Token}
        (typed : Derives accepted .result ts' []) :
        (do
          let body ← block fuel
          return (⟨name, params, returns, body, start⟩ : Function)).Takes next fun f ts'' =>
            FunctionDerived f (.name name :: .symbol .leftParen ::
              (ts ++ Token.symbol .rightParen :: (ts' ++ ts''))) := by
      refine (stmtTakes fuel).block.bind fun body ts'' h next => .pure ?_
      rw [List.append_nil]
      exact Derives.defined.seq (given.between_then (typed.join h))
    refine .expect fun next => .accept (fun next => ?_) ?_
    · refine Takes.bind (P := fun _ ts' => Derives accepted (.rule .type) ts' [])
        (.map type_takes) fun returns ts' h next => ?_
      exact ends (.some (h.mark_then (s := .colon)))
    · exact Takes.bind (P := fun _ ts' => Derives accepted .result ts' []) (.pure .none)
        fun returns ts' h next => ends h
  split
  · exact Takes.bind (P := fun _ ts => Derives accepted .params ts []) (.pure .none)
      fun params ts h next => rest h
  · exact paramList_takes.bind fun params ts h next => rest (.some h)

end Lists
end Parse

namespace Definition

open Grammar (Derives accepted Form Kind)

def names : Definition → List (Kind × String)
  | function f => [(.function, f.name)]
  | struct s => (.type, s.name) :: Parse.partNames (s.members.map Member.name)
  | enum e => (.type, e.name) :: Parse.partNames e.entries

theorem parse_takes {fuel : Nat} {next : Option Token} :
    (parse fuel).Takes next fun d ts =>
      Derives accepted (.rule .struct <|> .rule .enum <|> .rule .function) ts d.names := by
  refine .peek ?_
  split
  · exact .advance fun next =>
      .map (Parse.struct_takes.mono fun s ts h => .left (.rule h.word_then))
  · exact .advance fun next => .map (Parse.enum_takes.mono fun e ts h =>
      .right (.left (.rule h.word_then)))
  · exact .advance fun next => .map (Parse.function_takes.mono fun f ts h =>
      .right (.right (.rule ((Derives.some .word).join h))))
  · exact .map (Parse.function_takes.mono fun f ts h =>
      .right (.right (.rule (Derives.none.join (a := .optional (.word .func)) h))))

end Definition

theorem Reader.Spells.derives {fuel : Nat} {r : Reader} {ds : List Definition}
    (spelled : r.Spells fuel ds) :
    Grammar.Derives Grammar.accepted (.rule .program) (r.rest.map (·.token))
      (ds.flatMap Definition.names) := by
  refine .rule ?_
  induction spelled with
  | nil nothing_left =>
    rw [nothing_left]
    exact .nil
  | cons read others ih =>
    obtain ⟨ts, taken, own⟩ := Definition.parse_takes _ _ _ rfl read
    rw [taken]
    exact .cons own ih

end LoopLang
