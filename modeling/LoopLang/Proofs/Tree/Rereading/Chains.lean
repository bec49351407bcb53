import LoopLang.Proofs.Tree.Rereading.Rules
import LoopLang.Proofs.Value.Negation

namespace LoopLang

namespace Parse

/-- What may follow an expression that a reader of the given level has read. -/
structure Stops (level : Nat) (tail : List Token) : Prop where
  comparison : level ≤ Level.comparison → tail.head?.bind comparison? = none
  sum : level ≤ Level.additive → tail.head?.bind sum? = none
  product : level ≤ Level.multiplicative → tail.head?.bind product? = none
  access : ∀ mark ∈ [Symbol.leftParen, .leftBrace, .leftBracket, .dot],
    tail.head? ≠ some (.symbol mark)

namespace Stops

variable {level level' : Nat} {tail : List Token}

theorem mono (h : Stops level tail) (le : level ≤ level') : Stops level' tail :=
  ⟨fun most => h.comparison (Nat.le_trans le most), fun most => h.sum (Nat.le_trans le most),
    fun most => h.product (Nat.le_trans le most), h.access⟩

theorem closing {mark : Symbol}
    (h : mark ∈ [Symbol.rightParen, .rightBrace, .rightBracket, .comma, .semicolon, .equal]) :
    Stops level (.symbol mark :: tail) := by
  simp only [List.mem_cons, List.not_mem_nil, or_false] at h
  rcases h with rfl | rfl | rfl | rfl | rfl | rfl <;>
    exact ⟨fun _ => rfl, fun _ => rfl, fun _ => rfl, by simp⟩

theorem mathOp (op : MathOp) : Stops (op.level + 1) (.symbol op.mark :: tail) := by
  cases op <;>
    refine ⟨fun most => absurd most (by decide), fun most => ?_, fun most => ?_,
      by simp [MathOp.mark]⟩ <;>
    first | rfl | exact absurd most (by decide)

theorem compareOp (op : CompareOp) : Stops Level.additive (.symbol op.mark :: tail) := by
  cases op <;>
    exact ⟨fun most => absurd most (by decide), fun _ => rfl, fun _ => rfl,
      by simp [CompareOp.mark]⟩

end Stops

theorem comparison_mark (op : CompareOp) : comparison? (.symbol op.mark) = some op := by
  cases op <;> rfl

/-- The reader reads the expression again from its tokens at the given level. -/
def Rereads (reader : Nat → Parse Expr) (level : Nat) (e : Expr) : Prop :=
  ∀ ⦃fuel first n tail⦄, Numbered first e.ids n → Stops level tail →
    (reader fuel).Reads (e.tokensAt level ++ tail) first
      (Leaving (·.unplaced = e.unplaced) tail n)

/-- When a reader of chains comes to the end of the expression, it goes on as `more` does. -/
def ReadsOn (whole : Nat → Parse Expr) (more : Nat → Expr → Parse Expr) (level : Nat)
    (e : Expr) : Prop :=
  ∀ ⦃fuel first n tail post⦄, Numbered first e.ids n → Stops (level + 1) tail →
    (∀ fuel' e', e'.unplaced = e.unplaced → (more fuel' e').Reads tail n post) →
    (whole fuel).Reads (e.tokensAt level ++ tail) first post

structure Chain (level : Nat) (whole operand : Nat → Parse Expr)
    (more : Nat → Expr → Parse Expr) (class? : Token → Option MathOp) : Prop where
  whole_zero : whole 0 = fail .tooDeep
  whole_succ : ∀ fuel, whole (fuel + 1) = (operand fuel >>= more fuel)
  more_zero : ∀ left, more 0 left = fail .tooDeep
  more_succ : ∀ fuel left, more (fuel + 1) left = (do
    match ← operator? class? with
    | none => return left
    | some op =>
      let right ← operand fuel
      more fuel (.math (← number left.position) op left right))
  mark : ∀ op : MathOp, op.level = level → class? (.symbol op.mark) = some op
  stops : ∀ {tail}, Stops level tail → tail.head?.bind class? = none

theorem sumChain : Chain Level.additive sum product sumTail sum? where
  whole_zero := rfl
  whole_succ _ := rfl
  more_zero _ := rfl
  more_succ _ _ := rfl
  mark op own := by cases op <;> first | rfl | cases own
  stops h := h.sum (Nat.le_refl _)

theorem productChain : Chain Level.multiplicative product unary productTail product? where
  whole_zero := rfl
  whole_succ _ := rfl
  more_zero _ := rfl
  more_succ _ _ := rfl
  mark op own := by cases op <;> first | rfl | cases own
  stops h := h.product (Nat.le_refl _)

end Parse

namespace Expr

theorem tokensAt_of_le {e : Expr} {level : Nat} (le : level ≤ e.level) :
    e.tokensAt level = e.tokens := by
  rw [tokensAt, decide_eq_false (Nat.not_lt.mpr le)]
  rfl

theorem tokensAt_of_lt {e : Expr} {level : Nat} (lt : e.level < level) :
    e.tokensAt level = Token.between .leftParen .rightParen e.tokens := by
  rw [tokensAt, decide_eq_true lt]
  rfl

theorem tokensAt_succ {e : Expr} {level : Nat} (other : e.level ≠ level) :
    e.tokensAt (level + 1) = e.tokensAt level := by
  rcases Nat.lt_or_gt_of_ne other with lt | gt
  · rw [tokensAt_of_lt lt, tokensAt_of_lt (Nat.lt_succ_of_lt lt)]
  · rw [tokensAt_of_le gt, tokensAt_of_le (Nat.le_of_lt gt)]

theorem tokensAt_comparison (e : Expr) : e.tokensAt Level.comparison = e.tokens :=
  tokensAt_of_le (Nat.zero_le _)

end Expr

namespace Parse

section Chains

variable {level : Nat} {whole operand : Nat → Parse Expr} {more : Nat → Expr → Parse Expr}
  {class? : Token → Option MathOp} {e left right : Expr} {node : Node} {op : MathOp}

theorem Chain.readsOn_of_operand (chain : Chain level whole operand more class?)
    (other : e.level ≠ level) (h : Rereads operand (level + 1) e) :
    ReadsOn whole more level e := by
  intro fuel first n tail post numbered stops goesOn
  cases fuel with
  | zero =>
    rw [chain.whole_zero]
    exact .tooDeep
  | succ fuel =>
    rw [chain.whole_succ, ← Expr.tokensAt_succ other]
    exact (h numbered stops).then fun e' same => goesOn fuel e' same

/-- The operand on the right is read between two passes of the reader of a chain. -/
theorem Chain.readsOn_math (chain : Chain level whole operand more class?) (own : op.level = level)
    (onLeft : ReadsOn whole more level left) (onRight : Rereads operand (level + 1) right) :
    ReadsOn whole more level (.math node op left right) := by
  intro fuel first n tail post numbered stops goesOn
  obtain ⟨inside, rfl⟩ := numbered.last
  obtain ⟨middle, inLeft, inRight⟩ := inside.split
  have tokens : (Expr.math node op left right).tokensAt level =
      left.tokensAt level ++ .symbol op.mark :: right.tokensAt (level + 1) := by
    rw [Expr.tokensAt_of_le (Nat.le_of_eq own.symm), ← own]
    rfl
  rw [tokens, List.append_assoc, List.cons_append]
  refine onLeft inLeft (own ▸ .mathOp op) fun fuel' left' sameLeft => ?_
  cases fuel' with
  | zero =>
    rw [chain.more_zero]
    exact .tooDeep
  | succ fuel' =>
    rw [chain.more_succ]
    refine .operator (chain.mark op own) ((onRight inRight stops).then fun right' sameRight => ?_)
    refine .number (goesOn fuel' _ ?_)
    rw [Expr.unplaced, Expr.unplaced, sameLeft, sameRight]
    rfl

theorem Chain.rereads (chain : Chain level whole operand more class?)
    (h : ReadsOn whole more level e) : Rereads whole level e := by
  intro fuel first n tail numbered stops
  refine h numbered (stops.mono (Nat.le_succ level)) fun fuel' e' same => ?_
  cases fuel' with
  | zero =>
    rw [chain.more_zero]
    exact .tooDeep
  | succ fuel' =>
    rw [chain.more_succ]
    exact .noOperator (chain.stops stops) (.done same)

end Chains

structure Restored (e : Expr) : Prop where
  unary : Rereads unary Level.unary e
  product : ReadsOn product productTail Level.multiplicative e
  sum : ReadsOn sum sumTail Level.additive e
  expression : Rereads expression Level.comparison e

section Levels

variable {e left right : Expr} {node : Node} {fuel : Nat}

theorem expression_of_sum (binds : e.level ≠ Level.comparison)
    (h : ReadsOn sum sumTail Level.additive e) : Rereads expression Level.comparison e := by
  intro fuel first n tail numbered stops
  cases fuel with
  | zero => exact .tooDeep
  | succ fuel =>
    rw [expression, ← Expr.tokensAt_succ binds]
    refine (sumChain.rereads h numbered (stops.mono (Nat.zero_le _))).then fun e' same => ?_
    exact .noOperator (stops.comparison (Nat.le_refl _)) (.done same)

theorem expression_compare {op : CompareOp} (onLeft : ReadsOn sum sumTail Level.additive left)
    (onRight : ReadsOn sum sumTail Level.additive right) :
    Rereads expression Level.comparison (.compare node op left right) := by
  intro fuel first n tail numbered stops
  cases fuel with
  | zero => exact .tooDeep
  | succ fuel =>
    obtain ⟨inside, rfl⟩ := numbered.last
    obtain ⟨middle, inLeft, inRight⟩ := inside.split
    have tokens : (Expr.compare node op left right).tokensAt Level.comparison =
        left.tokensAt Level.additive ++ .symbol op.mark :: right.tokensAt Level.additive := rfl
    rw [expression, tokens, List.append_assoc, List.cons_append]
    refine (sumChain.rereads onLeft inLeft (.compareOp op)).then fun left' sameLeft => ?_
    refine .operator (comparison_mark op) ?_
    refine (sumChain.rereads onRight inRight (stops.mono (Nat.zero_le _))).then ?_
    intro right' sameRight
    refine .number (.done ?_)
    rw [Expr.unplaced, Expr.unplaced, sameLeft, sameRight]
    rfl

theorem unary_of_primary {t : Token} {ts : List Token} {n : NodeId}
    {post : Expr → List Token → NodeId → Prop}
    (unsigned : t ≠ .keyword .not_ ∧ t ≠ .symbol .bang ∧ t ≠ .symbol .minus)
    (h : ∀ fuel, (primary fuel).Reads (t :: ts) n post) : (unary fuel).Reads (t :: ts) n post := by
  obtain ⟨noWord, noBang, noMinus⟩ := unsigned
  cases fuel with
  | zero => exact .tooDeep
  | succ fuel =>
    rw [unary]
    refine .here fun start => .peek ?_
    rw [List.head?_cons]
    split
    · rename_i same
      exact absurd (Option.some.inj same) noWord
    · rename_i same
      exact absurd (Option.some.inj same) noBang
    · rename_i same
      exact absurd (Option.some.inj same) noMinus
    · exact h fuel

theorem unary_between (h : Rereads expression Level.comparison e) {first n : NodeId}
    (numbered : Numbered first e.ids n) (tail : List Token) :
    (unary fuel).Reads (Token.between .leftParen .rightParen e.tokens ++ tail) first
      (Leaving (·.unplaced = e.unplaced) tail n) := by
  rw [Token.between, List.cons_append, List.append_assoc]
  refine unary_of_primary (by simp) fun fuel => ?_
  cases fuel with
  | zero => exact .tooDeep
  | succ fuel =>
    rw [primary]
    refine .here fun start => .peek (.advance ?_)
    rw [← Expr.tokensAt_comparison]
    refine (h numbered (.closing (by simp))).then fun e' same => ?_
    exact .expect (.done same)

theorem unary_of_expression (loose : e.level < Level.unary)
    (h : Rereads expression Level.comparison e) : Rereads unary Level.unary e := by
  intro fuel first n tail numbered _
  rw [Expr.tokensAt_of_lt loose]
  exact unary_between h numbered tail

/-- What is no chain has the same tokens at all levels. -/
theorem Restored.of_unary (binds : e.level = Level.unary)
    (h : ∀ fuel first n tail, Numbered first e.ids n → Stops Level.unary tail →
      (Parse.unary fuel).Reads (e.tokens ++ tail) first
        (Leaving (·.unplaced = e.unplaced) tail n)) : Restored e := by
  have unary : Rereads Parse.unary Level.unary e := by
    intro fuel first n tail numbered stops
    rw [Expr.tokensAt_of_le (Nat.le_of_eq binds.symm)]
    exact h fuel first n tail numbered stops
  have product := productChain.readsOn_of_operand (by rw [binds]; decide) unary
  have sum := sumChain.readsOn_of_operand (by rw [binds]; decide) (productChain.rereads product)
  exact ⟨unary, product, sum, expression_of_sum (by rw [binds]; decide) sum⟩

theorem Restored.of_expression (loose : e.level = Level.comparison)
    (h : Rereads Parse.expression Level.comparison e) : Restored e := by
  have unary := unary_of_expression (by rw [loose]; decide) h
  have product := productChain.readsOn_of_operand (by rw [loose]; decide) unary
  exact ⟨unary, product,
    sumChain.readsOn_of_operand (by rw [loose]; decide) (productChain.rereads product), h⟩

theorem Restored.math {op : MathOp} (onLeft : Restored left) (onRight : Restored right) :
    Restored (.math node op left right) := by
  have levels : op.level = Level.additive ∨ op.level = Level.multiplicative := by
    cases op <;> simp [MathOp.level]
  rcases levels with own | own
  · have sum : ReadsOn Parse.sum sumTail Level.additive (.math node op left right) :=
      sumChain.readsOn_math own onLeft.sum (productChain.rereads onRight.product)
    have expression := expression_of_sum (by rw [Expr.level, own]; decide) sum
    have unary := unary_of_expression (by rw [Expr.level, own]; decide) expression
    exact ⟨unary, productChain.readsOn_of_operand (by rw [Expr.level, own]; decide) unary, sum,
      expression⟩
  · have product : ReadsOn Parse.product productTail Level.multiplicative
        (.math node op left right) :=
      productChain.readsOn_math own onLeft.product onRight.unary
    have sum := sumChain.readsOn_of_operand (by rw [Expr.level, own]; decide)
      (productChain.rereads product)
    have expression := expression_of_sum (by rw [Expr.level, own]; decide) sum
    exact ⟨unary_of_expression (by rw [Expr.level, own]; decide) expression, product, sum,
      expression⟩

end Levels

end Parse

namespace Literal

theorem tokens_cases (value : Literal) :
    (∃ t, value.tokens = [t] ∧ Parse.literal? t = some value) ∨
      ∃ t, value.tokens = [.symbol .minus, t] ∧ Parse.negative? t = some value := by
  cases value with
  | integer value =>
    rw [tokens]
    by_cases negative : value < 0
    · refine .inr ⟨.integer value.natAbs, if_pos negative, ?_⟩
      rw [Parse.negative?, Int.ofNat_natAbs_of_nonpos (Int.le_of_lt negative), Int.neg_neg]
    · refine .inl ⟨.integer value.natAbs, if_neg negative, ?_⟩
      exact congrArg (some ∘ integer) (Int.natAbs_of_nonneg (Int.not_lt.mp negative))
  | float value =>
    rw [tokens]
    by_cases negative : signed value
    · refine .inr ⟨.float (-value), if_pos negative, ?_⟩
      rw [Parse.negative?, Binary64.neg_neg]
    · exact .inl ⟨.float value, if_neg negative, rfl⟩
  | string value | char value => exact .inl ⟨_, rfl, rfl⟩
  | bool value => cases value <;> exact .inl ⟨_, rfl, rfl⟩

theorem not_negative_of_not_unsigned {value : Literal} (signed : value.isUnsigned = false)
    (tail : List Token) : (value.tokens ++ tail).head?.bind Parse.negative? = none := by
  cases value with
  | integer value =>
    have negative : value < 0 := by simpa [isUnsigned] using signed
    rw [tokens, if_pos negative]
    rfl
  | float value =>
    have negative : Literal.signed value = true := by simpa [isUnsigned] using signed
    rw [tokens, if_pos negative]
    rfl
  | string value | char value => rfl
  | bool value => cases value <;> rfl

end Literal

namespace Token

def Begins (t : Token) : Prop := ∀ mark, t = .symbol mark → mark = .leftParen ∨ mark = .minus

end Token

namespace Expr

theorem parenthesized_begins (needed : Bool) {tokens : List Token}
    (h : ∃ t ts, tokens = t :: ts ∧ t.Begins) :
    ∃ t ts, Token.parenthesized needed tokens = t :: ts ∧ t.Begins := by
  cases needed with
  | false => exact h
  | true =>
    refine ⟨_, _, rfl, fun mark same => ?_⟩
    cases same
    exact .inl rfl

theorem begins : ∀ e : Expr, ∃ t ts, e.tokens = t :: ts ∧ t.Begins
  | .literal _ value => by
    rw [tokens]
    rcases value.tokens_cases with ⟨t, only, literal⟩ | ⟨t, both, _⟩
    · refine ⟨t, [], only, fun mark same => ?_⟩
      rw [same] at literal
      cases literal
    · refine ⟨_, _, both, fun mark same => ?_⟩
      cases same
      exact .inr rfl
  | .place .. | .method .. | .call .. | .build .. => ⟨_, _, rfl, by simp [Token.Begins]⟩
  | .math _ op left _ => by
    obtain ⟨t, ts, first, begins⟩ :=
      parenthesized_begins (left.level < op.level) left.begins
    rw [tokens, first]
    exact ⟨t, _, rfl, begins⟩
  | .compare _ _ left _ => by
    obtain ⟨t, ts, first, begins⟩ :=
      parenthesized_begins (left.level < Level.additive) left.begins
    rw [tokens, first]
    exact ⟨t, _, rfl, begins⟩
  | .unary _ .not _ => ⟨_, _, rfl, by simp [Token.Begins]⟩
  | .unary _ .negate _ => by
    refine ⟨_, _, rfl, fun mark same => ?_⟩
    cases same
    exact .inr rfl

theorem head?_ne {mark : Symbol} (e : Expr) (tail : List Token)
    (other : mark ≠ .leftParen ∧ mark ≠ .minus) :
    (e.tokens ++ tail).head? ≠ some (.symbol mark) := by
  obtain ⟨t, ts, first, begins⟩ := e.begins
  rw [first]
  intro same
  rcases begins mark (Option.some.inj same) with h | h
  · exact other.1 h
  · exact other.2 h

theorem not_negative (operand : Expr) (tail : List Token) :
    (Token.parenthesized (operand.level < Level.unary || operand.isUnsigned)
      operand.tokens ++ tail).head?.bind Parse.negative? = none := by
  cases operand with
  | literal node value =>
    cases signed : value.isUnsigned with
    | true =>
      rw [isUnsigned, signed]
      rfl
    | false =>
      rw [isUnsigned, signed, tokens]
      exact value.not_negative_of_not_unsigned signed tail
  | place | method | call | build | compare => rfl
  | math node op => cases op <;> rfl
  | unary node op => cases op <;> rfl

end Expr

namespace Parse

theorem Restored.operand {e : Expr} (h : Restored e) {fuel : Nat} {first n : NodeId}
    {tail : List Token} (numbered : Numbered first e.ids n) (stops : Stops Level.unary tail) :
    (Parse.unary fuel).Reads
      (Token.parenthesized (e.level < Level.unary || e.isUnsigned) e.tokens ++ tail) first
      (Leaving (·.unplaced = e.unplaced) tail n) := by
  cases unsigned : e.isUnsigned with
  | true =>
    rw [Bool.or_true]
    exact unary_between h.expression numbered tail
  | false =>
    rw [Bool.or_false]
    exact h.unary numbered stops

section Primary

variable {fuel : Nat} {node : Node} {n : NodeId}

theorem literal_restored (value : Literal) : Restored (.literal node value) := by
  refine .of_unary rfl fun fuel first n tail numbered _ => ?_
  obtain ⟨rfl, none_left⟩ := numbered.of_cons
  obtain rfl := none_left.of_nil
  rw [Expr.tokens]
  rcases value.tokens_cases with ⟨t, only, literal⟩ | ⟨t, both, negative⟩
  · rw [only]
    refine unary_of_primary ⟨?_, ?_, ?_⟩ fun fuel => ?_
    · rintro rfl
      cases literal
    · rintro rfl
      cases literal
    · rintro rfl
      cases literal
    · cases fuel with
      | zero => exact .tooDeep
      | succ fuel =>
        rw [primary]
        refine .here fun start => .peek ?_
        rw [List.head?_cons, Option.bind_some, literal]
        exact .advance (.number (.done rfl))
  · rw [both]
    cases fuel with
    | zero => exact .tooDeep
    | succ fuel =>
      rw [unary]
      refine .here fun start => .peek (.advance (.peek ?_))
      rw [List.append_eq, List.singleton_append, List.head?_cons, Option.bind_some, negative]
      exact .advance (.number (.done rfl))

theorem not_restored {operand : Expr} (h : Restored operand) :
    Restored (.unary node .not operand) := by
  refine .of_unary rfl fun fuel first n tail numbered stops => ?_
  obtain ⟨inside, rfl⟩ := numbered.last
  cases fuel with
  | zero => exact .tooDeep
  | succ fuel =>
    rw [unary]
    refine .here fun start => .peek (.advance ?_)
    refine (h.unary inside stops).then fun operand' same => .number (.done ?_)
    rw [Expr.unplaced, Expr.unplaced, same]
    rfl

/-- A minus sign is read as an operator, as no number follows it right away. -/
theorem negate_restored {operand : Expr} (h : Restored operand) :
    Restored (.unary node .negate operand) := by
  refine .of_unary rfl fun fuel first n tail numbered stops => ?_
  obtain ⟨inside, rfl⟩ := numbered.last
  rw [Expr.tokens, List.cons_append]
  cases fuel with
  | zero => exact .tooDeep
  | succ fuel =>
    rw [unary]
    refine .here fun start => .peek (.advance (.peek ?_))
    rw [operand.not_negative tail]
    refine (h.operand inside stops).then fun operand' same => .number (.done ?_)
    rw [Expr.unplaced, Expr.unplaced, same]
    rfl

end Primary
end Parse
end LoopLang
