import LoopLang.Proofs.Tree.Rereading.Chains

namespace LoopLang

theorem Step.tokensOf_head_ne {steps : List Step} {mark : Symbol} {tail : List Token}
    (other : mark ≠ .leftBracket ∧ mark ≠ .dot) (h : tail.head? ≠ some (.symbol mark)) :
    (Step.tokensOf steps ++ tail).head? ≠ some (.symbol mark) := by
  rcases steps with _ | ⟨step, steps⟩
  · exact h
  · cases step with
    | index e =>
      rintro ⟨⟩
      exact other.1 rfl
    | member name position =>
      rintro ⟨⟩
      exact other.2 rfl

namespace Parse

variable {fuel : Nat} {node : Node}

def ListRestored (es : List Expr) : Prop :=
  ∀ ⦃fuel first n⦄ (tail : List Token), es ≠ [] → Numbered first (Expr.idsOf es) n →
    (expressionList fuel).Reads ((Expr.tokensOf es).tail ++ .symbol .rightParen :: tail) first
      (Leaving (Expr.unplacedAll · = Expr.unplacedAll es) (.symbol .rightParen :: tail) n)

theorem ListRestored.cons {e : Expr} {es : List Expr} (one : Restored e)
    (others : ListRestored es) : ListRestored (e :: es) := by
  intro fuel first n tail _ numbered
  obtain ⟨middle, inFirst, inRest⟩ := numbered.split
  cases fuel with
  | zero => exact .tooDeep
  | succ fuel =>
    rw [expressionList, Expr.tokensOf, List.tail_cons, List.append_assoc,
      ← Expr.tokensAt_comparison]
    cases es with
    | nil =>
      obtain rfl := inRest.of_nil
      refine (one.expression inFirst (.closing (by simp))).then fun e' same => ?_
      refine .lacks (by simp) (.done ?_)
      simp only [Expr.unplacedAll, same]
    | cons e2 es =>
      refine (one.expression inFirst (.closing (by simp))).then fun e' same => ?_
      refine .takes ((others tail (List.cons_ne_nil _ _) inRest).then fun es' sameRest => .done ?_)
      rw [Expr.unplacedAll, same, sameRest]
      rfl

theorem arguments_restored {args : List Expr} (h : ListRestored args) {first n : NodeId}
    {tail : List Token} (numbered : Numbered first (Expr.idsOf args) n) :
    (arguments fuel).Reads
      (Token.between .leftParen .rightParen (Expr.tokensOf args).tail ++ tail) first
      (Leaving (Expr.unplacedAll · = Expr.unplacedAll args) tail n) := by
  rw [Token.between, List.cons_append, List.append_assoc]
  cases fuel with
  | zero => exact .tooDeep
  | succ fuel =>
    rw [arguments]
    refine .advance ?_
    cases args with
    | nil =>
      obtain rfl := numbered.of_nil
      refine .sees ?_
      rw [pure_bind]
      exact .expect (.done rfl)
    | cons e es =>
      refine .misses ?_ ?_
      · rw [Expr.tokensOf, List.tail_cons, List.append_assoc]
        exact e.head?_ne _ (by decide)
      · exact (h tail (List.cons_ne_nil _ _) numbered).then fun args' same => .expect (.done same)

def FieldsRestored (given : List Field) : Prop :=
  ∀ ⦃fuel first n⦄ (tail : List Token), Numbered first (Field.idsOf given) n →
    (fieldList fuel).Reads ((Field.tokensOf given).tail ++ .symbol .rightBrace :: tail) first
      (Leaving (Field.unplacedAll · = Field.unplacedAll given) (.symbol .rightBrace :: tail) n)

theorem FieldsRestored.nil : FieldsRestored [] := by
  intro fuel first n tail numbered
  obtain rfl := numbered.of_nil
  cases fuel with
  | zero => exact .tooDeep
  | succ fuel => exact .sees (.done rfl)

theorem FieldsRestored.cons {name : String} {position : Position} {value : Expr}
    {given : List Field} (one : Restored value) (others : FieldsRestored given) :
    FieldsRestored (.mk name position value :: given) := by
  intro fuel first n tail numbered
  obtain ⟨middle, inFirst, inRest⟩ := numbered.split
  cases fuel with
  | zero => exact .tooDeep
  | succ fuel =>
    rw [fieldList, Field.tokensOf, List.tail_cons, List.cons_append, List.cons_append,
      List.append_assoc, ← Expr.tokensAt_comparison]
    refine .misses (by simp) (.here fun start => .expectName (.expect ?_))
    rcases given with _ | ⟨⟨other, place, value2⟩, given⟩
    · obtain rfl := inRest.of_nil
      refine (one.expression inFirst (.closing (by simp))).then fun value' same => ?_
      refine .lacks (by simp) (.done ?_)
      simp only [Field.unplacedAll, Field.unplaced, same]
    · refine (one.expression inFirst (.closing (by simp))).then fun value' same => ?_
      refine .takes ((others tail inRest).then fun given' sameRest => .done ?_)
      rw [Field.unplacedAll, Field.unplaced, same, sameRest]
      rfl

def StepsRestored (steps : List Step) : Prop :=
  ∀ ⦃fuel start root read first n tail post⦄, Numbered first (Step.idsOf steps) n →
    tail.head? ≠ some (.symbol .leftParen) →
    (∀ fuel' read', Step.unplacedAll read'.reverse =
        Step.unplacedAll read.reverse ++ Step.unplacedAll steps →
      (access fuel' start root read').Reads tail n post) →
    (access fuel start root read).Reads (Step.tokensOf steps ++ tail) first post

theorem StepsRestored.nil : StepsRestored [] := by
  intro fuel start root read first n tail post numbered _ goesOn
  obtain rfl := numbered.of_nil
  exact goesOn fuel read (List.append_nil _).symm

theorem StepsRestored.index {e : Expr} {steps : List Step} (one : Restored e)
    (others : StepsRestored steps) : StepsRestored (.index e :: steps) := by
  intro fuel start root read first n tail post numbered noCall goesOn
  obtain ⟨middle, inIndex, inRest⟩ := numbered.split
  cases fuel with
  | zero => exact .tooDeep
  | succ fuel =>
    rw [access, Step.tokensOf, Token.between, List.append_assoc, List.cons_append,
      List.append_assoc, ← Expr.tokensAt_comparison]
    refine .takes ?_
    refine (one.expression inIndex (.closing (by simp))).then fun e' same => .expect ?_
    refine others inRest noCall fun fuel' read' sameRest => goesOn fuel' read' ?_
    rw [sameRest, List.reverse_cons]
    simp only [Step.unplacedAll_eq_map, List.map_append, List.map_cons, List.map_nil,
      List.append_assoc, List.singleton_append, Step.unplaced, same]

theorem StepsRestored.member {name : String} {position : Position} {steps : List Step}
    (others : StepsRestored steps) : StepsRestored (.member name position :: steps) := by
  intro fuel start root read first n tail post numbered noCall goesOn
  cases fuel with
  | zero => exact .tooDeep
  | succ fuel =>
    rw [access, Step.tokensOf, List.cons_append, List.cons_append]
    refine .lacks (by simp) ?_
    refine .takes ?_
    refine .here fun nameAt => .expectName ?_
    refine .misses (Step.tokensOf_head_ne (by decide) noCall) ?_
    refine others numbered noCall fun fuel' read' sameRest => goesOn fuel' read' ?_
    rw [sameRest, List.reverse_cons]
    simp only [Step.unplacedAll_eq_map, List.map_append, List.map_cons, List.map_nil,
      List.append_assoc, List.singleton_append, Step.unplaced]

theorem primary_access {root : String} {ts : List Token} {n : NodeId}
    {post : Expr → List Token → NodeId → Prop} (noCall : ts.head? ≠ some (.symbol .leftParen))
    (noBuild : ts.head? ≠ some (.symbol .leftBrace))
    (h : ∀ fuel start, (access fuel start root []).Reads ts n post) :
    (primary fuel).Reads (.name root :: ts) n post := by
  cases fuel with
  | zero => exact .tooDeep
  | succ fuel =>
    rw [primary]
    refine .here fun start => .peek (.advance (.misses noCall ?_))
    refine .lacks noBuild ?_
    exact h fuel start

theorem place_restored {root : String} {steps : List Step} (h : StepsRestored steps) :
    Restored (.place node root steps) := by
  refine .of_unary rfl fun fuel first n tail numbered stops => ?_
  obtain ⟨inside, rfl⟩ := numbered.last
  have noCall := stops.access .leftParen (by simp)
  rw [Expr.tokens, List.cons_append]
  refine unary_of_primary (by simp) fun fuel => ?_
  refine primary_access (Step.tokensOf_head_ne (by decide) noCall)
    (Step.tokensOf_head_ne (by decide) (stops.access _ (by simp))) fun fuel start => ?_
  refine h inside noCall fun fuel' read' same => ?_
  cases fuel' with
  | zero => exact .tooDeep
  | succ fuel' =>
    rw [access]
    refine .lacks (stops.access _ (by simp)) ?_
    refine .lacks (stops.access _ (by simp)) ?_
    refine .number (.done ?_)
    rw [Expr.unplaced, Expr.unplaced, same]
    rfl

theorem method_restored {root name : String} {steps : List Step} {nameAt : Position}
    {args : List Expr} (inSteps : StepsRestored steps) (inArgs : ListRestored args) :
    Restored (.method node root steps name nameAt args) := by
  refine .of_unary rfl fun fuel first n tail numbered stops => ?_
  obtain ⟨inside, rfl⟩ := numbered.last
  obtain ⟨middle, before, after⟩ := inside.split
  rw [Expr.tokens, List.cons_append, List.append_assoc, List.cons_append, List.cons_append]
  refine unary_of_primary (by simp) fun fuel => ?_
  refine primary_access (Step.tokensOf_head_ne (by decide) (by simp))
    (Step.tokensOf_head_ne (by decide) (by simp)) ?_
  intro fuel start
  refine inSteps before (by simp) fun fuel' read' same => ?_
  cases fuel' with
  | zero => exact .tooDeep
  | succ fuel' =>
    rw [access]
    refine .lacks (by simp) ?_
    refine .takes ?_
    refine .here fun nameAt' => .expectName (.sees ?_)
    refine (arguments_restored inArgs after).then fun args' sameArgs => ?_
    refine .notNext (stops.access _ (by simp)) (.notNext (stops.access _ (by simp)) ?_)
    rw [Bool.or_self, if_neg Bool.false_ne_true]
    refine .number (.done ?_)
    rw [Expr.unplaced, Expr.unplaced, same, sameArgs]
    rfl

theorem call_restored {callee : String} {args : List Expr} (h : ListRestored args) :
    Restored (.call node callee args) := by
  refine .of_unary rfl fun fuel first n tail numbered stops => ?_
  obtain ⟨inside, rfl⟩ := numbered.last
  rw [Expr.tokens, List.cons_append]
  refine unary_of_primary (by simp) fun fuel => ?_
  cases fuel with
  | zero => exact .tooDeep
  | succ fuel =>
    rw [primary]
    refine .here fun start => .peek (.advance (.sees ?_))
    refine (arguments_restored h inside).then fun args' same => .number (.done ?_)
    rw [Expr.unplaced, Expr.unplaced, same]
    rfl

theorem build_restored {name : String} {given : List Field} (h : FieldsRestored given) :
    Restored (.build node name given) := by
  refine .of_unary rfl fun fuel first n tail numbered stops => ?_
  obtain ⟨inside, rfl⟩ := numbered.last
  rw [Expr.tokens, Token.between, List.cons_append, List.cons_append, List.append_assoc]
  refine unary_of_primary (by simp) fun fuel => ?_
  cases fuel with
  | zero => exact .tooDeep
  | succ fuel =>
    rw [primary]
    refine .here fun start => .peek (.advance (.misses (by simp) ?_))
    refine .takes ?_
    refine (h tail inside).then fun given' same => .expect (.number (.done ?_))
    rw [Expr.unplaced, Expr.unplaced, same]
    rfl

mutual

theorem expr_restored : ∀ e : Expr, Restored e
  | .literal _ value => literal_restored value
  | .place _ _ steps => place_restored (steps_restored steps)
  | .method _ _ steps _ _ args => method_restored (steps_restored steps) (list_restored args)
  | .call _ _ args => call_restored (list_restored args)
  | .math _ _ left right => .math (expr_restored left) (expr_restored right)
  | .compare _ _ left right =>
    .of_expression rfl (expression_compare (expr_restored left).sum (expr_restored right).sum)
  | .unary _ .not operand => not_restored (expr_restored operand)
  | .unary _ .negate operand => negate_restored (expr_restored operand)
  | .build _ _ given => build_restored (fields_restored given)
termination_by structural e => e

theorem list_restored : ∀ es : List Expr, ListRestored es
  | [] => fun _ _ _ _ some => absurd rfl some
  | e :: es => .cons (expr_restored e) (list_restored es)
termination_by structural es => es

theorem steps_restored : ∀ steps : List Step, StepsRestored steps
  | [] => .nil
  | .index e :: steps => .index (expr_restored e) (steps_restored steps)
  | .member _ _ :: steps => .member (steps_restored steps)
termination_by structural steps => steps

theorem fields_restored : ∀ given : List Field, FieldsRestored given
  | [] => .nil
  | .mk _ _ value :: given => .cons (expr_restored value) (fields_restored given)
termination_by structural given => given

end

theorem value_restored {e : Expr} {first n : NodeId} {tail : List Token}
    (numbered : Numbered first e.ids n) (stops : Stops Level.comparison tail) :
    (expression fuel).Reads (e.tokens ++ tail) first
      (Leaving (·.unplaced = e.unplaced) tail n) := by
  rw [← Expr.tokensAt_comparison]
  exact (expr_restored e).expression numbered stops

end Parse
end LoopLang
