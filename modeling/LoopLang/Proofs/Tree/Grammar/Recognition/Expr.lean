import LoopLang.Proofs.Tree.Grammar.Recognition.Rules

namespace LoopLang.Parse

open Grammar (accepted Form Nonterminal Kind Repeated)

variable {ts : List Token} {names : List (Kind × String)}

theorem type_recognized (h : (accepted .type).Means Recognized ts names) :
    Recognized .type ts names := by
  rcases h with h | h
  · obtain ⟨text, rfl, rfl⟩ := h.name
    exact ⟨.named text, trivial, rfl, rfl⟩
  · obtain ⟨_, own, rfl⟩ := h.between
    obtain ⟨text, rfl, rfl⟩ := own.name
    exact ⟨.array (.named text), trivial, rfl, rfl⟩

theorem comparand_cases (h : Form.comparand.Means Recognized ts names) :
    ∃ (op : CompareOp) (us : List Token),
      ts = .symbol op.mark :: us ∧ Recognized .sum us names := by
  obtain ⟨_, _, us, _, sign, second, rfl, rfl⟩ := h
  rcases sign with sign | sign | sign | sign | sign | sign <;> obtain ⟨rfl, rfl⟩ := sign.mark
  · exact ⟨.equal, us, rfl, second⟩
  · exact ⟨.notEqual, us, rfl, second⟩
  · exact ⟨.less, us, rfl, second⟩
  · exact ⟨.lessEqual, us, rfl, second⟩
  · exact ⟨.greater, us, rfl, second⟩
  · exact ⟨.greaterEqual, us, rfl, second⟩

theorem comparison_recognized (h : (accepted .expr).Means Recognized ts names) :
    Recognized .expr ts names := by
  obtain ⟨ts, _, ts', names', ⟨opens, rfl, first⟩, rest, rfl, rfl⟩ := h
  rcases rest with ⟨rfl, rfl⟩ | compared
  · refine ⟨opens.append _, rfl, fun fuel n tail stops => ?_⟩
    rw [List.append_nil]
    cases fuel with
    | zero => exact .tooDeep
    | succ fuel =>
      rw [expression]
      refine (first (stops.mono (Nat.zero_le _))).upTo fun e n' _ => ?_
      exact .noOperator (stops.comparison (Nat.le_refl _)) (.ended trivial)
  · obtain ⟨op, us, rfl, ⟨_, rfl, second⟩⟩ := comparand_cases compared
    refine ⟨opens.append _, rfl, fun fuel n tail stops => ?_⟩
    cases fuel with
    | zero => exact .tooDeep
    | succ fuel =>
      rw [expression, List.append_assoc]
      refine (first (.compareOp op)).upTo fun left n' _ => .operator (comparison_mark op) ?_
      exact (second (stops.mono (Nat.zero_le _))).upTo fun right n' _ => .number (.ended trivial)

theorem addend_further (h : Form.addend.Means Recognized ts names) :
    Further Level.additive product ts names := by
  obtain ⟨_, _, us, _, sign, ⟨_, rfl, reads⟩, rfl, rfl⟩ := h
  rcases sign with sign | sign <;> obtain ⟨rfl, rfl⟩ := sign.mark
  · exact ⟨.add, us, rfl, rfl, rfl, reads⟩
  · exact ⟨.subtract, us, rfl, rfl, rfl, reads⟩

theorem factor_further (h : Form.factor.Means Recognized ts names) :
    Further Level.multiplicative unary ts names := by
  obtain ⟨_, _, us, _, sign, ⟨⟨_, rfl, reads⟩, _⟩, rfl, rfl⟩ := h
  rcases sign with sign | sign | sign <;> obtain ⟨rfl, rfl⟩ := sign.mark
  · exact ⟨.multiply, us, rfl, rfl, rfl, reads⟩
  · exact ⟨.divide, us, rfl, rfl, rfl, reads⟩
  · exact ⟨.modulo, us, rfl, rfl, rfl, reads⟩

theorem sum_recognized (h : (accepted .sum).Means Recognized ts names) :
    Recognized .sum ts names := by
  obtain ⟨ts, _, ts', names', ⟨opens, rfl, first⟩, rest, rfl, rfl⟩ := h
  have others := rest.mono addend_further
  obtain rfl := others.unnamed Further.unnamed
  exact ⟨opens.append _, rfl, sumChain.recognizes first others⟩

theorem product_recognized (h : (accepted .product).Means Recognized ts names) :
    Recognized .product ts names := by
  obtain ⟨ts, _, ts', names', ⟨⟨opens, rfl, first⟩, _⟩, rest, rfl, rfl⟩ := h
  have others := rest.mono factor_further
  obtain rfl := others.unnamed Further.unnamed
  exact ⟨opens.append _, rfl, productChain.recognizes first others⟩

theorem signed_recognized {sign : Token} (unmarked : negative? sign = none)
    (opening : Opening sign)
    (reads : ∀ fuel n tail, Stops Level.unary tail →
      (unary (fuel + 1)).Reads (sign :: (ts ++ tail)) n (Ending anything tail)) :
    Recognized .unary (sign :: ts) [] := by
  refine ⟨⟨⟨sign, ts, rfl, opening⟩, rfl, fun fuel n tail stops => ?_⟩,
    fun t rest same number => ?_⟩
  · cases fuel with
    | zero => exact .tooDeep
    | succ fuel => exact reads fuel n tail stops
  · cases same
    rw [unmarked] at number
    cases number

theorem unary_recognized (h : (accepted .unary).Means Recognized ts names) :
    Recognized .unary ts names := by
  rcases h with ⟨_, _, us, _, sign, ⟨⟨opens, rfl, reads⟩, alone⟩, rfl, rfl⟩ |
    ⟨⟨opens, rfl, reads⟩, alone, unsigned⟩
  · have operand {fuel n op start tail} (stops : Stops Level.unary tail) :
        (do
          let operand ← unary fuel
          return Expr.unary (← number start) op operand).Reads (us ++ tail) n
            (Ending anything tail) :=
      (reads stops).upTo fun e n' _ => .number (.ended trivial)
    rcases sign with sign | sign | sign
    · obtain ⟨rfl, rfl⟩ := sign.word
      refine signed_recognized rfl (.inl rfl) fun fuel n tail stops => ?_
      rw [unary]
      exact .here fun start => .peek (.advance (operand stops))
    · obtain ⟨rfl, rfl⟩ := sign.mark
      refine signed_recognized rfl (.inr (.inl rfl)) fun fuel n tail stops => ?_
      rw [unary]
      exact .here fun start => .peek (.advance (operand stops))
    · obtain ⟨rfl, rfl⟩ := sign.mark
      refine signed_recognized rfl (.inr (.inr rfl)) fun fuel n tail stops => ?_
      rw [unary]
      refine .here fun start => .peek (.advance (.peek ?_))
      obtain ⟨t, rest, rfl, _⟩ := opens
      rw [List.append_eq, List.nil_append, List.cons_append, List.head?_cons, Option.bind_some]
      cases number : negative? t with
      | none => exact operand stops
      | some value =>
        obtain rfl := alone t rest rfl (by rw [number]; rfl)
        exact .advance (.number (.ended trivial))
  · refine ⟨⟨opens, rfl, fun fuel n tail stops => ?_⟩, alone⟩
    obtain ⟨t, rest, rfl, _⟩ := opens
    exact unary_of_primary (unsigned t rest rfl) fun fuel => reads stops

theorem literal_recognized {t : Token} {value : Literal} (h : literal? t = some value) :
    Recognized .primary [t] [] := by
  refine ⟨⟨⟨t, [], rfl, ?_⟩, rfl, fun fuel n tail stops => ?_⟩, fun t' rest same _ => ?_, ?_⟩
  · cases t with
    | symbol mark => cases h
    | keyword word =>
      cases word with
      | true_ => exact .inr (.inl rfl)
      | false_ => exact .inr (.inr rfl)
      | _ => cases h
    | _ => trivial
  · cases fuel with
    | zero => exact .tooDeep
    | succ fuel =>
      rw [primary]
      refine .here fun start => .peek ?_
      rw [List.singleton_append, List.head?_cons, Option.bind_some, h]
      exact .advance (.number (.ended trivial))
  · cases same
    rfl
  · intro t' rest same
    cases same
    refine ⟨?_, ?_, ?_⟩ <;> rintro rfl <;> cases h

theorem NamedRecognized.primary {P : Expr → Prop}
    (h : NamedRecognized Parse.primary Level.unary P ts names) : Recognized .primary ts names := by
  refine ⟨⟨h.opens.opens, h.unnamed, h.recognizes.mono fun _ _ => trivial⟩, ?_, ?_⟩
  · intro t rest same number
    obtain ⟨t', rest', rfl, rfl | ⟨⟨text, rfl⟩, _⟩⟩ := h.opens
    · cases same
      cases number
    · cases same
      cases number
  · intro t rest same
    obtain ⟨t', rest', rfl, rfl | ⟨⟨text, rfl⟩, _⟩⟩ := h.opens
    · cases same
      simp
    · cases same
      simp

theorem NamedRecognized.expression {P : Expr → Prop}
    (h : NamedRecognized Parse.primary Level.unary P ts names) :
    NamedRecognized Parse.expression Level.comparison P ts names :=
  ⟨h.opens, h.unnamed, h.opens.recognizes h.recognizes⟩

/-- Parentheses make no difference to what is read. -/
theorem parenthesized {P : Expr → Prop}
    (h : Recognizes expression (Stops Level.comparison) P ts) :
    NamedRecognized primary Level.unary P (Token.between .leftParen .rightParen ts) [] := by
  refine ⟨⟨_, _, rfl, .inl rfl⟩, rfl, fun fuel n tail stops => ?_⟩
  rw [Token.between, List.cons_append, List.append_assoc]
  cases fuel with
  | zero => exact .tooDeep
  | succ fuel =>
    rw [primary]
    refine .here fun start => .peek (.advance ?_)
    exact (h (.closing (by simp))).upTo fun e n' holds => .expect (.ended holds)

theorem call_primary (h : Recognized .call ts names) :
    NamedRecognized primary Level.unary IsInvocation ts names := by
  obtain ⟨callee, args, rfl, rfl, reads⟩ := h
  refine ⟨⟨_, _, rfl, .inr ⟨⟨callee, rfl⟩, by simp⟩⟩, rfl, fun fuel n tail stops => ?_⟩
  cases fuel with
  | zero => exact .tooDeep
  | succ fuel =>
    rw [primary]
    refine .here fun start => .peek (.advance (.sees ?_))
    exact (reads trivial).upTo fun args n' _ => .number (.ended trivial)

theorem build_primary (h : (.name >> .between .leftBrace .rightBrace (.rule .fields) : Form).Means
    Recognized ts names) : NamedRecognized primary Level.unary anything ts names := by
  obtain ⟨name, _, braces, rfl⟩ := h.name_then
  obtain ⟨inner, ⟨rfl, reads⟩, rfl⟩ := braces.between
  refine ⟨⟨_, _, rfl, .inr ⟨⟨name, rfl⟩, by simp⟩⟩, rfl, fun fuel n tail stops => ?_⟩
  rw [List.cons_append, List.cons_append, List.append_assoc]
  cases fuel with
  | zero => exact .tooDeep
  | succ fuel =>
    rw [primary]
    refine .here fun start => .peek (.advance (.misses (by simp) (.takes ?_)))
    exact (reads rfl).upTo fun fields n' _ => .expect (.number (.ended trivial))

theorem place_primary (h : Recognized .place ts names) :
    NamedRecognized primary Level.unary IsTarget ts names := by
  obtain ⟨root, steps, rfl, rfl, begins, reads⟩ := h
  refine ⟨⟨_, _, rfl, .inr ⟨⟨root, rfl⟩, ?_⟩⟩, rfl, fun fuel n tail stops => ?_⟩
  · rcases begins with rfl | ⟨rest, rfl | rfl⟩ <;> simp
  · have noCall := stops.access .leftParen (by simp)
    refine primary_access (begins.head?_ne (by decide) noCall)
      (begins.head?_ne (by decide) (stops.access _ (by simp))) fun fuel start => ?_
    refine reads noCall fun fuel' read' n' => ?_
    cases fuel' with
    | zero => exact .tooDeep
    | succ fuel' =>
      rw [access]
      refine .lacks (stops.access _ (by simp)) ?_
      refine .lacks (stops.access _ (by simp)) ?_
      exact .number (.ended trivial)

theorem access_recognized (h : (accepted .access).Means Recognized ts names) :
    Recognized .access ts names := by
  obtain ⟨ts, _, ts', _, place, rest, rfl, rfl⟩ := h
  rcases rest with ⟨rfl, rfl⟩ | rest
  · have alone := place_primary place
    rw [List.append_nil, List.append_nil]
    refine ⟨alone.opens, alone.unnamed, alone.recognizes.mono fun e target => ?_⟩
    cases e with
    | place => trivial
    | _ => exact target.elim
  · obtain ⟨root, steps, rfl, rfl, begins, reads⟩ := place
    obtain ⟨_, ⟨name, args, rfl, rfl, inArgs⟩, rfl⟩ := rest.mark_then
    refine ⟨⟨_, _, rfl, .inr ⟨⟨root, rfl⟩, ?_⟩⟩, rfl, fun fuel n tail stops => ?_⟩
    · rcases begins with rfl | ⟨rest, rfl | rfl⟩ <;> simp
    · rw [List.cons_append, List.cons_append, List.append_assoc]
      refine primary_access (begins.head?_ne (by decide) (by simp))
        (begins.head?_ne (by decide) (by simp)) fun fuel start => ?_
      refine reads (by simp) fun fuel' read' n' => ?_
      cases fuel' with
      | zero => exact .tooDeep
      | succ fuel' =>
        rw [access]
        refine .lacks (by simp) (.takes (.here fun nameAt => .expectName (.sees ?_)))
        refine (inArgs trivial).upTo fun args n' _ => ?_
        refine .notNext (stops.access _ (by simp)) (.notNext (stops.access _ (by simp)) ?_)
        rw [Bool.or_self, if_neg Bool.false_ne_true]
        exact .number (.ended trivial)

theorem constant_recognized {k : Grammar.Terminal}
    (constant : k = .integer ∨ k = .float ∨ k = .string ∨ k = .char)
    (h : (Form.terminal k).Means Recognized ts names) : Recognized .primary ts names := by
  obtain ⟨t, covers, rfl, rfl⟩ := h
  obtain ⟨value, literal⟩ : ∃ value, literal? t = some value := by
    rcases constant with rfl | rfl | rfl | rfl <;> cases t <;> first | exact ⟨_, rfl⟩ | cases covers
  exact literal_recognized literal

theorem primary_recognized (h : (accepted .primary).Means Recognized ts names) :
    Recognized .primary ts names := by
  rcases h with h | h | h | h | h | h | h | h | h | h
  · exact constant_recognized (by simp) h
  · exact constant_recognized (by simp) h
  · exact constant_recognized (by simp) h
  · exact constant_recognized (by simp) h
  · obtain ⟨rfl, rfl⟩ := h.word
    exact literal_recognized (rfl : literal? _ = some (.bool true))
  · obtain ⟨rfl, rfl⟩ := h.word
    exact literal_recognized (rfl : literal? _ = some (.bool false))
  · obtain ⟨inner, ⟨_, rfl, reads⟩, rfl⟩ := h.between
    exact (parenthesized reads).primary
  · exact (call_primary h).primary
  · exact (build_primary h).primary
  · exact NamedRecognized.primary h

theorem target_recognized (h : (accepted .target).Means Recognized ts names) :
    Recognized .target ts names := by
  rcases h with h | h
  · exact (place_primary h).expression
  · obtain ⟨inner, ⟨_, rfl, reads⟩, rfl⟩ := h.between
    exact (parenthesized reads).expression

theorem invocation_recognized (h : (accepted .invocation).Means Recognized ts names) :
    Recognized .invocation ts names := by
  rcases h with h | h | h
  · exact (call_primary h).expression
  · exact NamedRecognized.expression h
  · obtain ⟨inner, ⟨_, rfl, reads⟩, rfl⟩ := h.between
    exact (parenthesized reads).expression

theorem expressionListing :
    Listing .rightParen expressionList (ExprRecognized expression Level.comparison)
      (fun _ => []) where
  other := by decide
  zero := rfl
  item := by
    intro fuel ts names n tail post item after goesOn
    obtain ⟨_, rfl, reads⟩ := item
    rw [expressionList]
    exact (reads (.item (by simp) after)).upTo fun e n' _ => goesOn e n' rfl

theorem expressionList_recognized
    (h : (Form.separated (.rule .expr)).Means Recognized ts names) :
    names = [] ∧ Opens ts ∧
      Recognizes expressionList (·.head? = some (.symbol .rightParen)) anything ts := by
  obtain ⟨ts, _, ts', names', first, rest, rfl, rfl⟩ := h
  have others : Repeated (Listing.AfterComma (ExprRecognized expression Level.comparison))
      ts' names' := rest.mono fun next => next.mark_then
  refine ⟨?_, first.opens.append _, ?_⟩
  · obtain rfl := first.unnamed
    exact others.unnamed (Listing.AfterComma.unnamed ExprRecognized.unnamed)
  · exact (expressionListing.separated first others).mono fun _ _ => trivial

theorem args_recognized (h : (accepted .args).Means Recognized ts names) :
    Recognized .args ts names := by
  rcases h with ⟨rfl, rfl⟩ | h
  · refine ⟨rfl, fun fuel n tail _ => ?_⟩
    cases fuel with
    | zero => exact .tooDeep
    | succ fuel =>
      rw [arguments]
      refine .advance (.sees ?_)
      rw [pure_bind]
      exact .expect (.ended trivial)
  · obtain ⟨rfl, opens, reads⟩ := expressionList_recognized h
    refine ⟨rfl, fun fuel n tail _ => ?_⟩
    rw [Token.between, List.cons_append, List.append_assoc]
    cases fuel with
    | zero => exact .tooDeep
    | succ fuel =>
      rw [arguments]
      refine .advance (.misses (opens.head?_ne (by decide) _) ?_)
      exact (reads rfl).upTo fun args n' _ => .expect (.ended trivial)

theorem call_recognized (h : (accepted .call).Means Recognized ts names) :
    Recognized .call ts names := by
  obtain ⟨callee, _, rest, rfl⟩ := h.name_then
  obtain ⟨args, ⟨rfl, reads⟩, rfl⟩ := rest.between
  exact ⟨callee, args ++ [Token.symbol .rightParen], rfl, rfl, reads⟩

theorem steps_recognized (h : Repeated (Form.step.Means Recognized) ts names) :
    names = [] ∧ OpensSteps ts ∧ StepsRecognized ts := by
  induction h with
  | nil =>
    exact ⟨rfl, .inl rfl, fun fuel start root read n tail post _ goesOn => goesOn fuel read n⟩
  | @cons _ ts' _ _ first others ih =>
    obtain ⟨rfl, begins, reads⟩ := ih
    rcases first with first | first
    · obtain ⟨index, ⟨_, rfl, inIndex⟩, rfl⟩ := first.between
      refine ⟨rfl, .inr ⟨_, .inl rfl⟩, fun fuel start root read n tail post noCall goesOn => ?_⟩
      rw [List.append_assoc, List.cons_append, List.append_assoc]
      cases fuel with
      | zero => exact .tooDeep
      | succ fuel =>
        rw [access]
        refine .takes ((inIndex (.closing (by simp))).upTo fun e n' _ => .expect ?_)
        exact reads noCall goesOn
    · obtain ⟨_, member, rfl⟩ := first.mark_then
      obtain ⟨name, rfl, rfl⟩ := member.name
      refine ⟨rfl, .inr ⟨_, .inr rfl⟩, fun fuel start root read n tail post noCall goesOn => ?_⟩
      cases fuel with
      | zero => exact .tooDeep
      | succ fuel =>
        rw [access]
        refine .lacks (by simp) (.takes (.here fun nameAt => .expectName ?_))
        exact .misses (begins.head?_ne (by decide) noCall) (reads noCall goesOn)

theorem place_recognized (h : (accepted .place).Means Recognized ts names) :
    Recognized .place ts names := by
  obtain ⟨root, steps, several, rfl⟩ := h.name_then
  obtain ⟨rfl, begins, reads⟩ := steps_recognized several
  exact ⟨root, steps, rfl, rfl, begins, reads⟩

theorem field_unnamed (h : Form.field.Means Recognized ts names) : names = [] := by
  obtain ⟨_, _, rest, _⟩ := h.name_then
  obtain ⟨_, ⟨_, unnamed, _⟩, _⟩ := rest.mark_then
  exact unnamed

theorem fieldListing :
    Listing .rightBrace fieldList (Form.field.Means Recognized) (fun _ => []) where
  other := by decide
  zero := rfl
  item := by
    intro fuel ts names n tail post item after goesOn
    obtain ⟨name, _, rest, rfl⟩ := item.name_then
    obtain ⟨value, ⟨_, rfl, reads⟩, rfl⟩ := rest.mark_then
    rw [fieldList]
    refine .misses (by simp) (.here fun start => .expectName (.expect ?_))
    exact (reads (.item (by simp) after)).upTo fun e n' _ => goesOn _ n' rfl

theorem fields_recognized (h : (accepted .fields).Means Recognized ts names) :
    Recognized .fields ts names := by
  refine ⟨h.listed_unnamed field_unnamed, ?_⟩
  refine (fieldListing.listed (fun item => item) (fun fuel n tail ends => ?_) h).mono
    fun _ _ => trivial
  obtain ⟨rest, rfl⟩ : ∃ rest, tail = .symbol .rightBrace :: rest := by
    simpa [List.head?_eq_some_iff] using ends
  cases fuel with
  | zero => exact .tooDeep
  | succ fuel =>
    rw [fieldList]
    exact .sees (.ended rfl)

end LoopLang.Parse
