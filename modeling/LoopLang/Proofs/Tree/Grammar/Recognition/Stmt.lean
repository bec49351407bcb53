import LoopLang.Proofs.Tree.Grammar.Recognition.Expr

namespace LoopLang.Parse

open Grammar (accepted Form Nonterminal Kind Repeated)

variable {ts : List Token} {names : List (Kind × String)} {n : NodeId} {tail : List Token}

theorem value_recognized (h : Form.value.Means Recognized ts names) :
    names = [] ∧ ∃ us, ts = .symbol .equal :: us ∧
      Recognizes expression (Stops Level.comparison) anything us := by
  obtain ⟨us, ⟨_, rfl, reads⟩, rfl⟩ := h.mark_then
  exact ⟨rfl, us, rfl, reads⟩

theorem declaration_recognized (isConst : Bool)
    (h : (.name >> .mark .colon >> .rule .type >>
      (if isConst then .value else .optional .value) >> .mark .semicolon : Form).Means Recognized
        ts names) :
    names = [] ∧ ∃ name rest, ts = .name name :: .symbol .colon :: rest ∧
      ∀ {fuel n tail}, (declaration fuel isConst).Reads (ts ++ tail) n (Ending anything tail) := by
  obtain ⟨name, _, after, rfl⟩ := h.name_then
  obtain ⟨_, ⟨_, _, _, _, ⟨type, written, rfl, rfl⟩, given, rfl, rfl⟩, rfl⟩ := after.mark_then
  obtain ⟨ts, _, _, _, given, ended, rfl, rfl⟩ := given
  obtain ⟨rfl, rfl⟩ := ended.mark
  have defined {us : List Token}
      (reads : Recognizes expression (Stops Level.comparison) anything us) {fuel n tail} :
      (declaration fuel isConst).Reads
        (.name name :: .symbol .colon ::
          (type.tokens ++ .symbol .equal :: (us ++ .symbol .semicolon :: tail))) n
        (Ending anything tail) := by
    rw [declaration]
    refine .here fun start => .expectName (.expect (.type written (.number (.takes ?_))))
    exact (reads (.closing (by simp))).upTo fun e n' _ => .expect (.ended trivial)
  cases isConst with
  | true =>
    obtain ⟨rfl, us, rfl, reads⟩ := value_recognized given
    refine ⟨rfl, name, _, rfl, ?_⟩
    intro fuel n tail
    simpa only [List.cons_append, List.append_assoc, List.nil_append] using defined reads
  | false =>
    rcases given with ⟨rfl, rfl⟩ | given
    · refine ⟨rfl, name, _, rfl, ?_⟩
      intro fuel n tail
      rw [List.cons_append, List.cons_append, List.append_assoc, declaration]
      refine .here fun start => .expectName (.expect (.type written (.number ?_)))
      refine .lacks (by simp) ?_
      rw [if_neg Bool.false_ne_true]
      exact .expect (.ended trivial)
    · obtain ⟨rfl, us, rfl, reads⟩ := value_recognized given
      refine ⟨rfl, name, _, rfl, ?_⟩
      intro fuel n tail
      simpa only [List.cons_append, List.append_assoc, List.nil_append] using defined reads

theorem branch_recognized (h : Form.branch.Means Recognized ts names) :
    names = [] ∧ ∀ {β : Type} {fuel n keyword tail} {f : Expr → List Stmt → Parse β} {post},
      (∀ test body n', (f test body).Reads tail n' post) →
      (condition fuel keyword >>= fun test => block fuel >>= f test).Reads (ts ++ tail) n post := by
  obtain ⟨_, _, inner, _, test, ⟨rfl, _, inBlock⟩, rfl, rfl⟩ := h
  obtain ⟨us, ⟨_, rfl, inTest⟩, rfl⟩ := test.between
  refine ⟨rfl, fun {β fuel n keyword tail f post} goesOn => ?_⟩
  rw [condition, List.append_assoc, List.cons_append, List.append_assoc, bind_assoc]
  refine .expect ?_
  rw [bind_assoc]
  refine (inTest (.closing (by simp))).upTo fun test n' _ => ?_
  rw [bind_assoc]
  refine .expect ?_
  rw [pure_bind]
  exact (inBlock trivial).upTo fun body n2 _ => goesOn test body n2

theorem elifs_recognized
    (h : Repeated ((.word .elif >> .branch : Form).Means Recognized) ts names) :
    names = [] ∧ ∀ {fuel n tail}, tail.head? ≠ some (.keyword .elif) →
      (elifList fuel).Reads (ts ++ tail) n (Ending anything tail) := by
  induction h with
  | nil =>
    refine ⟨rfl, fun {fuel n tail} other => ?_⟩
    cases fuel with
    | zero => exact .tooDeep
    | succ fuel =>
      rw [elifList]
      exact .lacksWord other (.ended trivial)
  | cons first others ih =>
    obtain ⟨rfl, inOthers⟩ := ih
    obtain ⟨us, branch, rfl⟩ := first.word_then
    obtain ⟨rfl, inBranch⟩ := branch_recognized branch
    refine ⟨rfl, fun {fuel n tail} other => ?_⟩
    cases fuel with
    | zero => exact .tooDeep
    | succ fuel =>
      rw [elifList, List.cons_append, List.cons_append, List.append_assoc]
      refine .takesWord (inBranch fun test body n' => ?_)
      exact (inOthers other).upTo fun rest n2 _ => .ended trivial

theorem separate_of_statements (h : Repeated (Recognized .statement) ts names) :
    Separate (ts ++ .symbol .rightBrace :: tail) := by
  cases h with
  | nil => constructor <;> simp
  | cons first others =>
    obtain ⟨_, ⟨t, rest, rfl, _, noElif, noElse⟩, _⟩ := first
    exact ⟨by simpa using noElif, by simpa using noElse⟩

theorem statements_recognized (h : Repeated (Recognized .statement) ts names) :
    names = [] ∧ ∀ {fuel n tail}, (statements fuel).Reads (ts ++ .symbol .rightBrace :: tail) n
      (Ending anything tail) := by
  induction h with
  | nil =>
    refine ⟨rfl, fun {fuel n tail} => ?_⟩
    cases fuel with
    | zero => exact .tooDeep
    | succ fuel =>
      rw [statements]
      exact .takes (.ended trivial)
  | @cons ts ts' _ _ first others ih =>
    obtain ⟨rfl, inOthers⟩ := ih
    obtain ⟨rfl, ⟨t, rest, rfl, noBrace, _, _⟩, inFirst⟩ := first
    refine ⟨rfl, fun {fuel n tail} => ?_⟩
    cases fuel with
    | zero => exact .tooDeep
    | succ fuel =>
      rw [statements, List.append_assoc]
      refine .lacks (by simpa using noBrace) (.peek ?_)
      rw [List.cons_append, List.head?_cons, Option.isNone_some, if_neg Bool.false_ne_true]
      refine (inFirst (separate_of_statements others)).upTo fun s n' _ => ?_
      exact inOthers.upTo fun rest n2 _ => .ended trivial

theorem block_recognized (h : (accepted .block).Means Recognized ts names) :
    Recognized .block ts names := by
  obtain ⟨inner, several, rfl⟩ := h.between
  obtain ⟨rfl, reads⟩ := statements_recognized several
  refine ⟨rfl, ⟨_, rfl⟩, fun fuel n tail _ => ?_⟩
  rw [List.cons_append, List.append_assoc]
  cases fuel with
  | zero => exact .tooDeep
  | succ fuel =>
    rw [block]
    exact .expect reads

theorem OpensNamed.statement {ts' : List Token} {post : Stmt → List Token → NodeId → Prop}
    (opens : OpensNamed ts) (other : ts'.head? ≠ some (.symbol .colon))
    (h : ∀ fuel, (expressionStatement fuel).Reads (ts ++ ts') n post) {fuel : Nat} :
    (Parse.statement fuel).Reads (ts ++ ts') n post := by
  obtain ⟨t, rest, rfl, rfl | ⟨⟨text, rfl⟩, noColon⟩⟩ := opens
  · cases fuel with
    | zero => exact .tooDeep
    | succ fuel =>
      rw [Parse.statement]
      exact .here fun start => .peek (h fuel)
  · refine statement_of_expression ?_ h
    cases rest with
    | nil => exact other
    | cons t rest => exact noColon

theorem OpensNamed.stmt (opens : OpensNamed ts) (ts' : List Token) : OpensStmt (ts ++ ts') := by
  obtain ⟨t, rest, rfl, rfl | ⟨⟨text, rfl⟩, _⟩⟩ := opens
  · exact ⟨_, _, rfl, by simp, by simp, by simp⟩
  · exact ⟨_, _, rfl, by simp, by simp, by simp⟩

theorem assignment_recognized
    (h : (.rule .target >> .value >> .mark .semicolon : Form).Means Recognized ts names) :
    Recognized .statement ts names := by
  obtain ⟨ts, _, _, _, ⟨opens, rfl, inTarget⟩, ⟨_, _, _, _, given, ended, rfl, rfl⟩, rfl, rfl⟩ := h
  obtain ⟨rfl, us, rfl, inValue⟩ := value_recognized given
  obtain ⟨rfl, rfl⟩ := ended.mark
  refine ⟨rfl, opens.stmt _, fun fuel n tail _ => ?_⟩
  rw [List.append_assoc, List.cons_append, List.cons_append, List.append_assoc]
  refine opens.statement (by simp) fun fuel => .here fun start => ?_
  refine (inTarget (.closing (by simp))).upTo fun e n' target => .takes ?_
  cases e with
  | place => exact (inValue (.closing (by simp))).upTo fun e' n2 _ => .expect (.ended trivial)
  | _ => exact target.elim

theorem invocation_statement
    (h : (.rule .invocation >> .mark .semicolon : Form).Means Recognized ts names) :
    Recognized .statement ts names := by
  obtain ⟨ts, _, _, _, ⟨opens, rfl, reads⟩, ended, rfl, rfl⟩ := h
  obtain ⟨rfl, rfl⟩ := ended.mark
  refine ⟨rfl, opens.stmt _, fun fuel n tail _ => ?_⟩
  rw [List.append_assoc]
  refine opens.statement (by simp) fun fuel => .here fun start => ?_
  refine (reads (.closing (by simp))).upTo fun e n' invoked => .lacks (by simp) (.expect ?_)
  cases e with
  | place | method | call => exact .ended trivial
  | _ => exact invoked.elim

theorem word_statement {word : Keyword} (begins : word ≠ .elif ∧ word ≠ .else_)
    (reads : ∀ {fuel n tail}, Separate tail →
      (statement (fuel + 1)).Reads (.keyword word :: (ts ++ tail)) n (Ending anything tail)) :
    Recognized .statement (.keyword word :: ts) [] := by
  refine ⟨rfl, ⟨_, _, rfl, by simp, by simpa using begins.1, by simpa using begins.2⟩, ?_⟩
  intro fuel n tail separate
  cases fuel with
  | zero => exact .tooDeep
  | succ fuel => exact reads separate

theorem choose_recognized
    (h : (.word .if_ >> .branch >> .many (.word .elif >> .branch) >>
      .optional (.word .else_ >> .rule .block) : Form).Means Recognized ts names) :
    Recognized .statement ts names := by
  obtain ⟨_, ⟨ts, _, _, _, branch, ⟨ts', _, _, _, several, otherwise, rfl, rfl⟩, rfl, rfl⟩, rfl⟩ :=
    h.word_then
  obtain ⟨rfl, inBranch⟩ := branch_recognized branch
  obtain ⟨rfl, inElifs⟩ := elifs_recognized several
  rcases otherwise with ⟨rfl, rfl⟩ | otherwise
  · refine word_statement (by decide) fun {fuel n tail} separate => ?_
    rw [statement, List.append_nil, List.append_assoc]
    refine .here fun start => .peek (.advance (inBranch fun test body n' => ?_))
    refine (inElifs separate.elif).upTo fun elifs n2 _ => .lacksWord separate.else_ ?_
    exact .ended trivial
  · obtain ⟨last, ⟨rfl, _, inLast⟩, rfl⟩ := otherwise.word_then
    refine word_statement (by decide) fun {fuel n tail} separate => ?_
    rw [statement, List.append_assoc, List.append_assoc]
    refine .here fun start => .peek (.advance (inBranch fun test body n' => ?_))
    refine (inElifs (by simp)).upTo fun elifs n2 _ => .takesWord ?_
    exact (inLast trivial).map_upTo fun last' n3 _ => .ended trivial

theorem statement_recognized (h : (accepted .statement).Means Recognized ts names) :
    Recognized .statement ts names := by
  rcases h with h | h | h | h | h | h | h | h | h
  · obtain ⟨_, _, ts, names, before, declared, rfl, rfl⟩ := h
    obtain ⟨rfl, name, rest, rfl, reads⟩ := declaration_recognized false declared
    rcases before with ⟨rfl, rfl⟩ | before
    · refine ⟨rfl, ⟨_, _, rfl, by simp, by simp, by simp⟩, fun fuel n tail _ => ?_⟩
      exact declaration_of_name fun fuel => reads
    · obtain ⟨rfl, rfl⟩ := before.word
      refine word_statement (by decide) fun {fuel n tail} _ => ?_
      rw [statement]
      exact .here fun start => .peek (.advance reads)
  · obtain ⟨ts, declared, rfl⟩ := h.word_then
    obtain ⟨rfl, name, rest, rfl, reads⟩ := declaration_recognized true declared
    refine word_statement (by decide) fun {fuel n tail} _ => ?_
    rw [statement]
    exact .here fun start => .peek (.advance reads)
  · obtain ⟨ts, ⟨rfl, _, inBlock⟩, rfl⟩ := h.word_then
    refine word_statement (by decide) fun {fuel n tail} _ => ?_
    rw [statement]
    refine .here fun start => .peek (.advance ?_)
    exact (inBlock trivial).upTo fun body n' _ => .ended trivial
  · exact choose_recognized h
  · obtain ⟨_, ⟨ts, _, _, _, value, ended, rfl, rfl⟩, rfl⟩ := h.word_then
    obtain ⟨rfl, rfl⟩ := ended.mark
    rcases value with ⟨rfl, rfl⟩ | ⟨opens, rfl, reads⟩
    · refine word_statement (by decide) fun {fuel n tail} _ => ?_
      rw [statement]
      refine .here fun start => .peek (.advance (.sees ?_))
      rw [pure_bind]
      exact .expect (.ended trivial)
    · refine word_statement (by decide) fun {fuel n tail} _ => ?_
      rw [statement, List.append_assoc]
      refine .here fun start => .peek (.advance (.misses (opens.head?_ne (by decide) _) ?_))
      exact (reads (.closing (by simp))).map_upTo fun e n' _ => .expect (.ended trivial)
  · obtain ⟨_, ended, rfl⟩ := h.word_then
    obtain ⟨rfl, rfl⟩ := ended.mark
    refine word_statement (by decide) fun {fuel n tail} _ => ?_
    rw [statement]
    exact .here fun start => .peek (.advance (.expect (.ended trivial)))
  · obtain ⟨_, ended, rfl⟩ := h.word_then
    obtain ⟨rfl, rfl⟩ := ended.mark
    refine word_statement (by decide) fun {fuel n tail} _ => ?_
    rw [statement]
    exact .here fun start => .peek (.advance (.expect (.ended trivial)))
  · exact assignment_recognized h
  · exact invocation_statement h

end LoopLang.Parse
