import LoopLang.Proofs.Tree.Rereading.Expr

namespace LoopLang

namespace Expr

variable {e : Expr} {node : Node} {root : String} {steps : List Step}

theorem eq_place_of_unplaced (h : e.unplaced = (place node root steps).unplaced) :
    ∃ node' steps', e = place node' root steps' ∧ node'.unplaced = node.unplaced ∧
      Step.unplacedAll steps' = Step.unplacedAll steps := by
  cases e with
  | place node' root' steps' =>
    simp only [unplaced, place.injEq] at h
    obtain ⟨sameNode, rfl, sameSteps⟩ := h
    exact ⟨node', steps', rfl, sameNode, sameSteps⟩
  | _ =>
    simp only [unplaced] at h
    cases h

theorem eq_method_of_unplaced {name : String} {nameAt : Position} {args : List Expr}
    (h : e.unplaced = (method node root steps name nameAt args).unplaced) :
    ∃ node' steps' nameAt' args', e = method node' root steps' name nameAt' args' ∧
      node'.unplaced = node.unplaced ∧ Step.unplacedAll steps' = Step.unplacedAll steps ∧
      Expr.unplacedAll args' = Expr.unplacedAll args := by
  cases e with
  | method node' root' steps' name' nameAt' args' =>
    simp only [unplaced, method.injEq] at h
    obtain ⟨sameNode, rfl, sameSteps, rfl, _, sameArgs⟩ := h
    exact ⟨node', steps', nameAt', args', rfl, sameNode, sameSteps, sameArgs⟩
  | _ =>
    simp only [unplaced] at h
    cases h

theorem eq_call_of_unplaced {callee : String} {args : List Expr}
    (h : e.unplaced = (call node callee args).unplaced) :
    ∃ node' args', e = call node' callee args' ∧ node'.unplaced = node.unplaced ∧
      Expr.unplacedAll args' = Expr.unplacedAll args := by
  cases e with
  | call node' callee' args' =>
    simp only [unplaced, call.injEq] at h
    obtain ⟨sameNode, rfl, sameArgs⟩ := h
    exact ⟨node', args', rfl, sameNode, sameArgs⟩
  | _ =>
    simp only [unplaced] at h
    cases h

end Expr

namespace Token

inductive BeginsStmt : Token → Prop where
  | name {text} : BeginsStmt (.name text)
  | word {word} : word ≠ .elif → word ≠ .else_ → BeginsStmt (.keyword word)

end Token

theorem Stmt.begins (s : Stmt) : ∃ t ts, s.tokens = t :: ts ∧ t.BeginsStmt := by
  cases s with
  | declare | assign | call | place | method => exact ⟨_, _, rfl, .name⟩
  | define node name type value isConst =>
    cases isConst with
    | true => exact ⟨_, _, rfl, .word (by decide) (by decide)⟩
    | false => exact ⟨_, _, rfl, .name⟩
  | loop | «break» | «continue» => exact ⟨_, _, rfl, .word (by decide) (by decide)⟩
  | choose position first elifs otherwise =>
    cases otherwise <;> rw [tokens] <;> exact ⟨_, _, rfl, .word (by decide) (by decide)⟩
  | «return» position value =>
    cases value <;> exact ⟨_, _, rfl, .word (by decide) (by decide)⟩

namespace Parse

structure Separate (tail : List Token) : Prop where
  elif : tail.head? ≠ some (.keyword .elif)
  else_ : tail.head? ≠ some (.keyword .else_)

theorem Separate.tokensOf (body : List Stmt) (tail : List Token) :
    Separate (Stmt.tokensOf body ++ .symbol .rightBrace :: tail) := by
  cases body with
  | nil => constructor <;> simp [Stmt.tokensOf]
  | cons s rest =>
    obtain ⟨t, ts, first, begins⟩ := s.begins
    rw [Stmt.tokensOf, first]
    cases begins with
    | name => constructor <;> simp
    | word noElif noElse =>
      refine ⟨fun same => noElif ?_, fun same => noElse ?_⟩
      · cases same
        rfl
      · cases same
        rfl

def StmtRestored (s : Stmt) : Prop :=
  ∀ ⦃fuel first n tail⦄, Numbered first s.ids n → (∀ type ∈ s.types, type.Written) →
    Separate tail →
    (statement fuel).Reads (s.tokens ++ tail) first (Leaving (·.unplaced = s.unplaced) tail n)

def BodyRestored (body : List Stmt) : Prop :=
  ∀ ⦃fuel first n⦄ (tail : List Token), Numbered first (Stmt.idsOf body) n →
    (∀ type ∈ Stmt.typesOf body, type.Written) →
    (statements fuel).Reads (Stmt.tokensOf body ++ .symbol .rightBrace :: tail) first
      (Leaving (Stmt.unplacedAll · = Stmt.unplacedAll body) tail n)

def BranchesRestored (branches : List (Branch Stmt)) : Prop :=
  ∀ ⦃fuel first n tail⦄, Numbered first (Stmt.idsOfBranches branches) n →
    (∀ type ∈ Stmt.typesOfBranches branches, type.Written) →
    tail.head? ≠ some (.keyword .elif) →
    (elifList fuel).Reads (Stmt.tokensOfBranches branches ++ tail) first
      (Leaving (Stmt.unplacedBranches · = Stmt.unplacedBranches branches) tail n)

section Parts

variable {fuel : Nat} {first n : NodeId} {tail : List Token}

theorem condition_restored {keyword : Keyword} {test : Expr}
    (numbered : Numbered first test.ids n) :
    (condition fuel keyword).Reads (Token.between .leftParen .rightParen test.tokens ++ tail) first
      (Leaving (·.unplaced = test.unplaced) tail n) := by
  rw [condition, Token.between, List.cons_append, List.append_assoc]
  refine .expect ((value_restored numbered (.closing (by simp))).then ?_)
  exact fun test' same => .expect (.done same)

theorem block_restored {body : List Stmt} (h : BodyRestored body)
    (numbered : Numbered first (Stmt.idsOf body) n)
    (written : ∀ type ∈ Stmt.typesOf body, type.Written) :
    (block fuel).Reads (Token.between .leftBrace .rightBrace (Stmt.tokensOf body) ++ tail) first
      (Leaving (Stmt.unplacedAll · = Stmt.unplacedAll body) tail n) := by
  rw [Token.between, List.cons_append, List.append_assoc]
  cases fuel with
  | zero => exact .tooDeep
  | succ fuel => exact .expect (h tail numbered written)

theorem declare_restored {node : Node} {name : String} {type : Ty} (written : type.Written) :
    (declaration fuel false).Reads ((Stmt.declare node name type).tokens ++ tail) node.id
      (Leaving (·.unplaced = (Stmt.declare node name type).unplaced) tail (node.id + 1)) := by
  rw [Stmt.tokens, List.cons_append, List.cons_append, List.append_assoc, declaration]
  refine .here fun start => .expectName (.expect (.type written (.number ?_)))
  refine .lacks (by simp) ?_
  rw [if_neg Bool.false_ne_true]
  exact .expect (.done rfl)

theorem define_restored {node : Node} {name : String} {type : Ty} {value : Expr} {isConst : Bool}
    (written : type.Written) (numbered : Numbered (node.id + 1) value.ids n) :
    (declaration fuel isConst).Reads (.name name :: .symbol .colon ::
      (type.tokens ++ .symbol .equal :: (value.tokens ++ .symbol .semicolon :: tail))) node.id
      (Leaving (·.unplaced = (Stmt.define node name type value isConst).unplaced) tail n) := by
  rw [declaration]
  refine .here fun start => .expectName (.expect (.type written (.number (.takes ?_))))
  refine (value_restored numbered (.closing (by simp))).then fun value' same => .expect (.done ?_)
  rw [Stmt.unplaced, Stmt.unplaced, same]
  rfl

theorem statement_of_expression {root : String} {ts : List Token}
    {post : Stmt → List Token → NodeId → Prop} (other : ts.head? ≠ some (.symbol .colon))
    (h : ∀ fuel, (expressionStatement fuel).Reads (.name root :: ts) n post) :
    (statement fuel).Reads (.name root :: ts) n post := by
  cases fuel with
  | zero => exact .tooDeep
  | succ fuel =>
    rw [statement]
    refine .here fun start => .peek (.peekSecond ?_)
    rw [List.getElem?_cons_succ, ← List.head?_eq_getElem?, if_neg other]
    exact h fuel

theorem declaration_of_name {name : String} {ts : List Token}
    {post : Stmt → List Token → NodeId → Prop}
    (h : ∀ fuel, (declaration fuel false).Reads (.name name :: .symbol .colon :: ts) n post) :
    (statement fuel).Reads (.name name :: .symbol .colon :: ts) n post := by
  cases fuel with
  | zero => exact .tooDeep
  | succ fuel =>
    rw [statement]
    refine .here fun start => .peek (.peekSecond ?_)
    rw [List.getElem?_cons_succ, List.getElem?_cons_zero, if_pos rfl]
    exact h fuel

end Parts

section Statements

variable {fuel : Nat} {node : Node} {position : Position} {root : String} {steps : List Step}
  {args : List Expr}

theorem call_stmt_restored {callee : String} :
    StmtRestored (.call position node callee args) := by
  intro fuel first n tail numbered _ _
  rw [Stmt.tokens, List.append_assoc]
  refine statement_of_expression (by simp [Token.between]) fun fuel => ?_
  refine .here fun start => ?_
  refine (value_restored (e := .call node callee args) numbered (.closing (by simp))).then ?_
  intro e' same
  obtain ⟨node', args', rfl, sameNode, sameArgs⟩ := Expr.eq_call_of_unplaced same
  refine .lacks (by simp) ?_
  refine .expect (.done ?_)
  rw [Stmt.unplaced, Stmt.unplaced, sameNode, sameArgs]

theorem place_stmt_restored : StmtRestored (.place position node root steps) := by
  intro fuel first n tail numbered _ _
  rw [Stmt.tokens, List.append_assoc]
  refine statement_of_expression (Step.tokensOf_head_ne (by decide) (by simp)) fun fuel => ?_
  refine .here fun start => ?_
  refine (value_restored (e := .place node root steps) numbered (.closing (by simp))).then ?_
  intro e' same
  obtain ⟨node', steps', rfl, sameNode, sameSteps⟩ := Expr.eq_place_of_unplaced same
  refine .lacks (by simp) ?_
  refine .expect (.done ?_)
  rw [Stmt.unplaced, Stmt.unplaced, sameNode, sameSteps]

theorem method_stmt_restored {name : String} {nameAt : Position} :
    StmtRestored (.method position node root steps name nameAt args) := by
  intro fuel first n tail numbered _ _
  rw [Stmt.tokens, List.append_assoc, Expr.tokens, List.cons_append, List.append_assoc]
  refine statement_of_expression (Step.tokensOf_head_ne (by decide) (by simp)) fun fuel => ?_
  -- The tokens were opened only to see what follows the name.
  rw [← List.append_assoc, ← List.cons_append, ← Expr.tokens]
  refine .here fun start => ?_
  refine (value_restored (e := .method node root steps name nameAt args) numbered
    (.closing (by simp))).then ?_
  intro e' same
  obtain ⟨node', steps', nameAt', args', rfl, sameNode, sameSteps, sameArgs⟩ :=
    Expr.eq_method_of_unplaced same
  refine .lacks (by simp) ?_
  refine .expect (.done ?_)
  rw [Stmt.unplaced, Stmt.unplaced, sameNode, sameSteps, sameArgs]

theorem assign_restored {target : Node} {value : Expr} :
    StmtRestored (.assign position target root steps value) := by
  intro fuel first n tail numbered _ _
  obtain ⟨middle, inPlace, inValue⟩ := numbered.split
  rw [Stmt.tokens, List.cons_append, List.append_assoc, List.cons_append, List.append_assoc]
  refine statement_of_expression (Step.tokensOf_head_ne (by decide) (by simp)) fun fuel => ?_
  refine .here fun start => ?_
  refine (value_restored (e := .place target root steps) inPlace (.closing (by simp))).then ?_
  intro e' same
  obtain ⟨target', steps', rfl, sameTarget, sameSteps⟩ := Expr.eq_place_of_unplaced same
  refine .takes ?_
  refine (value_restored inValue (.closing (by simp))).then fun value' sameValue => ?_
  refine .expect (.done ?_)
  rw [Stmt.unplaced, Stmt.unplaced, sameTarget, sameSteps, sameValue]

theorem define_stmt_restored {name : String} {type : Ty} {value : Expr} {isConst : Bool} :
    StmtRestored (.define node name type value isConst) := by
  intro fuel first n tail numbered written _
  obtain ⟨rfl, inValue⟩ := numbered.of_cons
  have typed : type.Written := written type List.mem_cons_self
  cases isConst with
  | false =>
    have tokens : (Stmt.define node name type value false).tokens ++ tail =
        .name name :: .symbol .colon :: (type.tokens ++ .symbol .equal ::
          (value.tokens ++ .symbol .semicolon :: tail)) := by
      simp [Stmt.tokens]
    rw [tokens]
    exact declaration_of_name fun fuel => define_restored typed inValue
  | true =>
    have tokens : (Stmt.define node name type value true).tokens ++ tail =
        .keyword .const :: .name name :: .symbol .colon :: (type.tokens ++ .symbol .equal ::
          (value.tokens ++ .symbol .semicolon :: tail)) := by
      simp [Stmt.tokens]
    rw [tokens]
    cases fuel with
    | zero => exact .tooDeep
    | succ fuel =>
      rw [statement]
      exact .here fun start => .peek (.advance (define_restored typed inValue))

theorem return_restored {value : Option Expr} : StmtRestored (.return position value) := by
  intro fuel first n tail numbered _ _
  cases fuel with
  | zero => cases value <;> exact .tooDeep
  | succ fuel =>
    rw [statement]
    cases value with
    | none =>
      obtain rfl := numbered.of_nil
      refine .here fun start => .peek (.advance (.sees ?_))
      rw [pure_bind]
      exact .expect (.done rfl)
    | some e =>
      rw [Stmt.tokens, List.cons_append, List.append_assoc]
      refine .here fun start => .peek (.advance (.misses (e.head?_ne _ (by decide)) ?_))
      refine (value_restored numbered (.closing (by simp))).map_then fun e' same => ?_
      refine .expect (.done ?_)
      rw [Stmt.unplaced, Stmt.unplaced, Option.map_some, Option.map_some, same]

theorem loop_restored {body : List Stmt} (h : BodyRestored body) :
    StmtRestored (.loop position body) := by
  intro fuel first n tail numbered written _
  cases fuel with
  | zero => exact .tooDeep
  | succ fuel =>
    rw [statement, Stmt.tokens, List.cons_append]
    refine .here fun start => .peek (.advance ?_)
    refine (block_restored h numbered written).then fun body' same => .done ?_
    rw [Stmt.unplaced, Stmt.unplaced, same]

def lastBranch (fuel : Nat) (start : Position) (first : Branch Stmt)
    (elifs : List (Branch Stmt)) : Parse Stmt := do
  let otherwise ← if ← acceptWord .else_ then some <$> block fuel else pure none
  return .choose start first elifs otherwise

theorem conditional_branches {test : Expr} {body : List Stmt} {elifs : List (Branch Stmt)}
    (inBody : BodyRestored body) (inElifs : BranchesRestored elifs) {first n : NodeId}
    {tail : List Token} {post : Stmt → List Token → NodeId → Prop}
    {start : Position} (numbered : Numbered first
      (test.ids ++ Stmt.idsOf body ++ Stmt.idsOfBranches elifs) n)
    (written : ∀ type ∈ Stmt.typesOf body ++ Stmt.typesOfBranches elifs, type.Written)
    (noElif : tail.head? ≠ some (.keyword .elif))
    (goesOn : ∀ test' body' elifs', test'.unplaced = test.unplaced →
      Stmt.unplacedAll body' = Stmt.unplacedAll body →
      Stmt.unplacedBranches elifs' = Stmt.unplacedBranches elifs →
      (lastBranch fuel start ⟨test', body'⟩ elifs').Reads tail n post) :
    (do
      let test ← condition fuel .if_
      let first := Branch.mk test (← block fuel)
      let elifs ← elifList fuel
      lastBranch fuel start first elifs).Reads
      (Token.between .leftParen .rightParen test.tokens ++
        (Token.between .leftBrace .rightBrace (Stmt.tokensOf body) ++
          (Stmt.tokensOfBranches elifs ++ tail))) first post := by
  rw [List.append_assoc] at numbered
  obtain ⟨middle, inTest, after⟩ := numbered.split
  obtain ⟨middle2, body_numbered, elifs_numbered⟩ := after.split
  obtain ⟨body_written, elifs_written⟩ := List.forall_mem_append.mp written
  refine (condition_restored inTest).then fun test' sameTest => ?_
  refine (block_restored inBody body_numbered body_written).then fun body' sameBody => ?_
  refine (inElifs elifs_numbered elifs_written noElif).then fun elifs' sameElifs => ?_
  exact goesOn test' body' elifs' sameTest sameBody sameElifs

theorem choose_restored {test : Expr} {body : List Stmt} {elifs : List (Branch Stmt)}
    {otherwise : Option (List Stmt)} (inBody : BodyRestored body) (inElifs : BranchesRestored elifs)
    (inLast : ∀ last ∈ otherwise, BodyRestored last) :
    StmtRestored (.choose position ⟨test, body⟩ elifs otherwise) := by
  intro fuel first n tail numbered written separate
  cases fuel with
  | zero =>
    rw [statement]
    exact .tooDeep
  | succ fuel =>
    rw [statement]
    cases otherwise with
    | none =>
      rw [Stmt.ids, List.append_nil] at numbered
      rw [Stmt.types, List.append_nil] at written
      rw [Stmt.tokens, List.append_nil, List.cons_append, List.append_assoc, List.append_assoc]
      refine .here fun start => .peek (.advance ?_)
      refine conditional_branches inBody inElifs numbered written separate.elif ?_
      intro test' body' elifs' sameTest sameBody sameElifs
      refine .lacksWord separate.else_ ?_
      rw [pure_bind]
      refine .done ?_
      rw [Stmt.unplaced, Stmt.unplaced, sameTest, sameBody, sameElifs]
    | some last =>
      rw [Stmt.ids] at numbered
      rw [Stmt.types] at written
      obtain ⟨middle, before, inside⟩ := numbered.split
      obtain ⟨others_written, last_written⟩ := List.forall_mem_append.mp written
      rw [Stmt.tokens, List.cons_append, List.append_assoc, List.append_assoc, List.append_assoc,
        List.cons_append]
      refine .here fun start => .peek (.advance ?_)
      refine conditional_branches inBody inElifs before others_written (by simp) ?_
      intro test' body' elifs' sameTest sameBody sameElifs
      refine .takesWord ?_
      refine (block_restored (inLast last rfl) inside last_written).map_then ?_
      refine fun last' sameLast => .done ?_
      rw [Stmt.unplaced, Stmt.unplaced, sameTest, sameBody, sameElifs, sameLast]

theorem BranchesRestored.nil : BranchesRestored [] := by
  intro fuel first n tail numbered _ other
  obtain rfl := numbered.of_nil
  cases fuel with
  | zero => exact .tooDeep
  | succ fuel =>
    rw [elifList]
    exact .lacksWord other (.done rfl)

theorem BranchesRestored.cons {test : Expr} {body : List Stmt} {rest : List (Branch Stmt)}
    (inBody : BodyRestored body) (others : BranchesRestored rest) :
    BranchesRestored (⟨test, body⟩ :: rest) := by
  intro fuel first n tail numbered written other
  rw [Stmt.idsOfBranches, List.append_assoc] at numbered
  obtain ⟨middle, inTest, after⟩ := numbered.split
  obtain ⟨middle2, body_numbered, rest_numbered⟩ := after.split
  obtain ⟨body_written, rest_written⟩ := List.forall_mem_append.mp written
  cases fuel with
  | zero => exact .tooDeep
  | succ fuel =>
    rw [elifList, Stmt.tokensOfBranches, List.cons_append, List.append_assoc, List.append_assoc]
    refine .takesWord ?_
    refine (condition_restored inTest).then fun test' sameTest => ?_
    refine (block_restored inBody body_numbered body_written).then fun body' sameBody => ?_
    refine (others rest_numbered rest_written other).then fun rest' sameRest => .done ?_
    rw [Stmt.unplacedBranches, Stmt.unplacedBranches, sameTest, sameBody, sameRest]

theorem BodyRestored.nil : BodyRestored [] := by
  intro fuel first n tail numbered _
  obtain rfl := numbered.of_nil
  cases fuel with
  | zero => exact .tooDeep
  | succ fuel =>
    rw [statements]
    exact .takes (.done rfl)

theorem BodyRestored.cons {s : Stmt} {rest : List Stmt} (one : StmtRestored s)
    (others : BodyRestored rest) : BodyRestored (s :: rest) := by
  intro fuel first n tail numbered written
  obtain ⟨middle, inFirst, inRest⟩ := numbered.split
  obtain ⟨first_written, rest_written⟩ := List.forall_mem_append.mp written
  cases fuel with
  | zero => exact .tooDeep
  | succ fuel =>
    have reads : (do return (← statement fuel) :: (← statements fuel) : Parse (List Stmt)).Reads
        (s.tokens ++ (Stmt.tokensOf rest ++ .symbol .rightBrace :: tail)) first
        (Leaving (Stmt.unplacedAll · = Stmt.unplacedAll (s :: rest)) tail n) := by
      refine (one inFirst first_written (.tokensOf rest tail)).then fun s' same => ?_
      refine (others tail inRest rest_written).then fun rest' sameRest => .done ?_
      rw [Stmt.unplacedAll, Stmt.unplacedAll, same, sameRest]
    -- A statement has a first token, which is not the brace that ends a block.
    obtain ⟨t, ts, head, begins⟩ := s.begins
    rw [statements, Stmt.tokensOf, List.append_assoc]
    rw [head] at reads ⊢
    refine .lacks ?_ ?_
    · cases begins <;> simp
    · refine .peek ?_
      rw [List.cons_append, List.head?_cons, Option.isNone_some, if_neg Bool.false_ne_true]
      exact reads

end Statements

mutual

theorem stmt_restored : ∀ s : Stmt, StmtRestored s
  | .declare node name type => fun _ _ _ _ numbered written _ => by
    obtain ⟨rfl, none_left⟩ := numbered.of_cons
    obtain rfl := none_left.of_nil
    exact declaration_of_name fun fuel => declare_restored (written type List.mem_cons_self)
  | .define .. => define_stmt_restored
  | .assign .. => assign_restored
  | .loop _ body => loop_restored (body_restored body)
  | .choose _ ⟨_, body⟩ elifs (some last) => choose_restored (body_restored body)
      (branches_restored elifs) (by rintro _ ⟨⟩; exact body_restored last)
  | .choose _ ⟨_, body⟩ elifs none =>
    choose_restored (body_restored body) (branches_restored elifs) (by simp)
  | .return .. => return_restored
  | .break _ => fun fuel _ _ _ numbered _ _ => by
    obtain rfl := numbered.of_nil
    cases fuel with
    | zero => exact .tooDeep
    | succ fuel =>
      rw [statement]
      exact .here fun _ => .peek (.advance (.expect (.done rfl)))
  | .continue _ => fun fuel _ _ _ numbered _ _ => by
    obtain rfl := numbered.of_nil
    cases fuel with
    | zero => exact .tooDeep
    | succ fuel =>
      rw [statement]
      exact .here fun _ => .peek (.advance (.expect (.done rfl)))
  | .call .. => call_stmt_restored
  | .place .. => place_stmt_restored
  | .method .. => method_stmt_restored
termination_by structural s => s

theorem body_restored : ∀ body : List Stmt, BodyRestored body
  | [] => .nil
  | s :: rest => .cons (stmt_restored s) (body_restored rest)
termination_by structural body => body

theorem branches_restored : ∀ branches : List (Branch Stmt), BranchesRestored branches
  | [] => .nil
  | ⟨_, body⟩ :: rest => .cons (body_restored body) (branches_restored rest)
termination_by structural branches => branches

end

end Parse
end LoopLang
