import LoopLang.Proofs.Tree.Grammar.Derivation
import LoopLang.Proofs.Tree.Rereading.Definition

namespace LoopLang.Parse

open Grammar (accepted Form Nonterminal Kind Repeated)

def Ending {α : Type} (P : α → Prop) (ts : List Token) (a : α) (ts' : List Token) (_ : NodeId) :
    Prop := P a ∧ ts' = ts

/-- When what comes after the tokens satisfies `follows`, just the tokens are read, and what is
    read has the property. -/
def Recognizes {α : Type} (x : Nat → Parse α) (follows : List Token → Prop) (P : α → Prop)
    (ts : List Token) : Prop :=
  ∀ ⦃fuel n tail⦄, follows tail → (x fuel).Reads (ts ++ tail) n (Ending P tail)

def anything {α : Type} (_ : α) : Prop := True

section Rules

variable {α β : Type} {ts : List Token} {n : NodeId} {post : β → List Token → NodeId → Prop}

theorem Reads.upTo {x : Parse α} {f : α → Parse β} {P : α → Prop} {tail : List Token}
    (first : x.Reads ts n (Ending P tail)) (second : ∀ a n', P a → (f a).Reads tail n' post) :
    (x >>= f).Reads ts n post := by
  refine first.bind fun a ts' n' ends => ?_
  obtain ⟨holds, rfl⟩ := ends
  exact second a n' holds

theorem Reads.map_upTo {γ : Type} {x : Parse α} {f : α → γ} {g : γ → Parse β} {P : α → Prop}
    {tail : List Token} (first : x.Reads ts n (Ending P tail))
    (second : ∀ a n', P a → (g (f a)).Reads tail n' post) : (f <$> x >>= g).Reads ts n post := by
  rw [map_eq_pure_bind, bind_assoc]
  refine first.upTo fun a n' holds => ?_
  rw [pure_bind]
  exact second a n' holds

theorem Reads.ended {P : β → Prop} {b : β} (h : P b) :
    (Pure.pure b : Parse β).Reads ts n (Ending P ts) := .pure ⟨h, rfl⟩

theorem Reads.mono {x : Parse α} {P Q : α → Prop} {tail : List Token}
    (h : x.Reads ts n (Ending P tail)) (weaker : ∀ a, P a → Q a) :
    x.Reads ts n (Ending Q tail) := by
  rw [← bind_pure x]
  exact h.upTo fun a n' holds => .ended (weaker a holds)

theorem Recognizes.mono {x : Nat → Parse α} {follows : List Token → Prop} {P Q : α → Prop}
    (h : Recognizes x follows P ts) (weaker : ∀ a, P a → Q a) : Recognizes x follows Q ts :=
  fun _ _ _ after => (h after).mono weaker

end Rules

theorem Stops.item {level : Nat} {tail : List Token} {closing : Symbol}
    (h : closing = .rightParen ∨ closing = .rightBrace)
    (ends : tail.head? = some (.symbol .comma) ∨ tail.head? = some (.symbol closing)) :
    Stops level tail := by
  cases tail with
  | nil => simp at ends
  | cons t rest =>
    rcases ends with first | first <;> obtain rfl := Option.some.inj first
    · exact .closing (by simp)
    · rcases h with rfl | rfl <;> exact .closing (by simp)

def Opening : Token → Prop
  | .symbol mark => mark = .leftParen ∨ mark = .bang ∨ mark = .minus
  | .keyword word => word = .not_ ∨ word = .true_ ∨ word = .false_
  | _ => True

def Opens (ts : List Token) : Prop := ∃ t rest, ts = t :: rest ∧ Opening t

/-- What begins a target or an invocation. A name with a colon after it begins a declaration. -/
def OpensNamed (ts : List Token) : Prop :=
  ∃ t rest, ts = t :: rest ∧
    (t = .symbol .leftParen ∨ (∃ text, t = .name text) ∧ rest.head? ≠ some (.symbol .colon))

/-- What a statement begins with: no brace that ends a block, and no further branch. -/
def OpensStmt (ts : List Token) : Prop :=
  ∃ t rest, ts = t :: rest ∧ t ≠ .symbol .rightBrace ∧ t ≠ .keyword .elif ∧ t ≠ .keyword .else_

theorem Opens.append {ts : List Token} (h : Opens ts) (ts' : List Token) : Opens (ts ++ ts') := by
  obtain ⟨t, rest, rfl, opening⟩ := h
  exact ⟨t, rest ++ ts', rfl, opening⟩

theorem Opens.head?_ne {ts : List Token} (h : Opens ts) {mark : Symbol}
    (other : mark ≠ .leftParen ∧ mark ≠ .bang ∧ mark ≠ .minus) (tail : List Token) :
    (ts ++ tail).head? ≠ some (.symbol mark) := by
  obtain ⟨t, rest, rfl, opening⟩ := h
  intro same
  obtain rfl := Option.some.inj same
  obtain ⟨noParen, noBang, noMinus⟩ := other
  rcases opening with h | h | h
  · exact noParen h
  · exact noBang h
  · exact noMinus h

theorem OpensNamed.opens {ts : List Token} (h : OpensNamed ts) : Opens ts := by
  obtain ⟨t, rest, rfl, rfl | ⟨⟨text, rfl⟩, _⟩⟩ := h
  · exact ⟨_, rest, rfl, .inl rfl⟩
  · exact ⟨_, rest, rfl, trivial⟩

def Further (level : Nat) (operand : Nat → Parse Expr) (ts : List Token)
    (names : List (Kind × String)) : Prop :=
  ∃ op us, MathOp.level op = level ∧ ts = .symbol op.mark :: us ∧ names = [] ∧
    Recognizes operand (Stops (level + 1)) anything us

theorem Further.unnamed {level : Nat} {operand : Nat → Parse Expr} {ts : List Token}
    {names : List (Kind × String)} (h : Further level operand ts names) : names = [] := by
  obtain ⟨_, _, _, _, same, _⟩ := h
  exact same

section Chains

variable {level : Nat} {whole operand : Nat → Parse Expr} {more : Nat → Expr → Parse Expr}
  {class? : Token → Option MathOp} {ts ts' : List Token} {names : List (Kind × String)}

theorem Stops.further {tail : List Token} (stops : Stops level tail)
    (h : Repeated (Further level operand) ts names) : Stops (level + 1) (ts ++ tail) := by
  cases h with
  | nil => exact stops.mono (Nat.le_succ level)
  | cons first others =>
    obtain ⟨op, us, rfl, rfl, _, _⟩ := first
    exact .mathOp op

theorem Chain.recognizes_more (chain : Chain level whole operand more class?)
    (h : Repeated (Further level operand) ts names) {fuel : Nat} {left : Expr} {n : NodeId}
    {tail : List Token} (stops : Stops level tail) :
    (more fuel left).Reads (ts ++ tail) n (Ending anything tail) := by
  induction h generalizing fuel left n with
  | nil =>
    cases fuel with
    | zero =>
      rw [chain.more_zero]
      exact .tooDeep
    | succ fuel =>
      rw [chain.more_succ]
      exact .noOperator (chain.stops stops) (.ended trivial)
  | @cons _ ts' _ _ first others ih =>
    obtain ⟨op, us, own, rfl, _, reads⟩ := first
    cases fuel with
    | zero =>
      rw [chain.more_zero]
      exact .tooDeep
    | succ fuel =>
      rw [chain.more_succ, List.cons_append, List.cons_append, List.append_assoc]
      refine .operator (chain.mark op own) ((reads (stops.further others)).upTo ?_)
      exact fun right n' _ => .number ih

theorem Chain.recognizes (chain : Chain level whole operand more class?)
    (first : Recognizes operand (Stops (level + 1)) anything ts)
    (others : Repeated (Further level operand) ts' names) :
    Recognizes whole (Stops level) anything (ts ++ ts') := by
  intro fuel n tail stops
  cases fuel with
  | zero =>
    rw [chain.whole_zero]
    exact .tooDeep
  | succ fuel =>
    rw [chain.whole_succ, List.append_assoc]
    exact (first (stops.further others)).upTo fun left n' _ =>
      chain.recognizes_more others stops

theorem Chain.recognizes_operand (chain : Chain level whole operand more class?)
    {P : Expr → Prop} (h : Recognizes operand (Stops (level + 1)) P ts) :
    Recognizes whole (Stops level) P ts := by
  intro fuel n tail stops
  cases fuel with
  | zero =>
    rw [chain.whole_zero]
    exact .tooDeep
  | succ fuel =>
    rw [chain.whole_succ]
    refine (h (stops.mono (Nat.le_succ level))).upTo fun left n' holds => ?_
    cases fuel with
    | zero =>
      rw [chain.more_zero]
      exact .tooDeep
    | succ fuel =>
      rw [chain.more_succ]
      exact .noOperator (chain.stops stops) (.ended holds)

end Chains

theorem OpensNamed.recognizes {ts : List Token} {P : Expr → Prop} (opens : OpensNamed ts)
    (h : Recognizes primary (Stops Level.unary) P ts) :
    Recognizes expression (Stops Level.comparison) P ts := by
  have unary : Recognizes unary (Stops Level.unary) P ts := by
    obtain ⟨t, rest, rfl, named⟩ := opens
    intro fuel n tail stops
    refine unary_of_primary ?_ fun fuel => h stops
    rcases named with rfl | ⟨⟨text, rfl⟩, _⟩ <;> simp
  have sum := sumChain.recognizes_operand (productChain.recognizes_operand unary)
  intro fuel n tail stops
  cases fuel with
  | zero => exact .tooDeep
  | succ fuel =>
    rw [expression]
    refine (sum (stops.mono (Nat.zero_le _))).upTo fun e n' holds => ?_
    exact .noOperator (stops.comparison (Nat.le_refl _)) (.ended holds)

def itemsAfter {α : Type} (list : Nat → Parse (List α)) (fuel : Nat) (x : α) : Parse (List α) := do
  if ← accept .comma then return x :: (← list fuel) else return [x]

/-- A reader of a list whose items are read from the tokens for which `Item` holds. -/
structure Listing {α : Type} (closing : Symbol) (list : Nat → Parse (List α))
    (Item : List Token → List (Kind × String) → Prop) (namesOf : α → List (Kind × String)) :
    Prop where
  other : closing ≠ .comma
  zero : list 0 = fail .tooDeep
  item {fuel ts names n tail post} : Item ts names →
    (tail.head? = some (.symbol .comma) ∨ tail.head? = some (.symbol closing)) →
    (∀ x n', namesOf x = names → (itemsAfter list fuel x).Reads tail n' post) →
    (list (fuel + 1)).Reads (ts ++ tail) n post

namespace Listing

variable {α : Type} {closing : Symbol} {list : Nat → Parse (List α)}
  {Item : List Token → List (Kind × String) → Prop} {namesOf : α → List (Kind × String)}
  {ts ts' tail tail' : List Token} {names names' : List (Kind × String)}

def AfterComma (Item : List Token → List (Kind × String) → Prop) (ts : List Token)
    (names : List (Kind × String)) : Prop :=
  ∃ us, Item us names ∧ ts = .symbol .comma :: us

theorem AfterComma.unnamed (own : ∀ {ts names}, Item ts names → names = [])
    (h : AfterComma Item ts names) : names = [] := by
  obtain ⟨_, item, _⟩ := h
  exact own item

theorem reads (listing : Listing closing list Item namesOf)
    (ends : tail.head? = some (.symbol .comma) ∨ tail.head? = some (.symbol closing))
    (last : ∀ fuel x n, (itemsAfter list fuel x).Reads tail n (Ending (· = [x]) tail'))
    (first : Item ts names) (others : Repeated (AfterComma Item) ts' names') {fuel n : Nat} :
    (list fuel).Reads (ts ++ (ts' ++ tail)) n
      (Ending (·.flatMap namesOf = names ++ names') tail') := by
  induction others generalizing ts names fuel n with
  | nil =>
    cases fuel with
    | zero =>
      rw [listing.zero]
      exact .tooDeep
    | succ fuel =>
      refine listing.item first ends fun x n' own => ?_
      rw [← bind_pure (itemsAfter list fuel x)]
      refine (last fuel x n').upTo fun xs n2 only => .ended ?_
      rw [only, List.flatMap_singleton, own, List.append_nil]
  | cons second others ih =>
    obtain ⟨us, item, rfl⟩ := second
    cases fuel with
    | zero =>
      rw [listing.zero]
      exact .tooDeep
    | succ fuel =>
      refine listing.item first (.inl rfl) fun x n' own => ?_
      rw [List.cons_append, List.cons_append, List.append_assoc]
      refine .takes ((ih item).upTo fun xs n2 rest => .ended ?_)
      rw [List.flatMap_cons, own, rest]

theorem separated (listing : Listing closing list Item namesOf) (first : Item ts names)
    (others : Repeated (AfterComma Item) ts' names') :
    Recognizes list (·.head? = some (.symbol closing)) (·.flatMap namesOf = names ++ names')
      (ts ++ ts') := by
  intro fuel n tail ends
  rw [List.append_assoc]
  refine listing.reads (.inr ends) (fun fuel x n' => ?_) first others
  refine .lacks ?_ (.ended rfl)
  rw [ends]
  simpa using listing.other

theorem listed (listing : Listing closing list Item namesOf) {item : Form}
    {P : Nonterminal → List Token → List (Kind × String) → Prop}
    (own : ∀ {ts names}, item.Means P ts names → Item ts names)
    (empty : ∀ fuel n tail, tail.head? = some (.symbol closing) →
      (list fuel).Reads tail n (Ending (· = []) tail))
    (h : (Form.listed item).Means P ts names) :
    Recognizes list (·.head? = some (.symbol closing)) (·.flatMap namesOf = names) ts := by
  rcases h with ⟨rfl, rfl⟩ | ⟨_, _, _, _, ⟨ts, names, ts', names', first, rest, rfl, rfl⟩, ended,
    rfl, rfl⟩
  · intro fuel n tail ends
    refine (empty fuel n tail ends).mono fun xs none => ?_
    rw [none, List.flatMap_nil]
  · have others : Repeated (AfterComma Item) ts' names' := rest.mono fun next => by
      obtain ⟨us, h, rfl⟩ := next.mark_then
      exact ⟨us, own h, rfl⟩
    rcases ended with ⟨rfl, rfl⟩ | comma
    · rw [List.append_nil, List.append_nil]
      exact listing.separated (own first) others
    · obtain ⟨rfl, rfl⟩ := comma.mark
      intro fuel n tail ends
      rw [List.append_nil, List.append_assoc, List.append_assoc]
      refine listing.reads (.inl rfl) (fun fuel x n' => ?_) (own first) others
      refine .takes ((empty fuel n' tail ends).upTo fun xs n2 none => .ended ?_)
      rw [none]

end Listing

structure ExprRecognized (reader : Nat → Parse Expr) (level : Nat) (ts : List Token)
    (names : List (Kind × String)) : Prop where
  opens : Opens ts
  unnamed : names = []
  recognizes : Recognizes reader (Stops level) anything ts

def NumberAlone (ts : List Token) : Prop :=
  ∀ t rest, ts = t :: rest → (negative? t).isSome → rest = []

def Unsigned (ts : List Token) : Prop :=
  ∀ t rest, ts = t :: rest → t ≠ .keyword .not_ ∧ t ≠ .symbol .bang ∧ t ≠ .symbol .minus

structure NamedRecognized (reader : Nat → Parse Expr) (level : Nat) (P : Expr → Prop)
    (ts : List Token) (names : List (Kind × String)) : Prop where
  opens : OpensNamed ts
  unnamed : names = []
  recognizes : Recognizes reader (Stops level) P ts

def IsTarget : Expr → Prop
  | .place .. => True
  | _ => False

def IsInvocation : Expr → Prop
  | .place .. | .method .. | .call .. => True
  | _ => False

def StepsRecognized (ts : List Token) : Prop :=
  ∀ ⦃fuel start root read n tail post⦄, tail.head? ≠ some (.symbol .leftParen) →
    (∀ fuel' read' n', (access fuel' start root read').Reads tail n' post) →
    (access fuel start root read).Reads (ts ++ tail) n post

def OpensSteps (ts : List Token) : Prop :=
  ts = [] ∨ ∃ rest, ts = .symbol .leftBracket :: rest ∨ ts = .symbol .dot :: rest

theorem OpensSteps.head?_ne {ts tail : List Token} (h : OpensSteps ts) {mark : Symbol}
    (other : mark ≠ .leftBracket ∧ mark ≠ .dot) (after : tail.head? ≠ some (.symbol mark)) :
    (ts ++ tail).head? ≠ some (.symbol mark) := by
  rcases h with rfl | ⟨rest, rfl | rfl⟩
  · exact after
  · rintro ⟨⟩
    exact other.1 rfl
  · rintro ⟨⟩
    exact other.2 rfl

def Recognized : Nonterminal → List Token → List (Kind × String) → Prop
  | .program, ts, names => Repeated (fun ts names =>
      Recognizes Definition.parse anything (·.names = names) ts) ts names
  | .struct, ts, names | .enum, ts, names | .function, ts, names =>
    Recognizes Definition.parse anything (·.names = names) ts
  | .members, ts, names =>
    Recognizes memberList (·.head? = some (.symbol .rightBrace))
      (fun members => partNames (members.map Member.name) = names) ts
  | .entries, ts, names =>
    Recognizes entryList (·.head? = some (.symbol .rightBrace)) (partNames · = names) ts
  | .param, ts, names => ∃ p : Param, p.type.Written ∧ ts = p.tokens ∧ names = []
  | .type, ts, names => ∃ type : Ty, type.Written ∧ ts = type.tokens ∧ names = []
  | .block, ts, names =>
    names = [] ∧ (∃ rest, ts = .symbol .leftBrace :: rest) ∧ Recognizes block anything anything ts
  | .statement, ts, names =>
    names = [] ∧ OpensStmt ts ∧ Recognizes statement Separate anything ts
  | .target, ts, names => NamedRecognized expression Level.comparison IsTarget ts names
  | .invocation, ts, names => NamedRecognized expression Level.comparison IsInvocation ts names
  | .expr, ts, names => ExprRecognized expression Level.comparison ts names
  | .sum, ts, names => ExprRecognized sum Level.additive ts names
  | .product, ts, names => ExprRecognized product Level.multiplicative ts names
  | .unary, ts, names => ExprRecognized unary Level.unary ts names ∧ NumberAlone ts
  | .primary, ts, names =>
    ExprRecognized primary Level.unary ts names ∧ NumberAlone ts ∧ Unsigned ts
  | .fields, ts, names =>
    names = [] ∧ Recognizes fieldList (·.head? = some (.symbol .rightBrace)) anything ts
  | .call, ts, names =>
    ∃ callee args, names = [] ∧ ts = .name callee :: .symbol .leftParen :: args ∧
      Recognizes arguments anything anything (.symbol .leftParen :: args)
  | .args, ts, names =>
    names = [] ∧ Recognizes arguments anything anything
      (Token.between .leftParen .rightParen ts)
  | .access, ts, names => NamedRecognized primary Level.unary IsInvocation ts names
  | .place, ts, names =>
    ∃ root steps, names = [] ∧ ts = .name root :: steps ∧ OpensSteps steps ∧ StepsRecognized steps

end LoopLang.Parse
