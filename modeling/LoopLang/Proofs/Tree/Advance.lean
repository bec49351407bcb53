import Mathlib.Data.Set.List
import LoopLang.Proofs.Related
import LoopLang.Proofs.Tree.Extending

namespace LoopLang

namespace Lexemes

abbrev Marked := Option Token × Position

def marked (l : Lexemes) : List Marked :=
  l.list.map (fun x => (some x.token, x.position)) ++ [(none, l.finish)]

/-- The last one is the mark of the end, and no other one is. -/
def EndsOnce (ts : List Marked) : Prop :=
  ∃ front finish, ts = front ++ [(none, finish)] ∧ ∀ x ∈ front, x.1.isSome

theorem length_marked (l : Lexemes) : l.marked.length = l.list.length + 1 := by
  rw [marked, List.length_append, List.length_map, List.length_singleton]

theorem endsOnce_marked (l : Lexemes) : EndsOnce l.marked := by
  refine ⟨_, _, rfl, fun x member => ?_⟩
  obtain ⟨lexeme, _, rfl⟩ := List.mem_map.mp member
  rfl

theorem exists_marked {ts : List Marked} (h : EndsOnce ts) : ∃ l : Lexemes, l.marked = ts := by
  obtain ⟨front, finish, rfl, tokens⟩ := h
  have spelled : front ∈ Set.range (List.map fun x : Lexeme => (some x.token, x.position)) := by
    rw [Set.range_list_map]
    rintro ⟨token, position⟩ member
    obtain ⟨t, same⟩ := Option.isSome_iff_exists.mp (tokens _ member)
    exact ⟨⟨t, position⟩, Prod.ext same.symm rfl⟩
  obtain ⟨list, rfl⟩ := spelled
  exact ⟨⟨list, finish⟩, rfl⟩

theorem marked_injective : Function.Injective marked := by
  rintro ⟨list, finish⟩ ⟨list', finish'⟩ same
  obtain ⟨tokens, ends⟩ := List.append_inj' same rfl
  have apart (x y : Lexeme) (same : (some x.token, x.position) = (some y.token, y.position)) :
      x = y := by
    cases x
    cases y
    cases same
    rfl
  cases (List.map_inj_right apart).mp tokens
  cases ends
  rfl

end Lexemes

open Lexemes (Marked EndsOnce)

namespace Reader

def start (l : Lexemes) : Reader := ⟨l.list, l.finish, 0⟩

def left (r : Reader) : List Marked := Lexemes.marked ⟨r.rest, r.finish⟩

def At (ts : List Marked) (position : Nat) (r : Reader) : Prop := r.left = ts.drop position

variable {ts : List Marked} {p : Nat} {r r' : Reader}

theorem length_left (r : Reader) : r.left.length = r.rest.length + 1 := Lexemes.length_marked _

theorem left_places (r : Reader) : r.left.map (·.2) = r.places := by
  rw [left, Lexemes.marked, places, List.map_append, List.map_map]
  rfl

theorem Before.left (h : r.Before r') : r'.left <:+ r.left := by
  obtain ⟨taken, tokens⟩ := h.rest
  refine ⟨taken.map fun x => (some x.token, x.position), ?_⟩
  rw [Reader.left, Reader.left, Lexemes.marked, Lexemes.marked, ← tokens, h.finish,
    List.map_append, List.append_assoc]

theorem At.inside (there : r.At ts p) : p < ts.length := by
  have some_left := congrArg List.length there
  rw [length_left, List.length_drop] at some_left
  omega

theorem At.looks (there : r.At ts p) : ∃ inside : p < ts.length,
    Parse.peek r = .ok (ts[p].1, r) ∧ Parse.here r = .ok (ts[p].2, r) := by
  have next : r.left.head? = ts[p]? := by rw [there, List.head?_drop]
  rw [List.getElem?_eq_getElem there.inside] at next
  refine ⟨there.inside, ?_⟩
  obtain ⟨rest, finish, nextId⟩ := r
  cases rest with
  | nil =>
    rw [← Option.some.inj next]
    exact ⟨rfl, rfl⟩
  | cons l rest =>
    rw [← Option.some.inj next]
    exact ⟨rfl, rfl⟩

theorem At.advance (there : r.At ts p) :
    ∃ r', Parse.advance r = .ok ((), r') ∧ r'.At ts (min (p + 1) (ts.length - 1)) := by
  refine ⟨_, rfl, ?_⟩
  have inside := there.inside
  have later := congrArg List.tail there
  rw [List.tail_drop] at later
  have some_left := congrArg List.length there
  rw [length_left, List.length_drop] at some_left
  obtain ⟨_ | ⟨l, rest⟩, finish, nextId⟩ := r
  · -- Only the mark is left, and it stays.
    rw [List.length_nil] at some_left
    have last : min (p + 1) (ts.length - 1) = p := by omega
    rw [last]
    exact there
  · rw [List.length_cons] at some_left
    have next : min (p + 1) (ts.length - 1) = p + 1 := by omega
    rw [next]
    exact later

theorem At.before (there : r.At ts p) (h : r.Before r') :
    ∃ q, r'.At ts q ∧ q + r'.rest.length = p + r.rest.length := by
  have fewer := h.rest.length_le
  have later := List.suffix_iff_eq_drop.mp h.left
  rw [length_left, length_left, there, List.drop_drop] at later
  exact ⟨_, later, by omega⟩

theorem At.place (there : r.At ts p) {position : Position} (place : position ∈ r.places) :
    ∃ q, ∃ inside : q < ts.length, p ≤ q ∧ position = ts[q].2 := by
  rw [← left_places, there] at place
  obtain ⟨x, member, rfl⟩ := List.mem_map.mp place
  obtain ⟨k, within, rfl⟩ := List.mem_iff_getElem.mp member
  rw [List.getElem_drop]
  rw [List.length_drop] at within
  exact ⟨p + k, by omega, Nat.le_add_right p k, rfl⟩

end Reader

/-- What reads tokens, by what it reads: single tokens and marks, the parts of expressions,
    statements and definitions, and lists of them. -/
inductive Routine : Type → Type
  | peek : Routine (Option Token)
  | peekSecond : Routine (Option Token)
  | here : Routine Position
  | advance : Routine Unit
  | accept (mark : Symbol) : Routine Bool
  | acceptWord (word : Keyword) : Routine Bool
  | isNext (mark : Symbol) : Routine Bool
  | expect (mark : Symbol) (wanted : String) : Routine Unit
  | expectName : Routine String
  | number (position : Position) : Routine Node
  | type : Routine Ty
  | expression : Routine Expr
  | sum : Routine Expr
  | sumTail (left : Expr) : Routine Expr
  | product : Routine Expr
  | productTail (left : Expr) : Routine Expr
  | unary : Routine Expr
  | primary : Routine Expr
  | arguments : Routine (List Expr)
  | expressionList : Routine (List Expr)
  | fieldList : Routine (List Field)
  | access (start : Position) (root : String) (steps : List Step) : Routine Expr
  | condition (keyword : Keyword) : Routine Expr
  | declaration (isConst : Bool) : Routine Stmt
  | expressionStatement : Routine Stmt
  | block : Routine (List Stmt)
  | statements : Routine (List Stmt)
  | statement : Routine Stmt
  | elifList : Routine (List (Branch Stmt))
  | memberList : Routine (List Member)
  | entryList : Routine (List String)
  | paramList : Routine (List Param)
  | struct : Routine Struct
  | enum : Routine Enum
  | function : Routine Function
  | definition : Routine Definition

namespace Routine

variable {α : Type}

def read : Routine α → (fuel : Nat) → Parse α
  | peek, _ => Parse.peek
  | peekSecond, _ => Parse.peekSecond
  | here, _ => Parse.here
  | advance, _ => Parse.advance
  | accept mark, _ => Parse.accept mark
  | acceptWord word, _ => Parse.acceptWord word
  | isNext mark, _ => Parse.isNext mark
  | expect mark wanted, _ => Parse.expect mark wanted
  | expectName, _ => Parse.expectName
  | number position, _ => Parse.number position
  | type, _ => Parse.type
  | expression, fuel => Parse.expression fuel
  | sum, fuel => Parse.sum fuel
  | sumTail left, fuel => Parse.sumTail fuel left
  | product, fuel => Parse.product fuel
  | productTail left, fuel => Parse.productTail fuel left
  | unary, fuel => Parse.unary fuel
  | primary, fuel => Parse.primary fuel
  | arguments, fuel => Parse.arguments fuel
  | expressionList, fuel => Parse.expressionList fuel
  | fieldList, fuel => Parse.fieldList fuel
  | access start root steps, fuel => Parse.access fuel start root steps
  | condition keyword, fuel => Parse.condition fuel keyword
  | declaration isConst, fuel => Parse.declaration fuel isConst
  | expressionStatement, fuel => Parse.expressionStatement fuel
  | block, fuel => Parse.block fuel
  | statements, fuel => Parse.statements fuel
  | statement, fuel => Parse.statement fuel
  | elifList, fuel => Parse.elifList fuel
  | memberList, fuel => Parse.memberList fuel
  | entryList, fuel => Parse.entryList fuel
  | paramList, fuel => Parse.paramList fuel
  | struct, fuel => Parse.struct fuel
  | enum, fuel => Parse.enum fuel
  | function, fuel => Parse.function fuel
  | definition, fuel => Definition.parse fuel

/-- Whether there is a token in all that the routine reads. -/
def takes : Routine α → Bool
  | expect .. | expectName | type | expression | sum | product | unary | primary | arguments
  | expressionList | condition _ | declaration _ | expressionStatement | block | statements
  | statement | struct | enum | function | definition => true
  | _ => false

/-- With a bound of ten for each token and for the end a routine does not reach its bound. It takes
    a token away if there is one in all that it reads. -/
theorem leaves (x : Routine α) {fuel n : Nat} (enough : 10 * (n + 1) ≤ fuel) :
    (x.read fuel).Leaves n fun _ n' => n' ≤ n ∧ (x.takes → n' < n) := by
  have strict {y : Parse α} {c : Bool} (h : y.Leaves n fun _ n' => n' < n) :
      y.Leaves n fun _ n' => n' ≤ n ∧ (c → n' < n) :=
    h.mono fun _ _ less => ⟨Nat.le_of_lt less, fun _ => less⟩
  have lax {y : Parse α} {P : α → Nat → Prop} (h : y.Leaves n P) (fewer : ∀ a n', P a n' → n' ≤ n) :
      y.Leaves n fun _ n' => n' ≤ n ∧ (false → n' < n) :=
    h.mono fun _ _ holds => ⟨fewer _ _ holds, nofun⟩
  have exprs := Parse.exprProgress fuel
  have stmts := Parse.stmtProgress fuel
  cases x with
  | peek => exact lax Parse.leaves_peek fun _ _ ends => ends.1.le
  | peekSecond => exact lax Parse.leaves_peekSecond fun _ _ => Nat.le_of_eq
  | here => exact lax Parse.leaves_here fun _ _ => Nat.le_of_eq
  | advance => exact lax Parse.leaves_advance fun _ _ same => by omega
  | accept mark => exact lax (Parse.leaves_accept mark) fun _ _ ends => ends.1
  | acceptWord word => exact lax (Parse.leaves_acceptWord word) fun _ _ ends => ends.1
  | isNext mark => exact lax (Parse.leaves_isNext mark) fun _ _ => Nat.le_of_eq
  | number position => exact lax (Parse.leaves_number position) fun _ _ => Nat.le_of_eq
  | sumTail left => exact lax (exprs.sumTail left (by omega)) fun _ _ => id
  | productTail left => exact lax (exprs.productTail left (by omega)) fun _ _ => id
  | fieldList => exact lax (exprs.fieldList (by omega)) fun _ _ => id
  | access start root steps => exact lax (exprs.access start root steps (by omega)) fun _ _ => id
  | elifList => exact lax (stmts.elifList (by omega)) fun _ _ => id
  | memberList => exact lax (Parse.memberList_leaves (by omega)) fun _ _ => id
  | entryList => exact lax (Parse.entryList_leaves (by omega)) fun _ _ => id
  | paramList => exact lax (Parse.paramList_leaves (by omega)) fun _ _ => id
  | expect mark wanted => exact strict (Parse.leaves_expect mark wanted)
  | expectName => exact strict Parse.leaves_expectName
  | type => exact strict Parse.leaves_type
  | expression => exact strict (exprs.expression (by omega))
  | sum => exact strict (exprs.sum (by omega))
  | product => exact strict (exprs.product (by omega))
  | unary => exact strict (exprs.unary (by omega))
  | primary => exact strict (exprs.primary (by omega))
  | arguments => exact strict (exprs.arguments (by omega))
  | expressionList => exact strict (exprs.expressionList (by omega))
  | condition keyword => exact strict (Parse.condition_leaves (by omega) keyword)
  | declaration isConst => exact strict (Parse.declaration_leaves (by omega) isConst)
  | expressionStatement => exact strict (Parse.expressionStatement_leaves (by omega))
  | block => exact strict (stmts.block (by omega))
  | statements => exact strict (stmts.statements (by omega))
  | statement => exact strict (stmts.statement (by omega))
  | struct => exact strict (Parse.struct_leaves (by omega))
  | enum => exact strict (Parse.enum_leaves (by omega))
  | function => exact strict (Parse.function_leaves (by omega))
  | definition => exact strict (Definition.parse_leaves (by omega))

theorem extends_read (x : Routine α) (s : Reader) {n n' : Nat} (more : n ≤ n') :
    Parse.Extends s (x.read n) (x.read n') fun _ => True := by
  have exprs : Parse.ExprExtends s n n' := Parse.exprExtends more
  have stmts : Parse.StmtExtends s n n' := Parse.stmtExtends more
  cases x with
  | peek => exact Parse.extends_peek
  | peekSecond => exact Parse.extends_peekSecond
  | here => exact Parse.extends_here.mono fun _ _ => trivial
  | advance => exact Parse.extends_advance
  | accept mark => exact Parse.extends_accept mark
  | acceptWord word => exact Parse.extends_acceptWord word
  | isNext mark => exact Parse.extends_isNext mark
  | expect mark wanted => exact Parse.extends_expect mark wanted
  | expectName => exact Parse.extends_expectName
  | number position => exact (Parse.extends_number position).mono fun _ _ => trivial
  | type => exact Parse.extends_type
  | expression => exact exprs.expression.mono fun _ _ => trivial
  | sum => exact exprs.sum.mono fun _ _ => trivial
  | sumTail left => exact (exprs.sumTail left).mono fun _ _ => trivial
  | product => exact exprs.product.mono fun _ _ => trivial
  | productTail left => exact (exprs.productTail left).mono fun _ _ => trivial
  | unary => exact exprs.unary.mono fun _ _ => trivial
  | primary => exact exprs.primary.mono fun _ _ => trivial
  | arguments => exact exprs.arguments
  | expressionList => exact exprs.expressionList
  | fieldList => exact exprs.fieldList
  | access start root steps => exact (exprs.access start root steps).mono fun _ _ => trivial
  | condition keyword => exact Parse.extends_condition more keyword
  | declaration isConst => exact Parse.extends_declaration more isConst
  | expressionStatement => exact Parse.extends_expressionStatement more
  | block => exact stmts.block
  | statements => exact stmts.statements
  | statement => exact stmts.statement
  | elifList => exact stmts.elifList
  | memberList => exact Parse.extends_memberList more
  | entryList => exact Parse.extends_entryList more
  | paramList => exact Parse.extends_paramList more
  | struct => exact Parse.extends_struct more
  | enum => exact Parse.extends_enum more
  | function => exact Parse.extends_function more
  | definition => exact Definition.extends_parse more

/-- What the routine reads where no bound stops it. -/
def answer (x : Routine α) : Parse α := fun r => x.read (10 * (r.rest.length + 1)) r

variable {x : Routine α} {r r' : Reader} {fuel : Nat} {a : α}

theorem answer_ne_tooDeep {e : ParseError} (failed : x.answer r = .error e) :
    e.cause ≠ .tooDeep := by
  have progress := x.leaves (Nat.le_refl _) r rfl
  rwa [show x.read _ r = .error e from failed] at progress

theorem answer_of_enough (enough : 10 * (r.rest.length + 1) ≤ fuel) :
    x.read fuel r = x.answer r := by
  have now := x.extends_read r enough r (.refl r)
  cases read : x.answer r with
  | ok pair =>
    rw [show x.read _ r = .ok pair from read] at now
    exact now.1
  | error e =>
    rw [show x.read _ r = .error e from read] at now
    exact now.1.resolve_left (answer_ne_tooDeep read)

theorem answer_of_ok (read : x.read fuel r = .ok (a, r')) : x.answer r = .ok (a, r') := by
  have now := x.extends_read r (Nat.le_max_left fuel (10 * (r.rest.length + 1))) r (.refl r)
  rw [read, answer_of_enough (Nat.le_max_right ..)] at now
  exact now.1

theorem fewer_of_takes (takes : x.takes) (read : x.read fuel r = .ok (a, r')) :
    r'.rest.length < r.rest.length := by
  have progress := x.leaves (Nat.le_refl _) r rfl
  rw [show x.read _ r = .ok (a, r') from answer_of_ok read] at progress
  exact progress.2.2 takes

theorem stays (x : Routine α) (fuel : Nat) (r : Reader) :
    match x.read fuel r with
    | .ok (_, r') => r.Before r'
    | .error e => e.position ∈ r.places := by
  have now := x.extends_read r (Nat.le_refl fuel) r (.refl r)
  cases read : x.read fuel r with
  | ok pair =>
    rw [read] at now
    exact now.2.1
  | error e =>
    rw [read] at now
    exact now.2

end Routine

namespace Reader

variable {ts : List Marked} {p : Nat} {r r' : Reader} {α : Type}

theorem At.stays (there : r.At ts p) (x : Routine α) (fuel : Nat) :
    match x.read fuel r with
    | .ok (_, r') => ∃ q, r'.At ts q ∧ p ≤ q ∧ q < ts.length
    | .error e => ∃ q, ∃ inside : q < ts.length, p ≤ q ∧ e.position = ts[q].2 := by
  have now := x.stays fuel r
  cases read : x.read fuel r with
  | ok pair =>
    rw [read] at now
    obtain ⟨q, later, same⟩ := there.before now
    have fewer := now.rest.length_le
    exact ⟨q, later, by omega, later.inside⟩
  | error e =>
    rw [read] at now
    exact there.place now

theorem At.moves (there : r.At ts p) {x : Routine α} (takes : x.takes) {fuel : Nat} {a : α}
    (read : x.read fuel r = .ok (a, r')) : ∃ q, r'.At ts q ∧ p < q := by
  have now := x.stays fuel r
  rw [read] at now
  obtain ⟨q, later, same⟩ := there.before now
  have fewer := Routine.fewer_of_takes takes read
  exact ⟨q, later, by omega⟩

end Reader

namespace Globals

/-- Reads definitions to the end and adds them to `g`. No bound stops it: there are fewer tokens
    behind each definition. -/
def readOnto (g : Globals) (r : Reader) : Except Error Globals :=
  if r.rest.isEmpty then .ok g
  else
    match _read : Routine.definition.answer r with
    | .error e => .error (.parse e)
    | .ok (d, r') =>
      match g.add d with
      | .error e => .error (.compile e)
      | .ok g => g.readOnto r'
termination_by r.rest.length
decreasing_by exact Routine.fewer_of_takes rfl _read

theorem readOnto_ne_tooDeep {g : Globals} {r : Reader} {e : ParseError}
    (failed : g.readOnto r = .error (.parse e)) : e.cause ≠ .tooDeep := by
  fun_induction readOnto g r with
  | case1 => cases failed
  | case2 g r some_left e' read =>
    cases failed
    exact Routine.answer_ne_tooDeep read
  | case3 => cases failed
  | case4 g r some_left d r' read g' added ih => exact ih failed

theorem parseOnto_eq_readOnto (g : Globals) {fuel definitions : Nat} {r : Reader}
    (deep : 10 * (r.rest.length + 1) ≤ fuel) (many : r.rest.length ≤ definitions) :
    parseOnto g fuel definitions r = g.readOnto r := by
  have counted {n : Nat} {r : Reader} (some_left : ¬r.rest.isEmpty) (many : r.rest.length ≤ n) :
      ∃ fewer, n = fewer + 1 := by
    have pos : 0 < r.rest.length := by rwa [List.length_pos_iff, ne_eq, ← List.isEmpty_iff]
    exact Nat.exists_eq_add_of_le' (pos.trans_le many)
  have first {r : Reader} (deep : 10 * (r.rest.length + 1) ≤ fuel) :
      (Definition.parse fuel).run r = Routine.definition.answer r :=
    Routine.answer_of_enough (x := .definition) deep
  fun_induction readOnto g r generalizing definitions with
  | case1 g r ended => cases definitions <;> rw [parseOnto, if_pos ended]
  | case2 g r some_left e read =>
    obtain ⟨fewer, rfl⟩ := counted some_left many
    rw [parseOnto, if_neg some_left, first deep, read]
  | case3 g r some_left d r' read e refused =>
    obtain ⟨fewer, rfl⟩ := counted some_left many
    rw [parseOnto, if_neg some_left, first deep, read]
    dsimp only
    rw [refused]
  | case4 g r some_left d r' read g' added ih =>
    obtain ⟨fewer, rfl⟩ := counted some_left many
    have less := Routine.fewer_of_takes (x := .definition) rfl read
    rw [parseOnto, if_neg some_left, first deep, read]
    dsimp only
    rw [added]
    exact ih (by omega) (by omega)

end Globals

namespace Lexemes

/-- What reading does with the tokens `ts`, which have the mark of the end behind them. -/
structure Advances (l : Lexemes) (ts : List Marked) : Prop where
  start : (Reader.start l).At ts 0
  looks : ∀ r p, r.At ts p → ∃ inside : p < ts.length,
    Parse.peek r = .ok (ts[p].1, r) ∧ Parse.here r = .ok (ts[p].2, r)
  steps : ∀ r p, r.At ts p →
    ∃ r', Parse.advance r = .ok ((), r') ∧ r'.At ts (min (p + 1) (ts.length - 1))
  stays : ∀ {α : Type} (x : Routine α) fuel r p, r.At ts p →
    match x.read fuel r with
    | .ok (_, r') => ∃ q, r'.At ts q ∧ p ≤ q ∧ q < ts.length
    | .error e => ∃ q, ∃ inside : q < ts.length, p ≤ q ∧ e.position = ts[q].2
  moves : ∀ {α : Type} (x : Routine α), x.takes → ∀ fuel r p a r', r.At ts p →
    x.read fuel r = .ok (a, r') → ∃ q, r'.At ts q ∧ p < q
  settles : ∀ {α : Type} (x : Routine α) r,
    (∀ e, x.answer r = .error e → e.cause ≠ .tooDeep) ∧
    ∀ fuel, 10 * r.left.length ≤ fuel → x.read fuel r = x.answer r
  program : Globals.ofLexemes l = Globals.empty.readOnto (Reader.start l)
  ends : ∀ e, Globals.ofLexemes l = .error (.parse e) → e.cause ≠ .tooDeep

end Lexemes

namespace Globals

theorem ofLexemes_eq_readOnto (l : Lexemes) : ofLexemes l = empty.readOnto (.start l) :=
  parseOnto_eq_readOnto empty (Nat.le_refl _) (Nat.le_refl _)

end Globals

/-- Tokens with one mark of the end, which stands behind all of them, are read from the first one
    on. No reader moves behind the mark, every phrase moves on, and reading a program ends. -/
theorem Lexemes.exists_advances {ts : List Marked} (ends : EndsOnce ts) :
    ∃ l : Lexemes, l.marked = ts ∧ l.Advances ts := by
  obtain ⟨l, rfl⟩ := exists_marked ends
  refine ⟨l, rfl, ?_⟩
  constructor
  case start => rfl
  case looks => exact fun r p there => there.looks
  case steps => exact fun r p there => there.advance
  case stays => exact fun x fuel r p there => there.stays x fuel
  case moves => exact fun x takes fuel r p a r' there read => there.moves takes read
  case settles =>
    intro α x r
    refine ⟨fun e => Routine.answer_ne_tooDeep, fun fuel enough => ?_⟩
    rw [Reader.length_left] at enough
    exact Routine.answer_of_enough enough
  case program => exact Globals.ofLexemes_eq_readOnto l
  case ends =>
    intro e failed
    rw [Globals.ofLexemes_eq_readOnto] at failed
    exact Globals.readOnto_ne_tooDeep failed

namespace Lexemes

def unclosed : String := "f() \x7b loop \x7b"

theorem unclosed_advances : ∃ l, ofSource unclosed = .ok l ∧ l.marked.length = 7 ∧
    (∃ e, Globals.ofLexemes l = .error (.parse e) ∧
      e.cause = .expected "'\x7d' to close block" none ∧ e.position = l.finish) ∧
    EndsOnce l.marked ∧ l.Advances l.marked := by
  have facts : (ofSource unclosed).toOption.any fun l => decide (l.marked.length = 7) &&
      failsWith (fun
        | .parse e => decide (e = ⟨.expected "'\x7d' to close block" none, l.finish⟩)
        | _ => false) (Globals.ofLexemes l) := by decide +kernel
  obtain ⟨l, cut, both⟩ := exists_of_any facts
  obtain ⟨count, refused⟩ := Bool.and_eq_true_iff.mp both
  obtain ⟨e, failed, unended⟩ := exists_of_failsWith refused
  cases e with
  | parse e =>
    cases of_decide_eq_true unended
    have ends := endsOnce_marked l
    obtain ⟨l', same, advances⟩ := exists_advances ends
    cases marked_injective same
    exact ⟨l, cut, of_decide_eq_true count, ⟨_, failed, rfl, rfl⟩, ends, advances⟩
  | _ => cases unended

end Lexemes
end LoopLang
