import LoopLang.Proofs.Relabelling.Carry
import LoopLang.Proofs.Relabelling.Relabelled

namespace LoopLang

/-- Where tokens are read: at which places, how many nodes are numbered before, and which tokens
    come after them. -/
structure Surroundings where
  place : Relocation
  shift : NodeId
  more : List Lexeme

namespace Surroundings

variable (s : Surroundings)

def labels : Relabelling := ⟨s.place, (s.shift + ·)⟩

/-- Bounds on reading without and with what comes after. Where nothing comes after they are the
    same, so that reading reaches both or none of them. -/
structure Bounds (n n' : Nat) : Prop where
  le : n ≤ n'
  same : s.more = [] → n = n'

variable {s}

theorem Bounds.of_succ {n n' : Nat} (h : s.Bounds (n + 1) n') :
    ∃ m, n' = m + 1 ∧ s.Bounds n m := by
  obtain ⟨m, rfl⟩ := Nat.exists_eq_add_of_le' h.le
  exact ⟨m + n, by omega, ⟨by omega, fun nothing => by have := h.same nothing; omega⟩⟩

end Surroundings

def Reader.within (s : Surroundings) (r : Reader) : Reader :=
  ⟨r.rest.map (Lexeme.moved s.place) ++ s.more, s.place r.finish, s.shift + r.nextId⟩

namespace Parse

variable {s : Surroundings} {α β γ δ : Type} {act : α → β} {act' : γ → δ}

/-- The tokens that are left are the last ones of those that there were. -/
def Onward (x : Parse α) : Prop := ∀ r a r', x r = .ok (a, r') → r'.rest <:+ r.rest

def Shrinks (x : Parse α) : Prop := ∀ r a r', x r = .ok (a, r') → r'.rest.length < r.rest.length

def Agrees (s : Surroundings) (act : α → β) (x : Parse α) (y : Parse β) (r : Reader) : Prop :=
  y (r.within s) = carry (ParseError.moved s.place) (Prod.map act (Reader.within s)) (x r)

/-- Something is read and a token is left, so that no look has gone beyond the tokens. -/
def Inside (x : Parse α) (r : Reader) : Prop := ∃ a r', x r = .ok (a, r') ∧ r'.rest ≠ []

def Complete (x : Parse α) (r : Reader) : Prop := ∃ a r', x r = .ok (a, r')

/-- In the surroundings `y` reads what `x` reads alone, if that ends before the last token. -/
structure Follows (s : Surroundings) (act : α → β) (x : Parse α) (y : Parse β) : Prop where
  onward : x.Onward
  agrees : ∀ r, s.more = [] ∨ x.Inside r → Agrees s act x y r

/-- In the surroundings `y` reads what `x` reads alone, also up to the last token. Something is
    taken. -/
structure Closes (s : Surroundings) (act : α → β) (x : Parse α) (y : Parse β) : Prop where
  onward : x.Onward
  shrinks : x.Shrinks
  agrees : ∀ r, s.more = [] ∨ x.Complete r → Agrees s act x y r

section Rules

theorem bind_eq_ok {x : Parse α} {f : α → Parse β} {r r' : Reader} {b : β}
    (h : (x >>= f) r = .ok (b, r')) : ∃ a r1, x r = .ok (a, r1) ∧ f a r1 = .ok (b, r') := by
  change (x r >>= fun pair => f pair.1 pair.2) = .ok (b, r') at h
  cases read : x r with
  | error e =>
    rw [read] at h
    cases h
  | ok pair =>
    rw [read] at h
    exact ⟨pair.1, pair.2, rfl, h⟩

theorem Onward.bind {x : Parse α} {f : α → Parse β} (first : x.Onward)
    (rest : ∀ a, (f a).Onward) : (x >>= f).Onward := by
  intro r b r' read
  obtain ⟨a, r1, read1, read2⟩ := bind_eq_ok read
  exact (rest a r1 b r' read2).trans (first r a r1 read1)

theorem Onward.pure (a : α) : (pure a : Parse α).Onward := by
  intro r a' r' read
  cases read
  exact List.suffix_rfl

theorem Shrinks.then {x : Parse α} {f : α → Parse β} (first : x.Shrinks)
    (rest : ∀ a, (f a).Onward) : (x >>= f).Shrinks := by
  intro r b r' read
  obtain ⟨a, r1, read1, read2⟩ := bind_eq_ok read
  exact Nat.lt_of_le_of_lt (rest a r1 b r' read2).length_le (first r a r1 read1)

theorem Onward.shrinks {x : Parse α} {f : α → Parse β} (first : x.Onward)
    (rest : ∀ a, (f a).Shrinks) : (x >>= f).Shrinks := by
  intro r b r' read
  obtain ⟨a, r1, read1, read2⟩ := bind_eq_ok read
  exact Nat.lt_of_lt_of_le (rest a r1 b r' read2) (first r a r1 read1).length_le

theorem onward_failAt (position : Position) (cause : ParseCause) :
    (failAt position cause : Parse α).Onward := by
  intro r a r' read
  cases read

theorem onward_fail (cause : ParseCause) : (fail cause : Parse α).Onward := by
  intro r a r' read
  cases read

theorem shrinks_failAt (position : Position) (cause : ParseCause) :
    (failAt position cause : Parse α).Shrinks := by
  intro r a r' read
  cases read

theorem shrinks_fail (cause : ParseCause) : (fail cause : Parse α).Shrinks := by
  intro r a r' read
  cases read

theorem inside_of_shrinks {x : Parse α} {f : α → Parse β} {r r1 r' : Reader} {a : α} {b : β}
    (shrinks : (f a).Shrinks) (read : x r = .ok (a, r1)) (others : f a r1 = .ok (b, r')) :
    x.Inside r := by
  refine ⟨a, r1, read, fun nothing_left => ?_⟩
  have fewer := shrinks r1 b r' others
  rw [nothing_left] at fewer
  cases fewer

namespace Follows

theorem pure (a : α) : Follows s act (pure a) (pure (act a)) := ⟨.pure a, fun _ _ => rfl⟩

theorem bind {x : Parse α} {y : Parse β} {g : α → Parse γ} {h : β → Parse δ}
    (first : Follows s act x y) (rest : ∀ a, Follows s act' (g a) (h (act a))) :
    Follows s act' (x >>= g) (y >>= h) := by
  refine ⟨first.onward.bind fun a => (rest a).onward, fun r settled => ?_⟩
  have start : Agrees s act x y r := by
    refine first.agrees r (settled.imp id fun inside => ?_)
    obtain ⟨c, r', read, some_left⟩ := inside
    obtain ⟨a, r1, read1, read2⟩ := bind_eq_ok read
    refine ⟨a, r1, read1, fun nothing_left => some_left ?_⟩
    have back := (rest a).onward r1 c r' read2
    rwa [nothing_left, List.suffix_nil] at back
  change (y (r.within s) >>= fun pair => h pair.1 pair.2) =
    carry _ _ (x r >>= fun pair => g pair.1 pair.2)
  rw [start]
  cases read : x r with
  | error e => rfl
  | ok pair =>
    refine (rest pair.1).agrees pair.2 (settled.imp id fun inside => ?_)
    obtain ⟨c, r', whole, some_left⟩ := inside
    obtain ⟨a, r1, read1, read2⟩ := bind_eq_ok whole
    rw [read] at read1
    cases read1
    exact ⟨c, r', read2, some_left⟩

theorem next {x y : Parse α} {g : α → Parse γ} {h : α → Parse δ} (first : Follows s id x y)
    (rest : ∀ a, Follows s act' (g a) (h a)) : Follows s act' (x >>= g) (y >>= h) :=
  first.bind rest

theorem some_bind {x : Parse α} {y : Parse β} {g : Option α → Parse γ} {h : Option β → Parse δ}
    (first : Follows s act x y)
    (rest : ∀ a, Follows s act' (g (some a)) (h (some (act a)))) :
    Follows s act' (some <$> x >>= g) (some <$> y >>= h) := by
  rw [bind_map_left, bind_map_left]
  exact first.bind rest

end Follows

namespace Closes

theorem follows {x : Parse α} {y : Parse β} (h : Closes s act x y) : Follows s act x y := by
  refine ⟨h.onward, fun r settled => h.agrees r (settled.imp id fun inside => ?_)⟩
  obtain ⟨a, r', read, _⟩ := inside
  exact ⟨a, r', read⟩

theorem after {x : Parse α} {y : Parse β} {g : α → Parse γ} {h : β → Parse δ}
    (first : Follows s act x y) (rest : ∀ a, Closes s act' (g a) (h (act a))) :
    Closes s act' (x >>= g) (y >>= h) := by
  refine ⟨first.onward.bind fun a => (rest a).onward,
    first.onward.shrinks fun a => (rest a).shrinks, fun r settled => ?_⟩
  have start : Agrees s act x y r := by
    refine first.agrees r (settled.imp id fun complete => ?_)
    obtain ⟨c, r', read⟩ := complete
    obtain ⟨a, r1, read1, read2⟩ := bind_eq_ok read
    exact inside_of_shrinks (rest a).shrinks read1 read2
  change (y (r.within s) >>= fun pair => h pair.1 pair.2) =
    carry _ _ (x r >>= fun pair => g pair.1 pair.2)
  rw [start]
  cases read : x r with
  | error e => rfl
  | ok pair =>
    refine (rest pair.1).agrees pair.2 (settled.imp id fun complete => ?_)
    obtain ⟨c, r', whole⟩ := complete
    obtain ⟨a, r1, read1, read2⟩ := bind_eq_ok whole
    rw [read] at read1
    cases read1
    exact ⟨c, r', read2⟩

theorem next {x y : Parse α} {g : α → Parse γ} {h : α → Parse δ} (first : Follows s id x y)
    (rest : ∀ a, Closes s act' (g a) (h a)) : Closes s act' (x >>= g) (y >>= h) :=
  after first rest

theorem result {x : Parse α} {y : Parse β} (h : Closes s act x y) {make : α → γ}
    {make' : β → δ} (same : ∀ a, make' (act a) = act' (make a)) :
    Closes s act' (do return make (← x)) (do return make' (← y)) := by
  refine ⟨h.onward.bind fun a => .pure (make a), h.shrinks.then fun a => .pure (make a),
    fun r settled => ?_⟩
  have start : Agrees s act x y r := by
    refine h.agrees r (settled.imp id fun complete => ?_)
    obtain ⟨c, r', read⟩ := complete
    obtain ⟨a, r1, read1, _⟩ := bind_eq_ok read
    exact ⟨a, r1, read1⟩
  change (y (r.within s) >>= fun pair => Except.ok (make' pair.1, pair.2)) =
    carry _ _ (x r >>= fun pair => Except.ok (make pair.1, pair.2))
  rw [start]
  cases x r with
  | error e => rfl
  | ok pair => exact congrArg (fun made => Except.ok (made, pair.2.within s)) (same pair.1)

end Closes

theorem follows_peek : Follows s id peek peek := by
  refine ⟨fun r a r' read => ?_, fun r settled => ?_⟩
  · cases read
    exact List.suffix_rfl
  · obtain ⟨rest, finish, nextId⟩ := r
    cases rest with
    | cons l rest => rfl
    | nil =>
      rcases settled with nothing | ⟨a, r', read, some_left⟩
      · obtain ⟨place, shift, more⟩ := s
        cases nothing
        rfl
      · cases read
        exact absurd rfl some_left

theorem follows_here : Follows s s.place here here := by
  refine ⟨fun r a r' read => ?_, fun r settled => ?_⟩
  · cases read
    exact List.suffix_rfl
  · obtain ⟨rest, finish, nextId⟩ := r
    cases rest with
    | cons l rest => rfl
    | nil =>
      rcases settled with nothing | ⟨a, r', read, some_left⟩
      · obtain ⟨place, shift, more⟩ := s
        cases nothing
        rfl
      · cases read
        exact absurd rfl some_left

theorem onward_advance : advance.Onward := by
  intro r a r' read
  cases read
  exact List.tail_suffix _

theorem follows_advance : Follows s id advance advance := by
  refine ⟨onward_advance, fun r settled => ?_⟩
  obtain ⟨rest, finish, nextId⟩ := r
  cases rest with
  | cons l rest => rfl
  | nil =>
    rcases settled with nothing | ⟨a, r', read, some_left⟩
    · obtain ⟨place, shift, more⟩ := s
      cases nothing
      rfl
    · cases read
      exact absurd rfl some_left

theorem follows_number (position : Position) :
    Follows s (Node.relabelled s.labels) (number position) (number (s.place position)) := by
  refine ⟨fun r a r' read => ?_, fun _ _ => rfl⟩
  cases read
  exact List.suffix_rfl

theorem follows_failAt (position : Position) (cause : ParseCause) :
    Follows s act (failAt position cause) (failAt (s.place position) cause) :=
  ⟨onward_failAt position cause, fun _ _ => rfl⟩

theorem follows_fail (cause : ParseCause) : Follows s act (fail cause) (fail cause) :=
  follows_here.bind fun position => follows_failAt position cause

theorem closes_fail {cause : ParseCause} {y : Parse β} (same : s.more = [] → y = fail cause) :
    Closes s act (fail cause) y := by
  refine ⟨onward_fail _, shrinks_fail _, fun r settled => ?_⟩
  rcases settled with nothing | ⟨a, r', read⟩
  · rw [same nothing]
    exact (follows_fail _).agrees r (.inl nothing)
  · cases read

theorem closes_tooDeep {n : Nat} (bounds : s.Bounds 0 n) (y : Nat → Parse β)
    (none_left : y 0 = fail .tooDeep) : Closes s act (fail .tooDeep) (y n) := by
  refine closes_fail fun nothing => ?_
  rw [← bounds.same nothing]
  exact none_left

theorem follows_peekSecond {g : Option Token → Parse γ} {h : Option Token → Parse δ}
    (rest : ∀ second, Follows s act' (g second) (h second)) (shrinks : (g none).Shrinks) :
    Follows s act' (peekSecond >>= g) (peekSecond >>= h) := by
  refine ⟨fun r c r' read => (rest _).onward r c r' read, fun r settled => ?_⟩
  obtain ⟨tokens, finish, nextId⟩ := r
  rcases tokens with _ | ⟨l, _ | ⟨l', tokens⟩⟩
  case cons.cons => exact (rest (some l'.token)).agrees _ settled
  all_goals
    rcases settled with nothing | ⟨c, r', read, some_left⟩
    · obtain ⟨place, shift, more⟩ := s
      cases nothing
      exact (rest none).agrees _ (.inl rfl)
    · have fewer := shrinks _ c r' read
      have none_left : r'.rest = [] := by
        rw [← List.length_eq_zero_iff]
        simp only [List.length_cons, List.length_nil] at fewer
        omega
      exact absurd none_left some_left

end Rules

section Marks

theorem follows_accept (mark : Symbol) : Follows s id (accept mark) (accept mark) := by
  refine follows_peek.next fun next => ?_
  split
  · exact follows_advance.next fun _ => .pure true
  · exact .pure false

theorem follows_acceptWord (word : Keyword) :
    Follows s id (acceptWord word) (acceptWord word) := by
  refine follows_peek.next fun next => ?_
  split
  · exact follows_advance.next fun _ => .pure true
  · exact .pure false

theorem follows_isNext (mark : Symbol) : Follows s id (isNext mark) (isNext mark) :=
  follows_peek.next fun _ => .pure _

theorem follows_expect (mark : Symbol) (wanted : String) :
    Follows s id (expect mark wanted) (expect mark wanted) := by
  refine (follows_accept mark).next fun found => ?_
  split
  · exact .pure ()
  · exact follows_peek.next fun next => follows_fail _

theorem follows_expectName : Follows s id expectName expectName := by
  refine follows_peek.next fun next => ?_
  split
  · exact follows_advance.next fun _ => .pure _
  · exact follows_fail _

theorem follows_operator {ω : Type} (class? : Token → Option ω) :
    Follows s id (operator? class?) (operator? class?) := by
  refine follows_peek.next fun next => ?_
  split
  · exact follows_advance.next fun _ => .pure _
  · exact .pure _

theorem follows_type : Follows s id type type := by
  refine (follows_accept _).next fun bracket => ?_
  split
  · exact follows_expectName.next fun _ => (follows_expect _ _).next fun _ => .pure _
  · refine follows_peek.next fun next => ?_
    split
    · exact follows_advance.next fun _ => .pure _
    · exact follows_fail _

variable {mark : Symbol} {wanted : String} {l : Lexeme} {rest : List Lexeme} {finish : Position}
  {nextId : NodeId}

theorem accept_of_mark (found : l.token = .symbol mark) :
    accept mark ⟨l :: rest, finish, nextId⟩ = .ok (true, ⟨rest, finish, nextId⟩) := by
  have next : (some l.token) = some (.symbol mark) := congrArg some found
  change (if (some l.token) = some (.symbol mark) then _ else _ : Parse Bool) _ = _
  rw [if_pos next]
  rfl

theorem accept_of_other (other : l.token ≠ .symbol mark) :
    accept mark ⟨l :: rest, finish, nextId⟩ = .ok (false, ⟨l :: rest, finish, nextId⟩) := by
  change (if (some l.token) = some (.symbol mark) then _ else _ : Parse Bool) _ = _
  rw [if_neg fun same => other (Option.some.inj same)]
  rfl

theorem expect_of_mark (found : l.token = .symbol mark) :
    expect mark wanted ⟨l :: rest, finish, nextId⟩ = .ok ((), ⟨rest, finish, nextId⟩) := by
  change (accept mark ⟨l :: rest, finish, nextId⟩ >>= _) = _
  rw [accept_of_mark found]
  rfl

theorem expect_eq_ok {a : Unit} {r r' : Reader} (h : expect mark wanted r = .ok (a, r')) :
    ∃ l rest, r.rest = l :: rest ∧ l.token = .symbol mark := by
  obtain ⟨all, finish, nextId⟩ := r
  cases all with
  | nil => cases h
  | cons l rest =>
    by_cases found : l.token = .symbol mark
    · exact ⟨l, rest, rfl, found⟩
    · change (accept mark ⟨l :: rest, finish, nextId⟩ >>= _) = _ at h
      rw [accept_of_other found] at h
      cases h

variable (mark wanted)

theorem shrinks_expect : (expect mark wanted).Shrinks := by
  intro r a r' read
  obtain ⟨l, rest, tokens, found⟩ := expect_eq_ok read
  obtain ⟨all, finish, nextId⟩ := r
  cases tokens
  rw [expect_of_mark found] at read
  cases read
  exact Nat.lt_succ_self _

theorem closes_expect : Closes s id (expect mark wanted) (expect mark wanted) := by
  have follows : Follows s id (expect mark wanted) (expect mark wanted) :=
    follows_expect mark wanted
  refine ⟨follows.onward, shrinks_expect mark wanted, fun r settled => ?_⟩
  rcases settled with nothing | ⟨a, r', read⟩
  · exact follows.agrees r (.inl nothing)
  · obtain ⟨l, rest, tokens, found⟩ := expect_eq_ok read
    obtain ⟨all, finish, nextId⟩ := r
    cases tokens
    have there : (l.moved s.place).token = .symbol mark := found
    rw [Agrees, expect_of_mark found, Reader.within, List.map_cons, List.cons_append,
      expect_of_mark there]
    rfl

theorem closes_accept {a : α} {x : Parse α} {y : Parse β} (missing : Closes s act x y) :
    Closes s act (accept mark >>= fun found => if found then pure a else x)
      (accept mark >>= fun found => if found then pure (act a) else y) := by
  have follows : Follows s act (accept mark >>= fun found => if found then pure a else x)
      (accept mark >>= fun found => if found then pure (act a) else y) := by
    refine (follows_accept mark).next fun found => ?_
    split
    · exact .pure a
    · exact missing.follows
  refine ⟨follows.onward, ?_, ?_⟩
  · rintro ⟨_ | ⟨l, rest⟩, finish, nextId⟩ b r' read
    · exact missing.shrinks _ b r' read
    · change (accept mark _ >>= _) = .ok (b, r') at read
      by_cases found : l.token = .symbol mark
      · rw [accept_of_mark found] at read
        cases read
        exact Nat.lt_succ_self _
      · rw [accept_of_other found] at read
        exact missing.shrinks _ b r' read
  · rintro ⟨_ | ⟨l, rest⟩, finish, nextId⟩ (nothing | ⟨b, r', read⟩)
    · exact follows.agrees _ (.inl nothing)
    · cases missing.shrinks _ b r' read
    · exact follows.agrees _ (.inl nothing)
    · change (accept mark _ >>= _) = .ok (b, r') at read
      change (accept mark _ >>= _) = carry _ _ (accept mark _ >>= _)
      rw [Reader.within, List.map_cons, List.cons_append]
      by_cases found : l.token = .symbol mark
      · have there : (l.moved s.place).token = .symbol mark := found
        rw [accept_of_mark found, accept_of_mark there]
        rfl
      · have there : (l.moved s.place).token ≠ .symbol mark := found
        rw [accept_of_other found] at read ⊢
        rw [accept_of_other there]
        exact missing.agrees ⟨l :: rest, finish, nextId⟩ (.inr ⟨b, r', read⟩)

end Marks

structure ExprFollows (s : Surroundings) (n n' : Nat) : Prop where
  expression : Follows s (Expr.relabelled s.labels) (expression n) (expression n')
  sum : Follows s (Expr.relabelled s.labels) (sum n) (sum n')
  sumTail (left : Expr) : Follows s (Expr.relabelled s.labels) (sumTail n left)
    (sumTail n' (left.relabelled s.labels))
  product : Follows s (Expr.relabelled s.labels) (product n) (product n')
  productTail (left : Expr) :
    Follows s (Expr.relabelled s.labels) (productTail n left)
      (productTail n' (left.relabelled s.labels))
  unary : Follows s (Expr.relabelled s.labels) (unary n) (unary n')
  primary : Follows s (Expr.relabelled s.labels) (primary n) (primary n')
  arguments : Follows s (Expr.relabelledAll s.labels) (arguments n) (arguments n')
  expressionList : Follows s (Expr.relabelledAll s.labels) (expressionList n) (expressionList n')
  fieldList : Follows s (Field.relabelledAll s.labels) (fieldList n) (fieldList n')
  access (start : Position) (root : String) (steps : List Step) :
    Follows s (Expr.relabelled s.labels) (access n start root steps)
      (access n' (s.place start) root (Step.relabelledAll s.labels steps))

namespace ExprFollows

variable {n n' : Nat}

theorem zero (bounds : s.Bounds 0 n') : ExprFollows s 0 n' := by
  constructor
  case sumTail =>
    intro left
    exact (closes_tooDeep bounds (fun n => Parse.sumTail n (left.relabelled s.labels)) rfl).follows
  case productTail =>
    intro left
    exact (closes_tooDeep bounds (fun n => Parse.productTail n (left.relabelled s.labels))
      rfl).follows
  case access =>
    intro start root steps
    exact (closes_tooDeep bounds (fun n => Parse.access n (s.place start) root
      (Step.relabelledAll s.labels steps)) rfl).follows
  all_goals exact (closes_tooDeep bounds _ rfl).follows

variable (ih : ExprFollows s n n')
include ih

theorem expression_succ :
    Follows s (Expr.relabelled s.labels) (Parse.expression (n + 1))
      (Parse.expression (n' + 1)) := by
  refine ih.sum.bind fun left => (follows_operator _).next fun op => ?_
  cases op with
  | none => exact .pure left
  | some op =>
    refine ih.sum.bind fun right => ?_
    rw [Expr.relabelled_position]
    exact (follows_number _).bind fun node => .pure (Expr.compare node op left right)

theorem sumTail_succ (left : Expr) :
    Follows s (Expr.relabelled s.labels) (Parse.sumTail (n + 1) left)
      (Parse.sumTail (n' + 1) (left.relabelled s.labels)) := by
  refine (follows_operator _).next fun op => ?_
  cases op with
  | none => exact .pure left
  | some op =>
    refine ih.product.bind fun right => ?_
    rw [Expr.relabelled_position]
    exact (follows_number _).bind fun node => ih.sumTail (.math node op left right)

theorem productTail_succ (left : Expr) :
    Follows s (Expr.relabelled s.labels) (Parse.productTail (n + 1) left)
      (Parse.productTail (n' + 1) (left.relabelled s.labels)) := by
  refine (follows_operator _).next fun op => ?_
  cases op with
  | none => exact .pure left
  | some op =>
    refine ih.unary.bind fun right => ?_
    rw [Expr.relabelled_position]
    exact (follows_number _).bind fun node => ih.productTail (.math node op left right)

theorem unary_succ :
    Follows s (Expr.relabelled s.labels) (Parse.unary (n + 1)) (Parse.unary (n' + 1)) := by
  refine follows_here.bind fun start => follows_peek.next fun next => ?_
  split
  · refine follows_advance.next fun _ => ih.unary.bind fun operand => ?_
    exact (follows_number start).bind fun node => .pure (Expr.unary node .not operand)
  · refine follows_advance.next fun _ => ih.unary.bind fun operand => ?_
    exact (follows_number start).bind fun node => .pure (Expr.unary node .not operand)
  · refine follows_advance.next fun _ => follows_peek.next fun next => ?_
    split
    · rename_i value _
      refine follows_advance.next fun _ => ?_
      exact (follows_number start).bind fun node => .pure (Expr.literal node value)
    · refine ih.unary.bind fun operand => ?_
      exact (follows_number start).bind fun node => .pure (Expr.unary node .negate operand)
  · exact ih.primary

theorem primary_succ :
    Follows s (Expr.relabelled s.labels) (Parse.primary (n + 1)) (Parse.primary (n' + 1)) := by
  refine follows_here.bind fun start => follows_peek.next fun next => ?_
  split
  · rename_i value _
    refine follows_advance.next fun _ => ?_
    exact (follows_number start).bind fun node => .pure (Expr.literal node value)
  · refine follows_advance.next fun _ => ih.expression.bind fun inner => ?_
    exact (follows_expect _ _).next fun _ => .pure inner
  · rename_i name _
    refine follows_advance.next fun _ => (follows_isNext _).next fun isCall => ?_
    split
    · refine ih.arguments.bind fun args => ?_
      exact (follows_number start).bind fun node => .pure (Expr.call node name args)
    · refine (follows_accept _).next fun isBuild => ?_
      split
      · refine ih.fieldList.bind fun given => (follows_expect _ _).next fun _ => ?_
        exact (follows_number start).bind fun node => .pure (Expr.build node name given)
      · exact ih.access start name []
  · exact follows_fail _

theorem arguments_succ :
    Follows s (Expr.relabelledAll s.labels) (Parse.arguments (n + 1))
      (Parse.arguments (n' + 1)) := by
  refine follows_advance.next fun _ => (follows_isNext _).next fun none => ?_
  have close (args : List Expr) :
      Follows s (Expr.relabelledAll s.labels)
        (do expect .rightParen "')' after arguments"; return args)
        (do expect .rightParen "')' after arguments"; return Expr.relabelledAll s.labels args) :=
    (follows_expect _ _).next fun _ => .pure args
  split
  · exact close []
  · exact ih.expressionList.bind close

theorem expressionList_succ : Follows s (Expr.relabelledAll s.labels) (Parse.expressionList (n + 1))
    (Parse.expressionList (n' + 1)) := by
  refine ih.expression.bind fun first => (follows_accept _).next fun more => ?_
  split
  · exact ih.expressionList.bind fun rest => .pure (first :: rest)
  · exact .pure [first]

theorem fieldList_succ :
    Follows s (Field.relabelledAll s.labels) (Parse.fieldList (n + 1))
      (Parse.fieldList (n' + 1)) := by
  refine (follows_isNext _).next fun ended => ?_
  split
  · exact .pure []
  · refine follows_here.bind fun start => follows_expectName.next fun name => ?_
    refine (follows_expect _ _).next fun _ => ih.expression.bind fun value => ?_
    refine (follows_accept _).next fun more => ?_
    split
    · exact ih.fieldList.bind fun rest => .pure (Field.mk name start value :: rest)
    · exact .pure [Field.mk name start value]

theorem access_succ (start : Position) (root : String) (steps : List Step) :
    Follows s (Expr.relabelled s.labels) (Parse.access (n + 1) start root steps)
      (Parse.access (n' + 1) (s.place start) root (Step.relabelledAll s.labels steps)) := by
  have turned : (Step.relabelledAll s.labels steps).reverse =
      Step.relabelledAll s.labels steps.reverse := by
    rw [Step.relabelledAll_eq_map, Step.relabelledAll_eq_map, List.map_reverse]
  refine (follows_accept _).next fun bracket => ?_
  split
  · refine ih.expression.bind fun index => (follows_expect _ _).next fun _ => ?_
    exact ih.access start root (.index index :: steps)
  · refine (follows_accept _).next fun dot => ?_
    split
    · refine follows_here.bind fun nameAt => follows_expectName.next fun name => ?_
      refine (follows_isNext _).next fun isCall => ?_
      split
      · refine ih.arguments.bind fun args => ?_
        rw [turned]
        let whole (node : Node) := Expr.method node root steps.reverse name nameAt args
        have last : Follows s (Expr.relabelled s.labels)
            (number start >>= fun node => pure (whole node))
            (number (s.place start) >>= fun node =>
              pure (.method node root _ name (s.place nameAt) _)) :=
          (follows_number start).bind fun node => .pure (whole node)
        refine (follows_isNext _).next fun dot => (follows_isNext _).next fun bracket => ?_
        split
        · exact (follows_fail _).next fun _ => last
        · exact last
      · exact ih.access start root (.member name nameAt :: steps)
    · rw [turned]
      exact (follows_number start).bind fun node => .pure (Expr.place node root steps.reverse)

theorem succ : ExprFollows s (n + 1) (n' + 1) where
  expression := ih.expression_succ
  sum := ih.product.bind fun left => ih.sumTail left
  sumTail := ih.sumTail_succ
  product := ih.unary.bind fun left => ih.productTail left
  productTail := ih.productTail_succ
  unary := ih.unary_succ
  primary := ih.primary_succ
  arguments := ih.arguments_succ
  expressionList := ih.expressionList_succ
  fieldList := ih.fieldList_succ
  access := ih.access_succ

end ExprFollows

theorem exprFollows (bounds : s.Bounds n n') : ExprFollows s n n' := by
  induction n generalizing n' with
  | zero => exact .zero bounds
  | succ n ih =>
    obtain ⟨m, rfl, fewer⟩ := bounds.of_succ
    exact (ih fewer).succ

section Statements

variable {n n' : Nat} (bounds : s.Bounds n n')
include bounds

theorem follows_condition (keyword : Keyword) :
    Follows s (Expr.relabelled s.labels) (condition n keyword) (condition n' keyword) := by
  refine (follows_expect _ _).next fun _ => (exprFollows bounds).expression.bind fun test => ?_
  exact (follows_expect _ _).next fun _ => .pure test

theorem follows_declaration (isConst : Bool) :
    Follows s (Stmt.relabelled s.labels) (declaration n isConst) (declaration n' isConst) := by
  refine follows_here.bind fun start => follows_expectName.next fun name => ?_
  refine (follows_expect _ _).next fun _ => follows_type.next fun type => ?_
  refine (follows_number start).bind fun node => (follows_accept _).next fun defined => ?_
  split
  · refine (exprFollows bounds).expression.bind fun value => (follows_expect _ _).next fun _ => ?_
    exact .pure (Stmt.define node name type value isConst)
  · split
    · exact follows_fail _
    · exact (follows_expect _ _).next fun _ => .pure (Stmt.declare node name type)

theorem follows_expressionStatement :
    Follows s (Stmt.relabelled s.labels) (expressionStatement n) (expressionStatement n') := by
  have expression := (exprFollows bounds).expression
  refine follows_here.bind fun start => expression.bind fun e => ?_
  refine (follows_accept _).next fun assigned => ?_
  split
  · cases e with
    | place node root steps =>
      refine expression.bind fun value => (follows_expect _ _).next fun _ => ?_
      exact .pure (Stmt.assign start node root steps value)
    | _ => exact follows_failAt _ _
  · refine (follows_expect _ _).next fun _ => ?_
    cases e with
    | call node callee args => exact .pure (Stmt.call start node callee args)
    | place node root steps => exact .pure (Stmt.place start node root steps)
    | method node root steps name nameAt args =>
      exact .pure (Stmt.method start node root steps name nameAt args)
    | _ => exact follows_failAt _ _

end Statements

theorem shrinks_expressionStatement (n : Nat) : (expressionStatement n).Shrinks := by
  have expression : (expression n).Onward :=
    (exprFollows (s := ⟨id, 0, []⟩) ⟨Nat.le_refl n, fun _ => rfl⟩).expression.onward
  have accept (mark : Symbol) : (accept mark).Onward :=
    (follows_accept (s := ⟨id, 0, []⟩) mark).onward
  have here : here.Onward := (follows_here (s := ⟨id, 0, []⟩)).onward
  refine here.shrinks fun start => expression.shrinks fun e => ?_
  refine (accept _).shrinks fun assigned => ?_
  split
  · cases e with
    | place node root steps =>
      exact expression.shrinks fun value => (shrinks_expect _ _).then fun _ => .pure _
    | _ => exact shrinks_failAt _ _
  · refine (shrinks_expect _ _).then fun _ => ?_
    cases e with
    | call | place | method => exact .pure _
    | _ => exact onward_failAt _ _

structure StmtFollows (s : Surroundings) (n n' : Nat) : Prop where
  block : Closes s (Stmt.relabelledAll s.labels) (block n) (block n')
  statements : Closes s (Stmt.relabelledAll s.labels) (statements n) (statements n')
  statement : Follows s (Stmt.relabelled s.labels) (statement n) (statement n')
  elifList : Follows s (Stmt.relabelledBranches s.labels) (elifList n) (elifList n')

namespace StmtFollows

variable {n n' : Nat}

theorem zero (bounds : s.Bounds 0 n') : StmtFollows s 0 n' := by
  constructor
  · exact closes_tooDeep bounds _ rfl
  · exact closes_tooDeep bounds _ rfl
  · exact (closes_tooDeep bounds _ rfl).follows
  · exact (closes_tooDeep bounds _ rfl).follows

variable (bounds : s.Bounds n n') (ih : StmtFollows s n n')
include ih

theorem statements_succ :
    Closes s (Stmt.relabelledAll s.labels) (Parse.statements (n + 1))
      (Parse.statements (n' + 1)) := by
  refine closes_accept (a := []) .rightBrace (.next follows_peek fun next => ?_)
  split
  · exact closes_fail fun _ => rfl
  · refine .after ih.statement fun first => ?_
    exact ih.statements.result fun rest => rfl

include bounds

theorem elifList_succ :
    Follows s (Stmt.relabelledBranches s.labels) (Parse.elifList (n + 1))
      (Parse.elifList (n' + 1)) := by
  refine (follows_acceptWord _).next fun more => ?_
  split
  · refine (follows_condition bounds _).bind fun test => ih.block.follows.bind fun body => ?_
    exact ih.elifList.bind fun rest => .pure (Branch.mk test body :: rest)
  · exact .pure []

theorem statement_succ :
    Follows s (Stmt.relabelled s.labels) (Parse.statement (n + 1))
      (Parse.statement (n' + 1)) := by
  have expression := (exprFollows bounds).expression
  have declaration := follows_declaration bounds
  refine follows_here.bind fun start => follows_peek.next fun next => ?_
  split
  · exact follows_advance.next fun _ => declaration false
  · exact follows_advance.next fun _ => declaration true
  · refine follows_advance.next fun _ => ih.block.follows.bind fun body => ?_
    exact .pure (Stmt.loop start body)
  · refine follows_advance.next fun _ => (follows_condition bounds _).bind fun test => ?_
    refine ih.block.follows.bind fun body => ih.elifList.bind fun elifs => ?_
    refine (follows_acceptWord _).next fun last => ?_
    split
    · refine ih.block.follows.some_bind fun last => ?_
      exact .pure (Stmt.choose start ⟨test, body⟩ elifs (some last))
    · exact .pure (Stmt.choose start ⟨test, body⟩ elifs none)
  · refine follows_advance.next fun _ => (follows_isNext _).next fun ended => ?_
    have last (value : Option Expr) : Follows s (Stmt.relabelled s.labels)
        (do expectSemicolon "return statement"; return .return start value)
        (do
          expectSemicolon "return statement"
          return .return (s.place start) (value.map (Expr.relabelled s.labels))) :=
      (follows_expect _ _).next fun _ => .pure (Stmt.return start value)
    split
    · exact last none
    · exact expression.some_bind fun value => last (some value)
  · exact follows_advance.next fun _ => (follows_expect _ _).next fun _ => .pure (Stmt.break start)
  · refine follows_advance.next fun _ => (follows_expect _ _).next fun _ => ?_
    exact .pure (Stmt.continue start)
  · refine follows_peekSecond (fun second => ?_) (shrinks_expressionStatement n)
    split
    · exact declaration false
    · exact follows_expressionStatement bounds
  · exact follows_expressionStatement bounds

theorem succ : StmtFollows s (n + 1) (n' + 1) where
  block := .next (follows_expect _ _) fun _ => ih.statements
  statements := ih.statements_succ
  statement := ih.statement_succ bounds
  elifList := ih.elifList_succ bounds

end StmtFollows

theorem stmtFollows {n n' : Nat} (bounds : s.Bounds n n') : StmtFollows s n n' := by
  induction n generalizing n' with
  | zero => exact .zero bounds
  | succ n ih =>
    obtain ⟨m, rfl, fewer⟩ := bounds.of_succ
    exact (ih fewer).succ fewer

section Definitions

variable {n n' : Nat} (bounds : s.Bounds n n')
include bounds

theorem follows_memberList :
    Follows s (List.map (Member.relabelled s.labels)) (memberList n) (memberList n') := by
  induction n generalizing n' with
  | zero => exact (closes_tooDeep bounds _ rfl).follows
  | succ n ih =>
    obtain ⟨n', rfl, fewer⟩ := bounds.of_succ
    refine (follows_isNext _).next fun ended => ?_
    split
    · exact .pure []
    · refine follows_here.bind fun start => follows_expectName.next fun name => ?_
      refine (follows_expect _ _).next fun _ => follows_type.next fun type => ?_
      refine (follows_accept _).next fun given => ?_
      have last (m : Member) : Follows s (List.map (Member.relabelled s.labels))
          (do if ← accept .comma then return m :: (← memberList n) else return [m])
          (do
            if ← accept .comma then return m.relabelled s.labels :: (← memberList n')
            else return [m.relabelled s.labels]) := by
        refine (follows_accept _).next fun more => ?_
        split
        · exact (ih fewer).bind fun rest => .pure (m :: rest)
        · exact .pure [m]
      split
      · refine (exprFollows fewer).expression.some_bind fun e => ?_
        exact last ⟨name, type, some e, start⟩
      · exact last ⟨name, type, none, start⟩

theorem follows_entryList : Follows s id (entryList n) (entryList n') := by
  induction n generalizing n' with
  | zero => exact (closes_tooDeep bounds _ rfl).follows
  | succ n ih =>
    obtain ⟨n', rfl, fewer⟩ := bounds.of_succ
    refine (follows_isNext _).next fun ended => ?_
    split
    · exact .pure _
    · refine follows_expectName.next fun entry => (follows_accept _).next fun more => ?_
      split
      · exact (ih fewer).next fun rest => .pure _
      · exact .pure _

theorem follows_paramList :
    Follows s (List.map (Param.moved s.place)) (paramList n) (paramList n') := by
  induction n generalizing n' with
  | zero => exact (closes_tooDeep bounds _ rfl).follows
  | succ n ih =>
    obtain ⟨n', rfl, fewer⟩ := bounds.of_succ
    refine follows_here.bind fun start => follows_expectName.next fun name => ?_
    refine (follows_expect _ _).next fun _ => (follows_accept _).next fun byReference => ?_
    refine follows_type.next fun type => (follows_accept _).next fun more => ?_
    split
    · exact (ih fewer).bind fun rest => .pure (Param.mk name type byReference start :: rest)
    · exact .pure [Param.mk name type byReference start]

theorem closes_struct : Closes s (Struct.relabelled s.labels) (struct n) (struct n') := by
  refine .after follows_here fun start => .next follows_expectName fun name => ?_
  refine .next (follows_expect _ _) fun _ => .after (follows_memberList bounds) fun members => ?_
  exact (closes_expect _ _).result fun _ => rfl

theorem closes_enum : Closes s (Enum.moved s.place) (enum n) (enum n') := by
  refine .after follows_here fun start => .next follows_expectName fun name => ?_
  refine .next (follows_expect _ _) fun _ => .next (follows_entryList bounds) fun entries => ?_
  exact (closes_expect _ _).result fun _ => rfl

theorem closes_function : Closes s (Function.relabelled s.labels) (function n) (function n') := by
  refine .after follows_here fun start => .next follows_expectName fun name => ?_
  refine .next (follows_expect _ _) fun _ => .next (follows_isNext _) fun none => ?_
  have body (params : List Param) (returns : Option Ty) : Closes s (Function.relabelled s.labels)
      (do return ⟨name, params, returns, ← block n, start⟩)
      (do return ⟨name, params.map (Param.moved s.place), returns, ← block n', s.place start⟩) :=
    (stmtFollows bounds).block.result fun body => rfl
  have rest (params : List Param) : Closes s (Function.relabelled s.labels)
      (do
        expect .rightParen "')' after parameters"
        let returns ← if ← accept .colon then some <$> type else pure Option.none
        return ⟨name, params, returns, ← block n, start⟩)
      (do
        expect .rightParen "')' after parameters"
        let returns ← if ← accept .colon then some <$> type else pure Option.none
        return ⟨name, params.map (Param.moved s.place), returns, ← block n', s.place start⟩) := by
    refine .next (follows_expect _ _) fun _ => .next (follows_accept _) fun returns => ?_
    split
    · rw [bind_map_left, bind_map_left]
      exact .next follows_type fun type => body params (some type)
    · exact body params Option.none
  split
  · exact rest []
  · exact .after (follows_paramList bounds) rest

end Definitions
end Parse

namespace Definition

variable {s : Surroundings}

/-- A definition that is read alone is read in its surroundings, with its labels there. -/
theorem closes_parse {n n' : Nat} (bounds : s.Bounds n n') :
    Parse.Closes s (Definition.relabelled s.labels) (parse n) (parse n') := by
  refine .next Parse.follows_peek fun next => ?_
  split
  · refine .next Parse.follows_advance fun _ => ?_
    exact (Parse.closes_struct bounds).result fun s => rfl
  · refine .next Parse.follows_advance fun _ => ?_
    exact (Parse.closes_enum bounds).result fun e => rfl
  · refine .next Parse.follows_advance fun _ => ?_
    exact (Parse.closes_function bounds).result fun f => rfl
  · exact (Parse.closes_function bounds).result fun f => rfl

end Definition
end LoopLang
