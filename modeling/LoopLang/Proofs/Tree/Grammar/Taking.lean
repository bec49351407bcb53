import LoopLang.Tree.Parser

namespace LoopLang.Parse

/-- When `next` comes next, the tokens that reading takes away satisfy `post`, along with what is
    read. -/
def Takes {α : Type} (x : Parse α) (next : Option Token) (post : α → List Token → Prop) : Prop :=
  ∀ r a r', r.rest.head?.map (·.token) = next → x r = .ok (a, r') →
    ∃ ts, r.rest.map (·.token) = ts ++ r'.rest.map (·.token) ∧ post a ts

section Rules

variable {α β : Type} {next : Option Token} {post : β → List Token → Prop}

theorem Takes.bind {x : Parse α} {f : α → Parse β} {P : α → List Token → Prop}
    (first : x.Takes next P)
    (second : ∀ a ts, P a ts → ∀ next', (f a).Takes next' fun b ts' => post b (ts ++ ts')) :
    (x >>= f).Takes next post := by
  intro r b r' start run
  change (x r >>= fun pair => f pair.1 pair.2) = .ok (b, r') at run
  cases read : x r with
  | error e =>
    rw [read] at run
    cases run
  | ok pair =>
    rw [read] at run
    obtain ⟨ts, taken, holds⟩ := first r pair.1 pair.2 start read
    obtain ⟨ts', taken', holds'⟩ := second pair.1 ts holds _ pair.2 b r' rfl run
    exact ⟨ts ++ ts', by rw [taken, taken', List.append_assoc], holds'⟩

theorem Takes.pure {b : β} (h : post b []) : (pure b : Parse β).Takes next post := by
  intro r b' r' _ run
  cases run
  exact ⟨[], rfl, h⟩

theorem Takes.mono {x : Parse β} {P : β → List Token → Prop} (h : x.Takes next P)
    (weaker : ∀ b ts, P b ts → post b ts) : x.Takes next post := by
  intro r b r' start run
  obtain ⟨ts, taken, holds⟩ := h r b r' start run
  exact ⟨ts, taken, weaker b ts holds⟩

theorem Takes.map {x : Parse α} {f : α → β} (h : x.Takes next fun a => post (f a)) :
    (f <$> x).Takes next post := by
  rw [map_eq_pure_bind]
  refine h.bind fun a ts holds next' => .pure ?_
  rwa [List.append_nil]

theorem Takes.failAt {position : Position} {cause : ParseCause} :
    (Parse.failAt position cause : Parse β).Takes next post := by
  intro r b r' _ run
  cases run

theorem Takes.here {f : Position → Parse β} (h : ∀ position, (f position).Takes next post) :
    (here >>= f).Takes next post := fun r => h _ r

theorem Takes.peek {f : Option Token → Parse β} (h : (f next).Takes next post) :
    (peek >>= f).Takes next post := by
  intro r b r' start run
  subst start
  exact h r b r' rfl run

theorem Takes.peekSecond {f : Option Token → Parse β}
    (h : ∀ second, (f second).Takes next post) : (peekSecond >>= f).Takes next post :=
  fun r => h _ r

theorem Takes.fail {cause : ParseCause} : (Parse.fail cause : Parse β).Takes next post :=
  .here fun _ => .failAt

theorem Takes.advance {t : Token} {f : Unit → Parse β}
    (h : ∀ next', (f ()).Takes next' fun b ts => post b (t :: ts)) :
    (advance >>= f).Takes (some t) post := by
  intro r b r' start run
  obtain ⟨l, others, tokens⟩ : ∃ l others, r.rest = l :: others := by
    cases rest : r.rest with
    | nil =>
      rw [rest] at start
      cases start
    | cons l others => exact ⟨l, others, rfl⟩
  rw [tokens, List.head?_cons, Option.map_some, Option.some_inj] at start
  subst start
  obtain ⟨ts, taken, holds⟩ := h _ { r with rest := r.rest.tail } b r' rfl run
  rw [tokens, List.tail_cons] at taken
  exact ⟨l.token :: ts, by rw [tokens, List.map_cons, taken, List.cons_append], holds⟩

theorem Takes.number {position : Position} {f : Node → Parse β}
    (h : ∀ node, (f node).Takes next post) : (number position >>= f).Takes next post :=
  fun r b r' start run => h _ { r with nextId := r.nextId + 1 } b r' start run

theorem Takes.accept {mark : Symbol} {yes no : Parse β}
    (found : ∀ next', yes.Takes next' fun b ts => post b (.symbol mark :: ts))
    (missing : no.Takes next post) :
    (accept mark >>= fun found => if found then yes else no).Takes next post := by
  rw [Parse.accept, bind_assoc]
  refine .peek ?_
  split
  · rename_i same
    rw [same, bind_assoc]
    exact .advance found
  · exact missing

theorem Takes.acceptWord {word : Keyword} {yes no : Parse β}
    (found : ∀ next', yes.Takes next' fun b ts => post b (.keyword word :: ts))
    (missing : no.Takes next post) :
    (acceptWord word >>= fun found => if found then yes else no).Takes next post := by
  rw [Parse.acceptWord, bind_assoc]
  refine .peek ?_
  split
  · rename_i same
    rw [same, bind_assoc]
    exact .advance found
  · exact missing

theorem Takes.isNext {mark : Symbol} {f : Bool → Parse β}
    (found : next = some (.symbol mark) → (f true).Takes next post)
    (missing : (f false).Takes next post) : (isNext mark >>= f).Takes next post := by
  rw [Parse.isNext, bind_assoc]
  refine .peek ?_
  rw [pure_bind]
  by_cases same : next = some (.symbol mark)
  · rw [decide_eq_true same]
    exact found same
  · rwa [decide_eq_false same]

theorem Takes.looking {mark : Symbol} {f : Bool → Parse β}
    (h : ∀ found, (f found).Takes next post) :
    (Parse.isNext mark >>= f).Takes next post := .isNext (fun _ => h true) (h false)

theorem Takes.expect {mark : Symbol} {wanted : String} {f : Unit → Parse β}
    (h : ∀ next', (f ()).Takes next' fun b ts => post b (.symbol mark :: ts)) :
    (expect mark wanted >>= f).Takes next post := by
  rw [Parse.expect, bind_assoc, Parse.accept, bind_assoc]
  refine .peek ?_
  split
  · rename_i same
    rw [same, bind_assoc]
    exact .advance h
  · rw [pure_bind, if_neg Bool.false_ne_true, bind_assoc]
    refine .peek ?_
    exact Takes.fail.bind (P := fun _ _ => False) fun _ _ no => no.elim

theorem Takes.expectName {f : String → Parse β}
    (h : ∀ name next', (f name).Takes next' fun b ts => post b (.name name :: ts)) :
    (expectName >>= f).Takes next post := by
  rw [Parse.expectName, bind_assoc]
  refine .peek ?_
  split
  · rw [bind_assoc]
    exact .advance (h _)
  · exact Takes.fail.bind (P := fun _ _ => False) fun _ _ no => no.elim

theorem Takes.operator {ω : Type} {class? : Token → Option ω} {f : Option ω → Parse β}
    (found : ∀ t op next', class? t = some op →
      (f (some op)).Takes next' fun b ts => post b (t :: ts))
    (missing : (f none).Takes next post) : (operator? class? >>= f).Takes next post := by
  rw [Parse.operator?, bind_assoc]
  refine .peek ?_
  split
  · rename_i op is_operator
    obtain ⟨t, rfl, own⟩ := Option.bind_eq_some_iff.mp is_operator
    rw [bind_assoc]
    exact .advance fun next' => found t op next' own
  · exact missing

end Rules
end LoopLang.Parse
