import LoopLang.Proofs.Tree.Printer
import LoopLang.Proofs.Tree.Reading
import LoopLang.Proofs.Tree.Unplaced

namespace LoopLang.Parse

/-- When the tokens `ts` are left and the next node has the number `n`, what is read, the tokens
    that are left then, and the number that is then the next one satisfy `post`, unless the bound
    of the reader is too low. -/
def Reads {α : Type} (x : Parse α) (ts : List Token) (n : NodeId)
    (post : α → List Token → NodeId → Prop) : Prop :=
  ∀ r : Reader, r.rest.map (·.token) = ts → r.nextId = n →
    match x r with
    | .ok (a, r') => post a (r'.rest.map (·.token)) r'.nextId
    | .error e => e.cause = .tooDeep

def Leaving {α : Type} (P : α → Prop) (ts : List Token) (n : NodeId) (a : α) (ts' : List Token)
    (n' : NodeId) : Prop :=
  P a ∧ ts' = ts ∧ n' = n

section Rules

variable {α β : Type} {ts : List Token} {n : NodeId} {post : β → List Token → NodeId → Prop}

theorem Reads.bind {x : Parse α} {f : α → Parse β} {P : α → List Token → NodeId → Prop}
    (first : x.Reads ts n P) (second : ∀ a ts' n', P a ts' n' → (f a).Reads ts' n' post) :
    (x >>= f).Reads ts n post := by
  intro r tokens next
  have now := first r tokens next
  change match x r >>= fun pair => f pair.1 pair.2 with
    | .ok (b, r') => post b (r'.rest.map (·.token)) r'.nextId
    | .error e => e.cause = .tooDeep
  cases read : x r with
  | error e =>
    rw [read] at now
    exact now
  | ok pair =>
    rw [read] at now
    exact second pair.1 _ _ now pair.2 rfl rfl

theorem Reads.then {x : Parse α} {f : α → Parse β} {P : α → Prop} {ts' : List Token} {n' : NodeId}
    (first : x.Reads ts n (Leaving P ts' n')) (second : ∀ a, P a → (f a).Reads ts' n' post) :
    (x >>= f).Reads ts n post := by
  refine first.bind fun a ts'' n'' ends => ?_
  obtain ⟨holds, rfl, rfl⟩ := ends
  exact second a holds

theorem Reads.pure {b : β} (h : post b ts n) : (pure b : Parse β).Reads ts n post := by
  intro r tokens next
  rw [← tokens, ← next] at h
  exact h

theorem Reads.done {P : β → Prop} {b : β} (h : P b) :
    (Pure.pure b : Parse β).Reads ts n (Leaving P ts n) := .pure ⟨h, rfl, rfl⟩

theorem Reads.map_then {γ : Type} {x : Parse α} {f : α → γ} {g : γ → Parse β} {P : α → Prop}
    {ts' : List Token} {n' : NodeId} (first : x.Reads ts n (Leaving P ts' n'))
    (second : ∀ a, P a → (g (f a)).Reads ts' n' post) : (f <$> x >>= g).Reads ts n post := by
  rw [map_eq_pure_bind, bind_assoc]
  refine first.then fun a holds => ?_
  rw [pure_bind]
  exact second a holds

theorem Reads.tooDeep : (fail .tooDeep : Parse β).Reads ts n post := fun _ _ _ => rfl

variable {mark : Symbol}

theorem Reads.here {f : Position → Parse β} (h : ∀ position, (f position).Reads ts n post) :
    (here >>= f).Reads ts n post := fun r tokens next => h _ r tokens next

theorem Reads.peek {f : Option Token → Parse β} (h : (f ts.head?).Reads ts n post) :
    (peek >>= f).Reads ts n post := by
  intro r tokens next
  have now := h r tokens next
  rw [← tokens, List.head?_map] at now
  exact now

theorem Reads.peekSecond {f : Option Token → Parse β} (h : (f ts[1]?).Reads ts n post) :
    (peekSecond >>= f).Reads ts n post := by
  intro r tokens next
  have now := h r tokens next
  rw [← tokens, List.getElem?_map] at now
  exact now

theorem Reads.advance {t : Token} {f : Unit → Parse β} (h : (f ()).Reads ts n post) :
    (advance >>= f).Reads (t :: ts) n post := by
  intro r tokens next
  refine h { r with rest := r.rest.tail } ?_ next
  rw [List.map_tail, tokens, List.tail_cons]

theorem Reads.number {position : Position} {f : Node → Parse β}
    (h : (f ⟨n, position⟩).Reads ts (n + 1) post) : (number position >>= f).Reads ts n post := by
  intro r tokens next
  have now := h { r with nextId := r.nextId + 1 } tokens (congrArg (· + 1) next)
  rw [← next] at now
  exact now

theorem Reads.accept {f : Bool → Parse β} (h : (f true).Reads ts n post) :
    (accept mark >>= f).Reads (.symbol mark :: ts) n post := by
  rw [Parse.accept, bind_assoc]
  refine .peek ?_
  rw [List.head?_cons, if_pos rfl, bind_assoc]
  refine .advance ?_
  rwa [pure_bind]

theorem Reads.notAccept {f : Bool → Parse β} (other : ts.head? ≠ some (.symbol mark))
    (h : (f false).Reads ts n post) : (Parse.accept mark >>= f).Reads ts n post := by
  rw [Parse.accept, bind_assoc]
  refine .peek ?_
  rwa [if_neg other, pure_bind]

theorem Reads.isNext {f : Bool → Parse β} (h : (f true).Reads (.symbol mark :: ts) n post) :
    (isNext mark >>= f).Reads (.symbol mark :: ts) n post := by
  rw [Parse.isNext, bind_assoc]
  refine .peek ?_
  rwa [List.head?_cons, pure_bind, decide_eq_true rfl]

theorem Reads.notNext {f : Bool → Parse β} (other : ts.head? ≠ some (.symbol mark))
    (h : (f false).Reads ts n post) : (Parse.isNext mark >>= f).Reads ts n post := by
  rw [Parse.isNext, bind_assoc]
  refine .peek ?_
  rwa [pure_bind, decide_eq_false other]

theorem Reads.takes {yes no : Parse β} (h : yes.Reads ts n post) :
    (Parse.accept mark >>= fun found => if found then yes else no).Reads (.symbol mark :: ts) n
      post := by
  refine .accept ?_
  rwa [if_pos rfl]

theorem Reads.lacks {yes no : Parse β} (other : ts.head? ≠ some (.symbol mark))
    (h : no.Reads ts n post) :
    (Parse.accept mark >>= fun found => if found then yes else no).Reads ts n post := by
  refine .notAccept other ?_
  rwa [if_neg Bool.false_ne_true]

theorem Reads.takesWord {word : Keyword} {yes no : Parse β} (h : yes.Reads ts n post) :
    (Parse.acceptWord word >>= fun found => if found then yes else no).Reads
      (.keyword word :: ts) n post := by
  rw [Parse.acceptWord, bind_assoc]
  refine .peek ?_
  rw [List.head?_cons, if_pos rfl, bind_assoc]
  refine .advance ?_
  rwa [pure_bind, if_pos rfl]

theorem Reads.lacksWord {word : Keyword} {yes no : Parse β}
    (other : ts.head? ≠ some (.keyword word)) (h : no.Reads ts n post) :
    (Parse.acceptWord word >>= fun found => if found then yes else no).Reads ts n post := by
  rw [Parse.acceptWord, bind_assoc]
  refine .peek ?_
  rwa [if_neg other, pure_bind, if_neg Bool.false_ne_true]

theorem Reads.sees {yes no : Parse β} (h : yes.Reads (.symbol mark :: ts) n post) :
    (Parse.isNext mark >>= fun found => if found then yes else no).Reads (.symbol mark :: ts) n
      post := by
  refine .isNext ?_
  rwa [if_pos rfl]

theorem Reads.misses {yes no : Parse β} (other : ts.head? ≠ some (.symbol mark))
    (h : no.Reads ts n post) :
    (Parse.isNext mark >>= fun found => if found then yes else no).Reads ts n post := by
  refine .notNext other ?_
  rwa [if_neg Bool.false_ne_true]

theorem Reads.expect {wanted : String} {f : Unit → Parse β} (h : (f ()).Reads ts n post) :
    (expect mark wanted >>= f).Reads (.symbol mark :: ts) n post := by
  rw [Parse.expect, bind_assoc]
  refine .accept ?_
  rwa [if_pos rfl, pure_bind]

theorem Reads.expectName {name : String} {f : String → Parse β} (h : (f name).Reads ts n post) :
    (expectName >>= f).Reads (.name name :: ts) n post := by
  rw [Parse.expectName, bind_assoc]
  refine .peek ?_
  rw [List.head?_cons, bind_assoc]
  refine .advance ?_
  rwa [pure_bind]

theorem Reads.operator {ω : Type} {class? : Token → Option ω} {t : Token} {op : ω}
    {f : Option ω → Parse β} (found : class? t = some op) (h : (f (some op)).Reads ts n post) :
    (operator? class? >>= f).Reads (t :: ts) n post := by
  rw [Parse.operator?, bind_assoc]
  refine .peek ?_
  rw [List.head?_cons, Option.bind_some, found, bind_assoc]
  refine .advance ?_
  rwa [pure_bind]

theorem Reads.noOperator {ω : Type} {class? : Token → Option ω} {f : Option ω → Parse β}
    (other : ts.head?.bind class? = none) (h : (f none).Reads ts n post) :
    (operator? class? >>= f).Reads ts n post := by
  rw [Parse.operator?, bind_assoc]
  refine .peek ?_
  rwa [other, pure_bind]

theorem Reads.type {type : Ty} {f : Ty → Parse β} (written : type.Written)
    (h : (f type).Reads ts n post) : (Parse.type >>= f).Reads (type.tokens ++ ts) n post := by
  rw [Parse.type, bind_assoc]
  cases type with
  | named name =>
    refine .notAccept (by simp [Ty.tokens]) ?_
    rw [if_neg Bool.false_ne_true, bind_assoc]
    refine .peek ?_
    rw [Ty.tokens, List.singleton_append, List.head?_cons, bind_assoc]
    refine .advance ?_
    rwa [pure_bind]
  | array element =>
    cases element with
    | named name =>
      refine .accept ?_
      rw [if_pos rfl, bind_assoc]
      refine .expectName ?_
      rw [bind_assoc]
      refine .expect ?_
      rwa [pure_bind]
    | _ => exact written.elim
  | _ => exact written.elim

end Rules

namespace Numbered

variable {first n id : NodeId} {front back : List NodeId}

theorem split (h : Numbered first (front ++ back) n) :
    ∃ middle, Numbered first front middle ∧ Numbered middle back n := by
  obtain ⟨le, equal⟩ := h
  obtain ⟨count, rfl⟩ := Nat.exists_eq_add_of_le le
  rw [Nat.add_sub_cancel_left] at equal
  have length : count = front.length + back.length := by
    simpa using (congrArg List.length equal).symm
  rw [length, ← List.range'_append_1] at equal
  obtain ⟨left, right⟩ := List.append_inj equal (by simp)
  refine ⟨first + front.length, ⟨Nat.le_add_right _ _, ?_⟩, ⟨?_, ?_⟩⟩
  · rwa [Nat.add_sub_cancel_left]
  · rw [length, ← Nat.add_assoc]
    exact Nat.le_add_right _ _
  · rwa [length, ← Nat.add_assoc, Nat.add_sub_cancel_left]

theorem of_nil (h : Numbered first [] n) : n = first := by
  obtain ⟨le, equal⟩ := h
  have length := congrArg List.length equal
  rw [List.length_range', List.length_nil] at length
  exact Nat.le_antisymm (Nat.le_of_sub_eq_zero length.symm) le

theorem of_cons (h : Numbered first (id :: back) n) : id = first ∧ Numbered (first + 1) back n := by
  obtain ⟨le, equal⟩ := h
  obtain ⟨count, rfl⟩ := Nat.exists_eq_add_of_le le
  rw [Nat.add_sub_cancel_left] at equal
  have length : count = back.length + 1 := by
    simpa using (congrArg List.length equal).symm
  rw [length, List.range'_succ] at equal
  obtain ⟨rfl, rest⟩ := List.cons_eq_cons.mp equal
  refine ⟨rfl, ?_, ?_⟩
  · rw [length, Nat.add_comm back.length, ← Nat.add_assoc]
    exact Nat.le_add_right _ _
  · rwa [length, Nat.add_comm back.length, ← Nat.add_assoc, Nat.add_sub_cancel_left]

theorem last (h : Numbered first (front ++ [id]) n) :
    Numbered first front id ∧ n = id + 1 := by
  obtain ⟨middle, parts, own⟩ := h.split
  obtain ⟨rfl, none_left⟩ := own.of_cons
  exact ⟨parts, none_left.of_nil⟩

end Numbered
end LoopLang.Parse
