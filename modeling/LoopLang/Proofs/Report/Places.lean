import LoopLang.Proofs.Execution.Outcome
import LoopLang.Proofs.Layout
import LoopLang.Proofs.Report.Offset
import LoopLang.Proofs.Token.Refused

namespace LoopLang

variable {source : String} {l : Lexemes} {f : Relocation}

theorem Lexer.Cut.place {text : List Char} {offset : Nat} {lexemes : List Lexeme}
    (cut : Lexer.Cut text offset lexemes) :
    ∀ x ∈ lexemes, ∃ start ≤ text.length, x.position = .ofOffset text start := by
  induction cut with
  | done => exact List.forall_mem_nil _
  | token _ some within _ _ _ _ ih =>
    exact List.forall_mem_cons.mpr ⟨⟨_, (some.trans_le within).le, rfl⟩, ih⟩

namespace Position

theorem Finds.ne_none {p : Position} {text : List Char} {k : Nat} (h : p.Finds text k) :
    p ≠ none := by
  obtain ⟨n, line⟩ := line_pos text k
  rw [h.place]
  intro same
  rw [same] at line
  cases line

end Position

namespace Lexemes

theorem placeOf_cases (l : Lexemes) (number : Nat) :
    (∃ x ∈ l.list, x.position = l.placeOf number) ∨ l.placeOf number = l.finish := by
  cases found : l.list[number]? with
  | none => exact .inr (by rw [placeOf, found]; rfl)
  | some x => exact .inl ⟨x, List.mem_of_getElem? found, by rw [placeOf, found]; rfl⟩

theorem finds_placeOf (cut : ofSource source = .ok l) (number : Nat) :
    ∃ k, (l.placeOf number).Finds source.toList k ∧
      (k = source.toList.length ∨ ∃ x ∈ l.list, x.position = l.placeOf number) := by
  obtain ⟨slices, finish⟩ : Lexer.Cut source.toList 0 l.list ∧
      l.finish = .ofOffset source.toList source.toList.length := Lexer.cut_of_lexemes [] cut
  rcases l.placeOf_cases number with ⟨x, member, same⟩ | last
  · obtain ⟨start, within, place⟩ := slices.place x member
    have found := Position.finds_ofOffset within
    rw [← place, same] at found
    exact ⟨start, found, .inr ⟨x, member, same⟩⟩
  · have found := Position.finds_ofOffset (Nat.le_refl source.toList.length)
    rw [← finish, ← last] at found
    exact ⟨_, found, .inl rfl⟩

theorem finds_refused {e : LexError} (refused : ofSource source = .error e) :
    ∃ k, e.position.Finds source.toList k := by
  obtain ⟨front, back, text, place⟩ := Lexer.lexemes_refused refused
  have within : front.length ≤ source.toList.length := by simp [text]
  have found := Position.finds_ofOffset within
  rw [text] at found ⊢
  rw [← Position.advance_start, ← place] at found
  exact ⟨_, found⟩

end Lexemes

namespace Error

@[simp] theorem position?_moved (e : Error) : (e.moved f).position? = e.position?.map f := by
  cases e with
  | runtime error => cases error <;> rfl
  | _ => rfl

@[simp] theorem function?_moved (e : Error) :
    (e.moved f).function? = e.function?.map (Enclosing.moved f) := by
  cases e <;> rfl

/-- What a text is refused with when it is read or checked, or what a run of its program fails
with, be it the first one or one after it. -/
inductive From (source : String) : Error → Prop
  | reading {e} : Globals.parse source = .error e → From source e
  | checking {e} : Program.compile source = .error e → From source e
  | running {p m fuel fault} : Program.compile source = .ok p → p.Resting m →
    (p.runOn fuel m).1 = .failed fault → From source fault.toError

end Error

namespace Program

theorem Resting.counted {p : Program} {m : Machine} (h : (p.moved f).Resting m) :
    ∃ m' : Machine, m = m'.moved f := by
  generalize same : p.moved f = q at h
  induction h with
  | initial => exact ⟨_, (Machine.moved_initial f).symm⟩
  | again fuel _ ih =>
    obtain ⟨m', rfl⟩ := ih
    rw [← same, runOn_moved]
    exact ⟨_, rfl⟩

end Program

namespace Error

theorem eq_moved_of_carry {α β : Type} {act : α → β} {x : Except Error α} {e : Error}
    (h : carry (Error.moved f) act x = .error e) : ∃ e' : Error, e = e'.moved f := by
  cases x with
  | error e' =>
    cases h
    exact ⟨e', rfl⟩
  | ok a => cases h

theorem From.counted {e : Error} (h : From source e) (cut : Lexemes.ofSource source = .ok l) :
    ∃ e' : Error, e = e'.moved l.locate := by
  cases h with
  | reading refused =>
    rw [Globals.parse_counted cut] at refused
    exact eq_moved_of_carry refused
  | checking refused =>
    rw [Program.compile_counted cut] at refused
    exact eq_moved_of_carry refused
  | @running p m fuel fault compiled resting failed =>
    rw [Program.compile_counted cut] at compiled
    cases checked : Globals.ofLexemes (.counted l.tokens) >>= Program.check with
    | error e =>
      rw [checked] at compiled
      cases compiled
    | ok q =>
      rw [checked] at compiled
      cases compiled
      obtain ⟨m', rfl⟩ := resting.counted
      rw [Program.runOn_moved] at failed
      cases ended : (q.runOn fuel m').1 with
      | failed fault' =>
        rw [ended] at failed
        cases failed
        exact ⟨fault'.toError, by cases fault' <;> rfl⟩
      | _ =>
        rw [ended] at failed
        cases failed

/-- A position that an error names: its own, or that of the function in which it was found. -/
def Names (e : Error) (position : Position) : Prop :=
  e.position? = some position ∨ ∃ function, e.function? = some function ∧
    function.position = position

theorem Names.placed {e : Error} {position : Position} (h : (e.moved l.locate).Names position) :
    ∃ number, position = l.placeOf number := by
  rcases h with own | ⟨function, named, rfl⟩
  · rw [position?_moved] at own
    obtain ⟨p, _, rfl⟩ := Option.map_eq_some_iff.mp own
    exact ⟨p.line, rfl⟩
  · rw [function?_moved] at named
    obtain ⟨inner, _, rfl⟩ := Option.map_eq_some_iff.mp named
    exact ⟨inner.position.line, rfl⟩

/-- Every position that an error names is that of an offset in the text, where a report finds it.
If the text can be cut into tokens, one of them begins there or the text ends. -/
theorem places_found (source : String) :
    (∀ e, Lexemes.ofSource source = .error e → ∃ k, e.position.Finds source.toList k) ∧
    ∀ e, From source e → ∀ position, e.Names position →
      position ≠ Position.none ∧ ∃ k, position.Finds source.toList k ∧
        ((∃ refused, Lexemes.ofSource source = .error refused ∧ e = .parse refused.toParse) ∨
          ∃ l, Lexemes.ofSource source = .ok l ∧
            (k = source.toList.length ∨ ∃ x ∈ l.list, x.position = position)) := by
  refine ⟨fun e refused => Lexemes.finds_refused refused, fun e reported position names => ?_⟩
  cases cut : Lexemes.ofSource source with
  | error refused =>
    have same : e = .parse refused.toParse := by
      cases reported with
      | reading failed =>
        rw [Globals.parse, cut] at failed
        cases failed
        rfl
      | checking failed =>
        rw [Program.compile, Globals.parse, cut] at failed
        cases failed
        rfl
      | running compiled =>
        rw [Program.compile, Globals.parse, cut] at compiled
        cases compiled
    subst same
    obtain ⟨k, found⟩ := Lexemes.finds_refused cut
    rcases names with own | ⟨function, none, _⟩
    · cases own
      exact ⟨found.ne_none, k, found, .inl ⟨refused, rfl, rfl⟩⟩
    · cases none
  | ok l =>
    obtain ⟨e', rfl⟩ := reported.counted cut
    obtain ⟨number, rfl⟩ := names.placed
    obtain ⟨k, found, begins⟩ := Lexemes.finds_placeOf cut number
    exact ⟨found.ne_none, k, found, .inr ⟨l, rfl, begins⟩⟩

def mistyped : String := "func main() \x7b\n\tsay: string = \"é→\"; n: u8 = \"é\";\n\x7d"

set_option maxRecDepth 100000 in
theorem mistyped_found : ∃ e position, From mistyped e ∧ e.Names position ∧
    position ≠ Position.none ∧ ∃ k, position.Finds mistyped.toList k := by
  have facts : failsWith (fun e => e.position?.any (·.line == 2)) (Program.compile mistyped) := by
    decide +kernel
  obtain ⟨e, refused, second⟩ := exists_of_failsWith facts
  obtain ⟨position, own, _⟩ := (Option.any_eq_true _ _).mp second
  obtain ⟨real, k, found, _⟩ := (places_found mistyped).2 e (.checking refused) position (.inl own)
  exact ⟨e, position, .checking refused, .inl own, real, k, found⟩

end Error
end LoopLang
