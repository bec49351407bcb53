import LoopLang.Proofs.Layout.Moving
import LoopLang.Proofs.Token.Order
import LoopLang.Proofs.Tree.Spelled

namespace LoopLang

namespace Lexemes

def placeOf (l : Lexemes) (number : Nat) : Position :=
  (l.list[number]?.map (·.position)).getD l.finish

/-- Puts the place of a token for its number. The number is the line of a position. -/
def locate (l : Lexemes) : Relocation := fun p => l.placeOf p.line

/-- Tokens that stand where their numbers say, and the end after the last of them. -/
def counted (ts : List Token) : Lexemes :=
  ⟨ts.mapIdx fun number t => ⟨t, ⟨number, 0⟩⟩, ⟨ts.length, 0⟩⟩

theorem counted_moved (l : Lexemes) : (counted l.tokens).moved l.locate = l := by
  obtain ⟨list, finish⟩ := l
  have places : (counted (list.map (·.token))).list.map (Lexeme.moved (locate ⟨list, finish⟩)) =
      list := by
    apply List.ext_getElem
    · simp [counted]
    · intro i _ inside
      simp [counted, Lexeme.moved, locate, placeOf, inside]
  have ends : locate ⟨list, finish⟩ (counted (list.map (·.token))).finish = finish := by
    simp [counted, locate, placeOf]
  rw [moved, tokens, places, ends]

end Lexemes

/-- Two results for two texts are the same result `r`, in which numbers of tokens stand for
    positions: each position of one belongs to the token with the same number as the corresponding
    position of the other. -/
def Corresponding {α : Type} (l l' : Lexemes) (move : Relocation → α → α) (x x' : α) : Prop :=
  ∃ r, x = move l.locate r ∧ x' = move l'.locate r

namespace Machine

theorem moved_initial (f : Relocation) : initial.moved f = initial := by
  rw [moved, initial, Array.map_empty]

end Machine

namespace Globals

theorem parse_counted {text : String} {l : Lexemes} (cut : Lexemes.ofSource text = .ok l) :
    parse text = carry (Error.moved l.locate) (Globals.moved l.locate)
      (ofLexemes (.counted l.tokens)) := by
  rw [parse, cut, ← ofLexemes_moved, Lexemes.counted_moved]

/-- Functions and structs are in the order of their positions: in whatever order they are kept,
    sorting them by their positions puts them in the order in which they are checked. -/
def InOrder (g : Globals) : Prop :=
  (∀ kept : List Function, kept.Perm g.functions →
      kept.insertionSort (fun a b => a.position ≤ b.position) = g.functions) ∧
    ∀ kept : List Struct, kept.Perm g.structs →
      kept.insertionSort (fun a b => a.position ≤ b.position) = g.structs

theorem inOrder_of_parse {text : String} {g : Globals} (h : parse text = .ok g) : g.InOrder := by
  rw [parse] at h
  split at h
  · cases h
  · rename_i l cut
    obtain ⟨ds, spelled, added⟩ := spells_of_parseOnto h
    have placed := spelled.positions (by dsimp only; omega)
    have ordered := (Lexemes.ordered cut).sublist placed
    obtain ⟨functions, structs⟩ := places_addAll added
    exact ⟨fun kept same => insertionSort_eq same (ordered.sublist functions),
      fun kept same => insertionSort_eq same (ordered.sublist structs)⟩

end Globals

namespace Program

theorem compile_counted {text : String} {l : Lexemes} (cut : Lexemes.ofSource text = .ok l) :
    compile text = carry (Error.moved l.locate) (Program.moved l.locate)
      (Globals.ofLexemes (.counted l.tokens) >>= check) :=
  carry_bind (Globals.parse_counted cut) fun g => check_moved g

/-- What is found out about two texts is the same up to positions, and those correspond. -/
structure SameResults (l l' : Lexemes) (text text' : String) : Prop where
  tree : Corresponding l l' (fun f => carry (Error.moved f) (Globals.moved f))
    (Globals.parse text) (Globals.parse text')
  program : Corresponding l l' (fun f => carry (Error.moved f) (Program.moved f))
    (compile text) (compile text')
  run (p p' : Program) : compile text = .ok p → compile text' = .ok p' → ∀ fuel,
    Corresponding l l' (fun f ended => (ended.1.moved f, ended.2.moved f))
      (p.runOn fuel Machine.initial) (p'.runOn fuel Machine.initial)
  order (g : Globals) : Globals.parse text = .ok g ∨ Globals.parse text' = .ok g → g.InOrder

theorem layout_irrelevant {text text' : String} {l l' : Lexemes}
    (cut : Lexemes.ofSource text = .ok l) (cut' : Lexemes.ofSource text' = .ok l')
    (same : l.tokens = l'.tokens) : SameResults l l' text text' := by
  have tree := Globals.parse_counted cut'
  have program := compile_counted cut'
  rw [← same] at tree program
  refine ⟨⟨_, Globals.parse_counted cut, tree⟩, ⟨_, compile_counted cut, program⟩, ?_, ?_⟩
  · intro p p' compiled compiled' fuel
    rw [compile_counted cut] at compiled
    rw [program] at compiled'
    cases checked : Globals.ofLexemes (.counted l.tokens) >>= check with
    | error e =>
      rw [checked] at compiled
      cases compiled
    | ok q =>
      rw [checked] at compiled compiled'
      cases compiled
      cases compiled'
      have ran (f : Relocation) := runOn_moved (f := f) q fuel .initial
      simp only [Machine.moved_initial] at ran
      exact ⟨q.runOn fuel .initial, ran _, ran _⟩
  · intro g parsed
    rcases parsed with parsed | parsed
    · exact Globals.inOrder_of_parse parsed
    · exact Globals.inOrder_of_parse parsed

def close : String := "main(){x:u8=1;print(x);assert(x==2);}"

def spread : String :=
  "main() \x7b\n  x: u8 = 1; // one\n  print(x);\n  assert /* never */ (x == 2);\n\x7d\n"

set_option maxRecDepth 100000 in
theorem close_spread : ∃ l l' p, Lexemes.ofSource close = .ok l ∧
    Lexemes.ofSource spread = .ok l' ∧ l.tokens = l'.tokens ∧ l.finish ≠ l'.finish ∧
    compile close = .ok p ∧ (p.runOn 60 .initial).2.lines.toList.map (·.text) = ["1"] ∧
    SameResults l l' close spread := by
  have facts : (Lexemes.ofSource close).toOption.any fun l =>
      (Lexemes.ofSource spread).toOption.any fun l' =>
        decide (l.tokens = l'.tokens ∧ l.finish ≠ l'.finish) := by decide +kernel
  have prints : (compile close).toOption.any fun p =>
      decide ((p.runOn 60 .initial).2.lines.toList.map (·.text) = ["1"]) := by decide +kernel
  obtain ⟨l, cut, others⟩ := exists_of_any facts
  obtain ⟨l', cut', both⟩ := exists_of_any others
  obtain ⟨same, apart⟩ := of_decide_eq_true both
  obtain ⟨p, compiled, printed⟩ := exists_of_any prints
  exact ⟨l, l', p, cut, cut', same, apart, compiled, of_decide_eq_true printed,
    layout_irrelevant cut cut' same⟩

end Program
end LoopLang
