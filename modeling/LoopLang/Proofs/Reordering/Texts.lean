import LoopLang.Proofs.Relabelling.Reading
import LoopLang.Proofs.Token.Joining
import LoopLang.Proofs.Tree.Grammar.Acceptance

namespace LoopLang

open Grammar (Derives Kind accepted)

namespace Grammar

abbrev Form.definition : Form := .rule .struct <|> .rule .enum <|> .rule .function

def Braced : Nonterminal → List Token → Prop
  | .struct, ts | .enum, ts | .function, ts | .block, ts => ts.getLast? = some .closingBrace
  | _, _ => True

theorem getLast?_of_between {P : Nonterminal → List Token → List (Kind × String) → Prop}
    {form : Form} {ts : List Token} {names : List (Kind × String)}
    (h : (Form.between .leftBrace .rightBrace form).Means P ts names) :
    ts.getLast? = some .closingBrace := by
  obtain ⟨inner, _, rfl⟩ := h.between
  rw [← List.cons_append, List.getLast?_concat]

theorem braced {n : Nonterminal} {ts : List Token} {names : List (Kind × String)}
    (h : (accepted n).Means (fun n ts _ => Braced n ts) ts names) : Braced n ts := by
  cases n with
  | struct | enum =>
    obtain ⟨_, ⟨_, _, inner, _, _, body, rfl, rfl⟩, rfl⟩ := h.word_then
    have last := getLast?_of_between body
    simp [Braced, List.getLast?_cons, last]
  | function =>
    obtain ⟨_, _, _, _, _, ⟨_, _, _, _, _, ⟨_, _, _, _, _, ⟨_, _, block, _, _, last, rfl, _⟩,
      rfl, _⟩, rfl, _⟩, rfl, _⟩ := h
    have ends : block.getLast? = some .closingBrace := last
    simp [Braced, List.getLast?_append, ends]
  | block => exact getLast?_of_between h
  | _ => trivial

theorem ends_with_brace {ts : List Token} {names : List (Kind × String)}
    (h : Derives accepted .definition ts names) : ∀ t ∈ ts.getLast?, t = .closingBrace := by
  have last : ts.getLast? = some .closingBrace := by
    rcases h.means (P := fun n ts _ => Braced n ts) (fun _ _ _ => braced) with h | h | h <;> exact h
  rw [last]
  exact fun t same => (Option.some.inj same).symm

end Grammar

namespace Lexemes

/-- The tokens of a text, and none of a text that is not cut into tokens. -/
def tokensOf (source : String) : List Token :=
  match ofSource source with
  | .ok l => l.tokens
  | .error _ => []

theorem tokensOf_eq {source : String} {l : Lexemes} (cut : ofSource source = .ok l) :
    tokensOf source = l.tokens := by
  rw [tokensOf, cut]

end Lexemes

open Lexemes (tokensOf)

/-- The text is a struct, an enum or a function as the grammar has it, and no comment is open at its
    end: a brace put there is a token. -/
def IsDefinition (text : String) : Prop :=
  ∃ l l' names, Lexemes.ofSource text = .ok l ∧ Derives accepted .definition l.tokens names ∧
    Lexemes.ofSource (text.push '}') = .ok l' ∧ l'.tokens = l.tokens ++ [.closingBrace]

namespace Lexer

theorem cutsInto_definition {text : String} (h : IsDefinition text) {back : List Char}
    {ts : List Token} (after : CutsInto back ts) :
    CutsInto (text.toList ++ back) (tokensOf text ++ ts) := by
  obtain ⟨l, l', names, cut, derived, marked, own⟩ := h
  rw [Lexemes.tokensOf_eq cut]
  rw [Lexemes.ofSource, String.toList_push] at marked
  exact cutsInto_append cut (Grammar.ends_with_brace derived) marked own after

theorem cutsInto_join {texts : List String} (valid : ∀ text ∈ texts, IsDefinition text) :
    CutsInto (String.join texts).toList (texts.flatMap tokensOf) := by
  induction texts with
  | nil => exact cutsInto_nil
  | cons text texts ih =>
    obtain ⟨first, others⟩ := List.forall_mem_cons.mp valid
    rw [String.toList_join, List.flatMap_cons, List.flatMap_cons, ← String.toList_join]
    exact cutsInto_definition first (ih others)

end Lexer

theorem Lexemes.tokensOf_join {texts : List String} (valid : ∀ text ∈ texts, IsDefinition text) :
    ∃ l, ofSource (String.join texts) = .ok l ∧ l.tokens = texts.flatMap tokensOf :=
  Lexer.cutsInto_join valid Position.start

def Relocation.nowhere : Relocation := fun _ => .none

def Definition.ReadFrom (fuel : Nat) (text : String) (d : Definition) : Prop :=
  ∃ r, Definition.parse fuel ⟨Lexemes.bare (tokensOf text), .none, 0⟩ = .ok (d, r) ∧ r.rest = [] ∧
    Parse.Numbered 0 d.ids r.nextId

theorem Reader.exists_definition {fuel : Nat} {ts : List Token} {names : List (Kind × String)}
    (derived : Derives accepted .definition ts names) {r : Reader}
    (tokens : r.rest.map (·.token) = ts) (enough : 10 * r.rest.length + 1 ≤ fuel) :
    ∃ d r', Definition.parse fuel r = .ok (d, r') ∧ r'.rest = [] := by
  have known : Parse.Recognizes Definition.parse Parse.anything (·.names = names) ts := by
    rcases derived.means Parse.recognized with h | h | h <;> exact h
  obtain ⟨d, r', read, _, none_left, _⟩ :=
    exists_read known (tokens.trans (List.append_nil ts).symm) enough
  exact ⟨d, r', read, List.map_eq_nil_iff.mp none_left⟩

theorem IsDefinition.exists_readFrom {text : String} (h : IsDefinition text) {fuel : Nat}
    (enough : 10 * (tokensOf text).length + 1 ≤ fuel) : ∃ d, Definition.ReadFrom fuel text d := by
  obtain ⟨l, _, names, cut, derived, _⟩ := h
  rw [← Lexemes.tokensOf_eq cut] at derived
  let start : Reader := ⟨Lexemes.bare (tokensOf text), .none, 0⟩
  have length : start.rest.length = (tokensOf text).length := List.length_map _
  have tokens : start.rest.map (·.token) = tokensOf text := Lexemes.bare_tokens _
  obtain ⟨d, r, read, none_left⟩ := Reader.exists_definition derived tokens (length ▸ enough)
  exact ⟨d, r, read, none_left, (Parse.definition_reads (.nil 0) _ d r rfl read).1⟩

namespace Lexemes

def isDefinition (l : Lexemes) : Bool :=
  (Definition.parse (10 * (l.list.length + 1)) ⟨l.list, l.finish, 0⟩).toOption.any
    fun read => read.2.rest.isEmpty

theorem isDefinition_iff (l : Lexemes) :
    l.isDefinition ↔ ∃ names, Derives accepted .definition l.tokens names := by
  constructor
  · intro reads
    obtain ⟨⟨d, r⟩, read, ended⟩ := exists_of_any reads
    obtain ⟨ts, taken, derived⟩ := Definition.parse_takes _ _ _ rfl read
    rw [List.isEmpty_iff.mp ended, List.map_nil, List.append_nil] at taken
    subst taken
    exact ⟨d.names, derived⟩
  · rintro ⟨names, derived⟩
    have enough : 10 * l.list.length + 1 ≤ 10 * (l.list.length + 1) := by omega
    obtain ⟨d, r, read, none_left⟩ :=
      Reader.exists_definition (r := ⟨l.list, l.finish, 0⟩) derived rfl enough
    rw [isDefinition, read]
    exact List.isEmpty_iff.mpr none_left

end Lexemes

theorem isDefinition_iff {text : String} : IsDefinition text ↔
    ((Lexemes.ofSource text).toOption.any fun l => l.isDefinition &&
      (Lexemes.ofSource (text.push '}')).toOption.any fun l' =>
        decide (l'.tokens = l.tokens ++ [.closingBrace])) = true := by
  constructor
  · rintro ⟨l, l', names, cut, derived, marked, own⟩
    rw [cut, marked]
    exact Bool.and_eq_true_iff.mpr ⟨l.isDefinition_iff.mpr ⟨names, derived⟩, decide_eq_true own⟩
  · intro facts
    obtain ⟨l, cut, both⟩ := exists_of_any facts
    obtain ⟨reads, marked⟩ := Bool.and_eq_true_iff.mp both
    obtain ⟨names, derived⟩ := l.isDefinition_iff.mp reads
    obtain ⟨l', cut', own⟩ := exists_of_any marked
    exact ⟨l, l', names, cut, derived, cut', of_decide_eq_true own⟩

instance (text : String) : Decidable (IsDefinition text) := decidable_of_iff' _ isDefinition_iff

end LoopLang
