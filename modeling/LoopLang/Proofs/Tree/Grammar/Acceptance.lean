import LoopLang.Proofs.Tree.Grammar.Adjacency
import LoopLang.Proofs.Tree.Grammar.Entities
import LoopLang.Proofs.Tree.Grammar.Recognition

namespace LoopLang

open Grammar (Derives Derivable Repeated Kind accepted documented)

theorem Reader.exists_read {fuel : Nat} {ts ts' : List Token} {names : List (Kind × String)}
    (h : Parse.Recognizes Definition.parse Parse.anything (·.names = names) ts) {r : Reader}
    (tokens : r.rest.map (·.token) = ts ++ ts') (enough : 10 * r.rest.length + 1 ≤ fuel) :
    ∃ d r', Definition.parse fuel r = .ok (d, r') ∧ d.names = names ∧
      r'.rest.map (·.token) = ts' ∧ r'.rest.length < r.rest.length := by
  have reads : (Definition.parse fuel).Reads (ts ++ ts') r.nextId _ := h trivial
  have now := reads r tokens rfl
  -- Reading may fail for its bound alone, which so much fuel does not let it reach.
  have progress := Definition.parse_leaves enough r rfl
  cases read : Definition.parse fuel r with
  | error e =>
    rw [read] at now progress
    exact absurd now progress
  | ok pair =>
    rw [read] at now progress
    exact ⟨pair.1, pair.2, rfl, now.1, now.2, progress.2⟩

theorem Reader.spells_of_repeated {fuel : Nat} {ts : List Token} {names : List (Kind × String)}
    (h : Repeated (fun ts names =>
      Parse.Recognizes Definition.parse Parse.anything (·.names = names) ts) ts names)
    {r : Reader} (tokens : r.rest.map (·.token) = ts) (enough : 10 * r.rest.length + 1 ≤ fuel) :
    ∃ ds, r.Spells fuel ds ∧ ds.flatMap Definition.names = names := by
  induction h generalizing r with
  | nil => exact ⟨[], .nil (List.map_eq_nil_iff.mp tokens), rfl⟩
  | cons first others ih =>
    obtain ⟨d, r', read, named, tokens_left, fewer⟩ := exists_read first tokens enough
    obtain ⟨ds, spelled, rest_named⟩ := ih tokens_left (by omega)
    refine ⟨d :: ds, .cons read spelled, ?_⟩
    rw [List.flatMap_cons, named, rest_named]

theorem Reader.Spells.unique {fuel : Nat} {r : Reader} {ds ds' : List Definition}
    (h : r.Spells fuel ds) (h' : r.Spells fuel ds') (enough : 10 * r.rest.length + 1 ≤ fuel) :
    ds = ds' := by
  have reads_none {r r' : Reader} {d : Definition} (nothing_left : r.rest = [])
      (enough : 10 * r.rest.length + 1 ≤ fuel) : Definition.parse fuel r ≠ .ok (d, r') := by
    intro read
    have progress := Definition.parse_leaves enough r rfl
    rw [read, nothing_left] at progress
    cases progress.2
  induction h generalizing ds' with
  | nil nothing_left =>
    cases h' with
    | nil => rfl
    | cons read _ => exact absurd read (reads_none nothing_left enough)
  | @cons r r1 d ds read others ih =>
    have progress := Definition.parse_leaves enough r rfl
    rw [read] at progress
    cases h' with
    | nil nothing_left => exact absurd read (reads_none nothing_left enough)
    | cons read' others' =>
      rw [read] at read'
      cases read'
      rw [ih others' (by omega)]

def Lexemes.bare (ts : List Token) : List Lexeme := ts.map (⟨·, .none⟩)

theorem Lexemes.bare_tokens (ts : List Token) : (bare ts).map (·.token) = ts := by
  rw [bare, List.map_map]
  exact List.map_id _

namespace Globals

/-- The parser accepts a sequence of tokens if and only if the grammar derives a program from it
    that defines no name twice. -/
theorem accepted_iff_derivable (l : Lexemes) :
    (∃ g, ofLexemes l = .ok g) ↔ Derivable accepted l.tokens := by
  constructor
  · rintro ⟨g, read⟩
    obtain ⟨ds, spelled, added⟩ := spells_of_parseOnto read
    refine ⟨_, spelled.derives, ?_⟩
    rw [Definition.entities_names]
    exact (addAll_iff.mp ⟨g, added⟩).2
  · rintro ⟨names, derived, distinct⟩
    have enough : 10 * l.list.length + 1 ≤ 10 * (l.list.length + 1) := by omega
    obtain ⟨ds, spelled, rfl⟩ := Reader.spells_of_repeated (r := ⟨l.list, l.finish, 0⟩)
      (derived.means Parse.recognized) rfl enough
    rw [Definition.entities_names] at distinct
    obtain ⟨g, added⟩ := (addAll_iff (g := empty)).mpr ⟨fun d _ => List.not_mem_nil, distinct⟩
    exact ⟨g, parseOnto_of_spells spelled added enough (spelled.length_le enough)⟩

end Globals

namespace Grammar

variable {ts : List Token}

theorem documented_primary (h : Derives documented (.rule .primary) ts []) :
    Derives documented (.rule .expr) ts [] := by
  have product : Derives documented (.rule .product) (ts ++ []) [] :=
    .rule (Derives.join (.rule (.right h)) .nil)
  rw [List.append_nil] at product
  have sum : Derives documented (.rule .sum) (ts ++ []) [] := .rule (product.join .nil)
  rw [List.append_nil] at sum
  have expr : Derives documented (.rule .expr) (ts ++ []) [] := .rule (sum.join .none)
  rwa [List.append_nil] at expr

theorem documented_member (name type : String) :
    Derives documented (.member >> .optional (.mark .comma))
      [.name name, .symbol .colon, .name type] [(.part, name)] := by
  have typed : Derives documented (.rule .type) [.name type] [] := .rule (.left .name)
  exact .seq (Derives.defined.seq (typed.join .none).mark_then) .none

theorem documented_field (name : String) (value : Nat) :
    Derives documented (.field >> .optional (.mark .comma))
      [.name name, .symbol .colon, .integer value] [] := by
  have given : Derives documented (.rule .expr) [.integer value] [] :=
    documented_primary (.rule (.left (.terminal trivial)))
  exact .seq given.mark_then.name_then .none

theorem documented_struct : Derivable documented
    [.keyword .struct, .name "P", .symbol .leftBrace, .name "x", .symbol .colon, .name "i32",
      .name "y", .symbol .colon, .name "i32", .symbol .rightBrace] := by
  have members := (documented_member "x" "i32").cons ((documented_member "y" "i32").cons .nil)
  have struct : Derives documented (.rule .struct) _ _ :=
    .rule (.word_then (.seq (.defined (s := "P")) (.between (.rule members))))
  exact ⟨_, .rule (.cons (.left struct) .nil), by decide⟩

theorem documented_enum : Derivable documented
    [.keyword .enum, .name "E", .symbol .leftBrace, .name "A", .name "B",
      .symbol .rightBrace] := by
  have entry (name : String) : Derives documented (.defined .part >> .optional (.mark .comma))
      [.name name] [(.part, name)] := .seq .defined .none
  have entries := (entry "A").cons ((entry "B").cons .nil)
  have enum : Derives documented (.rule .enum) _ _ :=
    .rule (.word_then (.seq (.defined (s := "E")) (.between (.rule entries))))
  exact ⟨_, .rule (.cons (.right (.left enum)) .nil), by decide⟩

theorem documented_build : Derivable documented
    [.name "f", .symbol .leftParen, .symbol .rightParen, .symbol .leftBrace, .keyword .return_,
      .name "P", .symbol .leftBrace, .name "x", .symbol .colon, .integer 1, .name "y",
      .symbol .colon, .integer 2, .symbol .rightBrace, .symbol .semicolon,
      .symbol .rightBrace] := by
  have fields := (documented_field "x" 1).cons ((documented_field "y" 2).cons .nil)
  have build : Derives documented (.rule .primary) _ [] :=
    .rule (.right (.right (.right (.right (.right (.right (.right (.right (.left
      (Derives.name_then (s := "P") (.between (.rule fields))))))))))))
  have returned : Derives documented (.rule .statement) _ [] :=
    .rule (.right (.right (.right (.right (.left
      (.word_then (.join (.some (documented_primary build)) .mark)))))))
  have block : Derives documented (.rule .block) _ [] := .rule (.between (returned.cons .nil))
  have function : Derives documented (.rule .function) _ [(.function, "f")] :=
    .rule (.join .none (.seq (.defined (s := "f")) (.between_then .none (.join .none block))))
  exact ⟨_, .rule (.cons (.right (.right function)) .nil), by decide⟩

end Grammar

namespace Globals

def uncommaed : List String :=
  ["struct P \x7b x: i32 y: i32 \x7d", "enum E \x7b A B \x7d",
    "f() \x7b return P \x7b x: 1 y: 2 \x7d; \x7d"]

def enclosed : List String := ["f() \x7b (x) = 1; \x7d", "f() \x7b (g()); \x7d"]

theorem refused {text : String} {ts : List Token} (derived : Grammar.Derivable documented ts)
    (facts : (Lexemes.ofSource text).toOption.any fun l =>
      l.tokens == ts && (ofLexemes l).toOption.isNone) :
    ∃ l, Lexemes.ofSource text = .ok l ∧ Derivable documented l.tokens ∧
      ¬ ∃ g, ofLexemes l = .ok g := by
  cases cut : Lexemes.ofSource text with
  | error e =>
    rw [cut] at facts
    cases facts
  | ok l =>
    rw [cut] at facts
    obtain ⟨tokens, refused⟩ := Bool.and_eq_true_iff.mp facts
    refine ⟨l, rfl, eq_of_beq tokens ▸ derived, ?_⟩
    rintro ⟨g, read⟩
    rw [read] at refused
    cases refused

theorem taken {text : String} (facts : (Lexemes.ofSource text).toOption.any fun l =>
      !decide (Grammar.Apart .leftBrace .leftParen l.tokens) && (ofLexemes l).toOption.isSome) :
    ∃ l, Lexemes.ofSource text = .ok l ∧ ¬ Derivable documented l.tokens ∧
      ∃ g, ofLexemes l = .ok g := by
  cases cut : Lexemes.ofSource text with
  | error e =>
    rw [cut] at facts
    cases facts
  | ok l =>
    rw [cut] at facts
    obtain ⟨together, read⟩ := Bool.and_eq_true_iff.mp facts
    refine ⟨l, rfl, ?_, ?_⟩
    · rintro ⟨names, derived, _⟩
      rw [decide_eq_true (Grammar.documented_apart derived)] at together
      cases together
    · cases parsed : ofLexemes l with
      | error e =>
        rw [parsed] at read
        cases read
      | ok g => exact ⟨g, rfl⟩

/-- The description has commas that may be missing where the parser wants them, and no parentheses
    where the parser reads them. -/
theorem documented_differs :
    (∀ text ∈ uncommaed, ∃ l, Lexemes.ofSource text = .ok l ∧ Derivable documented l.tokens ∧
      ¬ ∃ g, ofLexemes l = .ok g) ∧
    ∀ text ∈ enclosed, ∃ l, Lexemes.ofSource text = .ok l ∧ ¬ Derivable documented l.tokens ∧
      ∃ g, ofLexemes l = .ok g := by
  constructor
  · simp only [uncommaed, List.forall_mem_cons]
    refine ⟨refused Grammar.documented_struct (by decide +kernel),
      refused Grammar.documented_enum (by decide +kernel),
      refused Grammar.documented_build (by decide +kernel), List.forall_mem_nil _⟩
  · simp only [enclosed, List.forall_mem_cons]
    exact ⟨taken (by decide +kernel), taken (by decide +kernel), List.forall_mem_nil _⟩

end Globals
end LoopLang
