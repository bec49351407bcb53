import Mathlib.Tactic.IntervalCases
import LoopLang.Proofs.Token.Slices

namespace LoopLang

namespace Lexer

inductive Separator : List Char → Prop
  | mk {c : Char} {trivia : List Char} (blank : c ∈ [' ', '\t', '\r', '\n'])
    (others : Trivia False trivia) : Separator (c :: trivia)

/-- A text that spells the tokens, with a separator between any two of them. -/
inductive Spelling : List Token → List Char → Prop
  | nil : Spelling [] []
  | last {t : Token} {slice : List Char} (spelled : t.Spelled slice) : Spelling [t] slice
  | cons {t t' : Token} {ts : List Token} {slice separator text : List Char}
    (spelled : t.Spelled slice) (apart : Separator separator) (others : Spelling (t' :: ts) text) :
    Spelling (t :: t' :: ts) (slice ++ separator ++ text)

/-- Where a token begins, there is no trivia. -/
structure Solid (c : Char) (cs : List Char) : Prop where
  blank : isBlank c = false
  comment : c = '/' → cs.head? ≠ some '/' ∧ cs.head? ≠ some '*'

def Parts (rest : List Char) : Prop := ∀ c ∈ rest.head?, isBlank c = true

section Trivia

variable {text rest : List Char}

theorem skip_solid {c : Char} {cs : List Char} (h : Solid c cs) (p : Position) :
    skip .blank (c :: cs) p = .ok ⟨c :: cs, p⟩ := by
  rw [skip, if_neg (by simp [h.blank])]
  · rintro tail rfl rfl
    exact (h.comment rfl).1 rfl
  · rintro tail rfl rfl
    exact (h.comment rfl).2 rfl

theorem skip_line (inside : '\n' ∉ text) (rest : List Char) (p : Position) :
    skip .lineComment (text ++ '\n' :: rest) p = skip .blank rest (p.advance (text ++ ['\n'])) := by
  induction text generalizing p with
  | nil => rfl
  | cons c text ih =>
    rw [List.mem_cons, not_or] at inside
    obtain ⟨other, inside⟩ := inside
    rw [List.cons_append, skip, if_neg (Ne.symm other), ih inside]
    rfl

theorem skip_block {opened : Position} (inside : ¬['*', '/'] <:+: text) (rest : List Char)
    (p : Position) :
    skip (.blockComment opened) (text ++ '*' :: '/' :: rest) p =
      skip .blank rest (p.advance (text ++ ['*', '/'])) := by
  induction text generalizing p with
  | nil => rfl
  | cons c text ih =>
    rw [List.infix_cons_iff, not_or] at inside
    rw [List.cons_append, skip, ih inside.2]
    · rfl
    · rintro tail rfl same
      cases text with
      | nil => cases same
      | cons d text =>
        cases same
        exact inside.1 ⟨text, rfl⟩

theorem skip_trivia (h : Trivia False text) (rest : List Char) (p : Position) :
    skip .blank (text ++ rest) p = skip .blank rest (p.advance text) := by
  induction h generalizing p with
  | nil => rfl
  | blank blank _ ih =>
    have blank := mem_blanks_iff.mp blank
    rw [List.cons_append, skip, if_pos blank, ih]
    · rfl
    · rintro tail rfl
      cases blank
    · rintro tail rfl
      cases blank
  | @line text rest inside _ ih =>
    rw [List.cons_append, List.cons_append, List.append_assoc, skip, List.cons_append,
      skip_line inside, ih, ← Position.advance_append, List.append_assoc]
    rfl
  | @block text rest inside _ ih =>
    rw [List.cons_append, List.cons_append, List.append_assoc, skip, List.cons_append,
      List.cons_append, skip_block inside, ih, ← Position.advance_append, List.append_assoc]
    rfl
  | unended never => exact never.elim

end Trivia

section Tokens

variable {slice rest : List Char}

theorem not_blank_of_part {c : Char} (h : isNamePart c = true) : isBlank c = false := by
  refine Bool.eq_false_iff.mpr fun blank => ?_
  have member := mem_blanks_iff.mpr blank
  simp only [List.mem_cons, List.not_mem_nil, or_false] at member
  rcases member with rfl | rfl | rfl | rfl <;> cases h

theorem isNamePart_of_digit {c : Char} (h : isDigit c = true) : isNamePart c = true := by
  rw [isNamePart, h, Bool.or_true]

theorem Parts.noPart (h : Parts rest) : ∀ c ∈ rest.head?, isNamePart c = false := by
  intro c member
  refine Bool.eq_false_iff.mpr fun part => ?_
  have blank := h c member
  rw [not_blank_of_part part] at blank
  cases blank

theorem Parts.noDigit (h : Parts rest) : ∀ c ∈ rest.head?, isDigit c = false := by
  intro c member
  refine Bool.eq_false_iff.mpr fun digit => ?_
  have part := h.noPart c member
  rw [isNamePart_of_digit digit] at part
  cases part

theorem span_append {keep : Char → Bool} (kept : ∀ c ∈ slice, keep c = true)
    (stops : ∀ c ∈ rest.head?, keep c = false) (p : Position) :
    span keep (slice ++ rest) p = (slice, ⟨rest, p.advance slice⟩) := by
  have none_taken : rest.takeWhile keep = [] ∧ rest.dropWhile keep = rest := by
    cases rest with
    | nil => exact ⟨rfl, rfl⟩
    | cons c rest =>
      have other : ¬keep c = true := Bool.eq_false_iff.mp (stops c rfl)
      exact ⟨List.takeWhile_cons_of_neg other, List.dropWhile_cons_of_neg other⟩
  rw [span_eq, List.takeWhile_append_of_pos kept, List.dropWhile_append_of_pos kept,
    none_taken.1, none_taken.2, List.append_nil]

theorem number_of_digits (decimal : IsDecimal slice) (fits : decimalValue slice < 2 ^ 127)
    (parts : Parts rest) (p : Position) :
    number (slice ++ rest) p = .ok (.integer (decimalValue slice), ⟨rest, p.advance slice⟩) := by
  have whole : number.integer p slice ⟨rest, p.advance slice⟩ =
      .ok (.integer (decimalValue slice), ⟨rest, p.advance slice⟩) := by
    rw [number.integer, digitsValue_eq, if_pos ((wide_contains_iff _).mpr fits)]
  simp only [number, span_append decimal.all parts.noDigit]
  split
  · have blank := parts '.' rfl
    cases blank
  · exact whole

theorem number_of_places {whole places : List Char} (left : IsDecimal whole)
    (right : IsDecimal places) (parts : Parts rest) (p : Position) :
    number (whole ++ '.' :: places ++ rest) p =
      .ok (.float (Float.ofScientific (decimalValue (whole ++ places)) true places.length),
        ⟨rest, p.advance (whole ++ '.' :: places)⟩) := by
  have point : ∀ c ∈ ('.' :: places ++ rest).head?, isDigit c = false := by
    rintro c ⟨⟩
    rfl
  rw [List.append_assoc]
  simp only [number, span_append left.all point]
  obtain ⟨d, others, rfl⟩ := List.exists_cons_of_ne_nil right.1
  simp only [List.cons_append]
  rw [if_pos (right.all d List.mem_cons_self), ← List.cons_append,
    span_append right.all parts.noDigit, digitsValue_eq, Position.advance_append]
  rfl

theorem word_of_name {text : String} (isName : IsName text.toList)
    (free : ∀ word : Keyword, word.spelling ≠ text) (parts : Parts rest) (p : Position) :
    word (text.toList ++ rest) p = (.name text, ⟨rest, p.advance text.toList⟩) := by
  rcases ofSpelling?_cases text with ⟨word, _, same⟩ | ⟨found, _⟩
  · exact absurd same (free word)
  · simp only [word, span_append isName.all parts.noPart, String.ofList_toList, found]

theorem word_of_keyword (word : Keyword) (parts : Parts rest) (p : Position) :
    Lexer.word (word.spelling.toList ++ rest) p =
      (.keyword word, ⟨rest, p.advance word.spelling.toList⟩) := by
  have found : Keyword.ofSpelling? word.spelling = some word := by cases word <;> rfl
  simp only [Lexer.word, span_append (isName_spelling word).all parts.noPart,
    String.ofList_toList, found]

theorem symbol?_of_spelling (mark : Symbol) (parts : Parts rest) :
    symbol? (mark.spelling.toList ++ rest) = some (mark, rest) := by
  have noEqual : ∀ tail, rest ≠ '=' :: tail := by
    rintro tail rfl
    have blank := parts '=' rfl
    cases blank
  cases mark
  case equal =>
    change symbol? ('=' :: rest) = _
    rw [symbol?]
    exact noEqual
  case bang =>
    change symbol? ('!' :: rest) = _
    rw [symbol?]
    exact noEqual
  case less =>
    change symbol? ('<' :: rest) = _
    rw [symbol?]
    exact noEqual
  case greater =>
    change symbol? ('>' :: rest) = _
    rw [symbol?]
    exact noEqual
  all_goals rfl

theorem isNamePart_of_start {c : Char} (h : isNameStart c = true) : isNamePart c = true := by
  rw [isNamePart, h, Bool.true_or]

theorem token_number {c : Char} (digit : isDigit c = true) (cs : List Char) (p : Position) :
    token c cs p = number (c :: cs) p := by
  have noQuote : c ≠ '"' ∧ c ≠ '\'' := by
    constructor <;> rintro rfl <;> cases digit
  rw [token, if_neg noQuote.1, if_neg noQuote.2, if_pos digit]

theorem token_word {c : Char} (start : isNameStart c = true) (cs : List Char) (p : Position) :
    token c cs p = .ok (word (c :: cs) p) := by
  have other : c ≠ '"' ∧ c ≠ '\'' := by
    constructor <;> rintro rfl <;> cases start
  have noDigit : ¬isDigit c = true := by
    intro digit
    have noUnderscore : c ≠ '_' := by rintro rfl; cases digit
    simp only [isDigit, isNameStart, Char.le_def] at digit start
    grind
  rw [token, if_neg other.1, if_neg other.2, if_neg noDigit, if_pos start]

theorem token_symbol (mark : Symbol) (parts : Parts rest) {c : Char} {cs : List Char}
    (text : mark.spelling.toList ++ rest = c :: cs) (p : Position) :
    token c cs p = .ok (.symbol mark, ⟨rest, p.advance mark.spelling.toList⟩) := by
  have found := symbol?_of_spelling mark parts
  rw [text] at found
  have other : c ≠ '"' ∧ c ≠ '\'' ∧ isNamePart c = false := by
    cases mark <;> cases text <;> decide
  obtain ⟨noString, noChar, noPart⟩ := other
  have noDigit : ¬isDigit c = true := fun digit => by
    rw [isNamePart_of_digit digit] at noPart
    cases noPart
  have noStart : ¬isNameStart c = true := fun start => by
    rw [isNamePart_of_start start] at noPart
    cases noPart
  rw [token, if_neg noString, if_neg noChar, if_neg noDigit, if_neg noStart, found]
  cases mark <;> rfl

theorem token_of_spelled {t : Token} (h : t.Spelled slice) (parts : Parts rest) {c : Char}
    {cs : List Char} (text : slice ++ rest = c :: cs) (p : Position) :
    token c cs p = .ok (t, ⟨rest, p.advance slice⟩) := by
  cases h with
  | integer decimal fits =>
    obtain ⟨d, digits, rfl⟩ := List.exists_cons_of_ne_nil decimal.1
    cases text
    rw [token_number (decimal.all _ List.mem_cons_self)]
    exact number_of_digits decimal fits parts p
  | @float whole places left right =>
    obtain ⟨d, digits, rfl⟩ := List.exists_cons_of_ne_nil left.1
    cases text
    rw [token_number (left.all _ List.mem_cons_self)]
    exact number_of_places left right parts p
  | @char value letters glyph =>
    rw [List.cons_append, List.append_assoc] at text
    cases text
    exact charBody_of_glyph glyph rest _ _
  | @string content letters glyphs =>
    rw [List.cons_append, List.append_assoc] at text
    cases text
    rw [token, if_pos rfl, List.singleton_append, stringBody_of_glyphs glyphs]
    simp [Except.map, String.ofList_toList, Position.advance_cons]
  | @name name isName free =>
    have read := word_of_name isName free parts p
    obtain ⟨first, others, letters, start, _⟩ := isName
    rw [letters, List.cons_append] at text read
    rw [letters]
    cases text
    rw [token_word ((isNameStart_iff _).mpr start), read]
  | keyword word =>
    have read := word_of_keyword word parts p
    obtain ⟨first, others, letters, start, _⟩ := isName_spelling word
    rw [letters, List.cons_append] at text read
    rw [letters]
    cases text
    rw [token_word ((isNameStart_iff _).mpr start), read]
  | symbol mark => exact token_symbol mark parts text p

theorem solid_of_spelled {t : Token} (h : t.Spelled slice) (parts : Parts rest) {c : Char}
    {cs : List Char} (text : slice ++ rest = c :: cs) : Solid c cs := by
  have of_part (part : isNamePart c = true) : Solid c cs := by
    refine ⟨not_blank_of_part part, ?_⟩
    rintro rfl
    cases part
  cases h with
  | integer decimal _ =>
    obtain ⟨d, digits, rfl⟩ := List.exists_cons_of_ne_nil decimal.1
    cases text
    exact of_part (isNamePart_of_digit (decimal.all _ List.mem_cons_self))
  | float left _ =>
    obtain ⟨d, digits, rfl⟩ := List.exists_cons_of_ne_nil left.1
    cases text
    exact of_part (isNamePart_of_digit (left.all _ List.mem_cons_self))
  | char | string =>
    cases text
    exact ⟨by decide, nofun⟩
  | name isName _ =>
    have all := isName.all
    obtain ⟨first, others, letters, _⟩ := isName
    rw [letters] at text all
    cases text
    exact of_part (all _ List.mem_cons_self)
  | keyword word =>
    have all := (isName_spelling word).all
    obtain ⟨first, others, letters, _⟩ := isName_spelling word
    rw [letters] at text all
    cases text
    exact of_part (all _ List.mem_cons_self)
  | symbol mark =>
    have noComment (after : c = '/') : cs = rest := by
      cases mark <;> cases text <;> first | rfl | cases after
    refine ⟨by cases mark <;> cases text <;> rfl, fun slash => ?_⟩
    rw [noComment slash]
    constructor <;> intro first <;> cases parts _ first

end Tokens

section Texts

variable {text trivia : List Char} {p : Position}

theorem lexemes_nil (p : Position) : lexemes [] p = .ok ⟨[], p⟩ := by
  rw [lexemes]
  rfl

theorem lexemes_cons {cs rest : List Char} {q : Position} {c : Char} {t : Token} {after : Cursor}
    (skipped : skip .blank cs p = .ok ⟨c :: rest, q⟩) (cut : token c rest q = .ok (t, after)) :
    lexemes cs p = (lexemes after.rest after.position).map fun l =>
      ⟨⟨t, q⟩ :: l.list, l.finish⟩ := by
  rw [lexemes]
  split
  · rename_i failed
    rw [skipped] at failed
    cases failed
  · rename_i none_left
    rw [skipped] at none_left
    cases none_left
  · rename_i skipped'
    rw [skipped] at skipped'
    cases skipped'
    split
    · rename_i failed
      rw [cut] at failed
      cases failed
    · rename_i cut'
      rw [cut] at cut'
      cases cut'
      rfl

theorem lexemes_step {cs rest : List Char} {q : Position} {c : Char} {t : Token} {after : Cursor}
    {l : Lexemes} (skipped : skip .blank cs p = .ok ⟨c :: rest, q⟩)
    (cut : token c rest q = .ok (t, after))
    (others : lexemes after.rest after.position = .ok l) :
    lexemes cs p = .ok ⟨⟨t, q⟩ :: l.list, l.finish⟩ := by
  rw [lexemes_cons skipped cut, others]
  rfl

theorem lexemes_token {t : Token} {slice rest : List Char} {l : Lexemes} (spelled : t.Spelled slice)
    (before : Trivia False trivia) (parts : Parts rest)
    (others : lexemes rest ((p.advance trivia).advance slice) = .ok l) :
    lexemes (trivia ++ (slice ++ rest)) p = .ok ⟨⟨t, p.advance trivia⟩ :: l.list, l.finish⟩ := by
  obtain ⟨c, cs, text⟩ := List.exists_cons_of_ne_nil
    (List.append_ne_nil_of_left_ne_nil spelled.ne_nil rest)
  rw [text]
  have skipped := (skip_trivia before (c :: cs) p).trans
    (skip_solid (solid_of_spelled spelled parts text) (p.advance trivia))
  exact lexemes_step skipped (token_of_spelled spelled parts text _) others

theorem lexemes_of_spelling {ts : List Token} (h : Spelling ts text)
    (before : Trivia False trivia) (some : ts ≠ []) (p : Position) :
    ∃ l, lexemes (trivia ++ text) p = .ok l ∧ l.tokens = ts := by
  induction h generalizing trivia p with
  | nil => exact absurd rfl some
  | @last t slice spelled =>
    rw [← List.append_nil slice]
    exact ⟨_, lexemes_token spelled before nofun (lexemes_nil _), rfl⟩
  | @cons t t' ts slice separator text spelled apart others ih =>
    obtain @⟨c, between, blank, after⟩ := apart
    obtain ⟨l, done, same⟩ := ih (.blank blank after) (List.cons_ne_nil _ _)
      ((p.advance trivia).advance slice)
    have parts : Parts (c :: between ++ text) := by
      rintro c ⟨⟩
      exact mem_blanks_iff.mp blank
    rw [List.append_assoc]
    exact ⟨_, lexemes_token spelled before parts done, congrArg (t :: ·) same⟩

end Texts

section Existence

theorem exists_glyph (quote c : Char) : ∃ letters, Glyph quote c letters := by
  by_cases own : c = quote
  · subst own
    exact ⟨_, .escaped .own⟩
  · by_cases backslash : c = '\\'
    · subst backslash
      exact ⟨_, .escaped .backslash⟩
    · by_cases feed : c = '\n'
      · subst feed
        exact ⟨_, .escaped .newline⟩
      · exact ⟨_, .plain own backslash fun _ => feed⟩

theorem exists_glyphs (quote : Char) (content : List Char) :
    ∃ letters, List.Forall₂ (Glyph quote) content letters := by
  induction content with
  | nil => exact ⟨[], .nil⟩
  | cons c content ih =>
    obtain ⟨letters, glyphs⟩ := ih
    obtain ⟨first, glyph⟩ := exists_glyph quote c
    exact ⟨first :: letters, .cons glyph glyphs⟩

theorem exists_decimal (n : Nat) : ∃ digits, IsDecimal digits ∧ decimalValue digits = n := by
  by_cases zero : n = 0
  · exact ⟨['0'], ⟨by simp, by simp⟩, zero.symm⟩
  · have digit {d : Nat} (member : d ∈ Nat.digits 10 n) :
        d.digitChar.isDigit = true ∧ d.digitChar.toNat - '0'.toNat = d := by
      have small := Nat.digits_lt_base (by decide) member
      interval_cases d <;> decide
    refine ⟨(Nat.digits 10 n).reverse.map Nat.digitChar, ⟨?_, ?_⟩, ?_⟩
    · simpa using Nat.digits_ne_nil_iff_ne_zero.mpr zero
    · intro c member
      obtain ⟨d, inside, rfl⟩ := List.mem_map.mp member
      exact (digit (List.mem_reverse.mp inside)).1
    · have same : (Nat.digits 10 n).map ((fun d => d.toNat - '0'.toNat) ∘ Nat.digitChar) =
          Nat.digits 10 n := by
        refine (List.map_congr_left fun d member => ?_).trans (List.map_id _)
        exact (digit member).2
      rw [decimalValue, ← List.map_reverse, List.reverse_reverse, List.map_map, same,
        Nat.ofDigits_digits]

end Existence

end Lexer

namespace Token

open Lexer

/-- A token that is no float, with a value that a text can have. -/
def Plain : Token → Prop
  | integer value => value < 2 ^ 127
  | float _ => False
  | name text => IsName text.toList ∧ ∀ word : Keyword, word.spelling ≠ text
  | char _ | string _ | keyword _ | symbol _ => True

theorem exists_spelled {t : Token} (h : t.Plain) : ∃ slice, t.Spelled slice := by
  cases t with
  | integer value =>
    obtain ⟨digits, decimal, rfl⟩ := exists_decimal value
    exact ⟨digits, .integer decimal h⟩
  | float value => exact h.elim
  | char value =>
    obtain ⟨letters, glyph⟩ := exists_glyph '\'' value
    exact ⟨_, .char glyph⟩
  | string value =>
    obtain ⟨letters, glyphs⟩ := exists_glyphs '"' value.toList
    exact ⟨_, .string glyphs⟩
  | name text => exact ⟨_, .name h.1 h.2⟩
  | keyword word => exact ⟨_, .keyword word⟩
  | symbol mark => exact ⟨_, .symbol mark⟩

end Token

namespace Lexer

theorem exists_spelling {ts : List Token} (plain : ∀ t ∈ ts, t.Plain) :
    ∃ text, Spelling ts text := by
  induction ts with
  | nil => exact ⟨[], .nil⟩
  | cons t ts ih =>
    obtain ⟨first, others⟩ := List.forall_mem_cons.mp plain
    obtain ⟨slice, spelled⟩ := Token.exists_spelled first
    obtain ⟨text, spelling⟩ := ih others
    cases ts with
    | nil => exact ⟨slice, .last spelled⟩
    | cons t' ts => exact ⟨_, .cons spelled (.mk (c := ' ') (by simp) .nil) spelling⟩

end Lexer

namespace Lexemes

/-- Plain tokens can be spelled, and every text that spells them, with whatever trivia after the
    blanks between them, is cut into just these tokens. -/
theorem source_of_spelling {ts : List Token} (plain : ∀ t ∈ ts, t.Plain) :
    (∃ text, Lexer.Spelling ts text) ∧ ∀ text, Lexer.Spelling ts text →
      ∃ l, ofSource (String.ofList text) = .ok l ∧ l.tokens = ts := by
  refine ⟨Lexer.exists_spelling plain, fun text spelling => ?_⟩
  rw [ofSource, String.toList_ofList]
  cases ts with
  | nil =>
    cases spelling
    exact ⟨_, Lexer.lexemes_nil _, rfl⟩
  | cons t ts => exact Lexer.lexemes_of_spelling spelling .nil (List.cons_ne_nil _ _) .start

/-- A keyword and a name that begins with it, the largest number, marks that would join with each
    other or open a comment, and texts with quotes, ends of lines and comments in them. -/
def joining : List Token :=
  [.keyword .if_, .name "if_1", .integer (2 ^ 127 - 1), .symbol .less, .symbol .equal,
    .symbol .slash, .symbol .slash, .symbol .star, .string "/* \"\n//", .char '\'', .char '\n']

theorem joining_again : (∀ t ∈ joining, t.Plain) ∧ (∃ text, Lexer.Spelling joining text) ∧
    ∀ text, Lexer.Spelling joining text →
      ∃ l, ofSource (String.ofList text) = .ok l ∧ l.tokens = joining := by
  have plain : ∀ t ∈ joining, t.Plain := by
    have isName : Lexer.IsName "if_1".toList := Lexer.isName_of_all rfl rfl
    have free (word : Keyword) : word.spelling ≠ "if_1" := by cases word <;> decide
    simpa [joining, Token.Plain] using ⟨isName, free⟩
  exact ⟨plain, source_of_spelling plain⟩

end Lexemes
end LoopLang
