import Mathlib.Data.List.Forall2
import Mathlib.Data.List.Infix
import LoopLang.Proofs.Token.Spelling

namespace LoopLang.Lexer

theorem span_eq (keep : Char → Bool) (cs : List Char) (p : Position) :
    span keep cs p =
      (cs.takeWhile keep, ⟨cs.dropWhile keep, p.advance (cs.takeWhile keep)⟩) := by
  induction cs generalizing p with
  | nil => rfl
  | cons c cs ih =>
    rw [span]
    cases kept : keep c with
    | true => simp [ih, kept, Position.advance_cons]
    | false => simp [kept, Position.advance_nil]

theorem mem_blanks_iff {c : Char} : c ∈ [' ', '\t', '\r', '\n'] ↔ isBlank c = true := by
  simp [isBlank, or_assoc]

theorem unescape?_eq_some_iff {quote letter c : Char} (isQuote : quote = '"' ∨ quote = '\'') :
    unescape? quote letter = some c ↔ Escape quote letter c := by
  constructor
  · intro h
    unfold unescape? at h
    split at h
    · cases h; exact .newline
    · cases h; exact .tab
    · cases h; exact .carriageReturn
    · cases h; exact .backslash
    · cases h; exact .nul
    · split at h
      · rename_i same
        cases h
        subst same
        exact .own
      · cases h
  · intro h
    cases h with
    | own => rcases isQuote with rfl | rfl <;> rfl
    | _ => rfl

namespace Trivia

variable {last last' : Prop} {c : Char} {cs rest : List Char}

theorem mono (h : Trivia last cs) (imp : last → last') : Trivia last' cs := by
  induction h with
  | nil => exact .nil
  | blank blank _ ih => exact .blank blank ih
  | line inside _ ih => exact .line inside ih
  | block inside _ ih => exact .block inside ih
  | unended atEnd inside => exact .unended (imp atEnd) inside

theorem line_cons (h : Trivia last ('/' :: '/' :: cs)) (inLine : c ≠ '\n') :
    Trivia last ('/' :: '/' :: c :: cs) := by
  generalize text : '/' :: '/' :: cs = whole at h
  cases h with
  | nil => cases text
  | blank blank _ =>
    cases text
    exact absurd blank (by decide)
  | @line inner rest inside others =>
    cases text
    exact @Trivia.line _ (c :: inner) _ (by simp [inLine.symm, inside]) others
  | block => cases text
  | unended atEnd inside =>
    cases text
    exact .unended atEnd (by simp [inLine.symm, inside])

theorem block_cons (h : Trivia last ('/' :: '*' :: cs))
    (isOpen : ¬(c = '*' ∧ cs.head? = some '/')) : Trivia last ('/' :: '*' :: c :: cs) := by
  generalize text : '/' :: '*' :: cs = whole at h
  cases h with
  | nil => cases text
  | blank blank _ =>
    cases text
    exact absurd blank (by decide)
  | line => cases text
  | @block inner rest inside others =>
    cases text
    refine @Trivia.block _ (c :: inner) _ ?_ others
    rw [List.infix_cons_iff]
    rintro (front | later)
    · obtain ⟨rfl, slash⟩ := List.cons_prefix_cons.mp front
      obtain ⟨tail, rfl⟩ := slash
      exact isOpen ⟨rfl, rfl⟩
    · exact inside later
  | unended => cases text

end Trivia

namespace Gap

def opening : Gap → List Char
  | blank => []
  | lineComment => ['/', '/']
  | blockComment _ => ['/', '*']

end Gap

theorem trivia_of_skip {gap : Gap} {cs : List Char} {p : Position} {after : Cursor}
    (h : skip gap cs p = .ok after) :
    ∃ passed, cs = passed ++ after.rest ∧ after.position = p.advance passed ∧
      Trivia (after.rest = []) (gap.opening ++ passed) := by
  fun_induction skip gap cs p with
  | case1 p => cases h; exact ⟨[], rfl, rfl, .nil⟩
  | case2 p cs ih | case3 p cs ih =>
    obtain ⟨passed, rfl, place, trivia⟩ := ih h
    exact ⟨_ :: _ :: passed, rfl, place, trivia⟩
  | case4 p c cs _ _ blank ih =>
    obtain ⟨passed, rfl, place, trivia⟩ := ih h
    exact ⟨_ :: passed, rfl, place, .blank (mem_blanks_iff.mpr blank) trivia⟩
  | case5 p c cs _ _ _ => cases h; exact ⟨[], rfl, rfl, .nil⟩
  | case6 p => cases h; exact ⟨[], rfl, rfl, .unended rfl List.not_mem_nil⟩
  | case7 p cs ih =>
    obtain ⟨passed, rfl, place, trivia⟩ := ih h
    exact ⟨'\n' :: passed, rfl, place, @Trivia.line _ [] _ List.not_mem_nil trivia⟩
  | case8 p c cs inLine ih =>
    obtain ⟨passed, rfl, place, trivia⟩ := ih h
    exact ⟨_ :: passed, rfl, place, trivia.line_cons inLine⟩
  | case9 => cases h
  | case10 opened cs p ih =>
    obtain ⟨passed, rfl, place, trivia⟩ := ih h
    exact ⟨'*' :: '/' :: passed, rfl, place, @Trivia.block _ [] _ (by simp) trivia⟩
  | case11 opened c cs p isOpen ih =>
    obtain ⟨passed, rfl, place, trivia⟩ := ih h
    refine ⟨_ :: passed, rfl, place, trivia.block_cons ?_⟩
    rintro ⟨star, slash⟩
    obtain ⟨tail, rfl⟩ := List.head?_eq_some_iff.mp slash
    exact isOpen _ star rfl

theorem glyphs_of_stringBody {opened p : Position} {cs : List Char} {read : List Char × Cursor}
    (h : stringBody opened cs p = .ok read) :
    ∃ letters, List.Forall₂ (Glyph '"') read.1 letters ∧
      cs = letters.flatten ++ '"' :: read.2.rest ∧
      read.2.position = p.advance (letters.flatten ++ ['"']) := by
  fun_induction stringBody opened cs p generalizing read with
  | case1 | case3 | case4 | case5 => simp at h
  | case2 => cases h; exact ⟨[], .nil, rfl, rfl⟩
  | case6 =>
    rename_i escape ih
    obtain ⟨_, done, rfl⟩ := of_map_ok h
    obtain ⟨letters, glyphs, rfl, place⟩ := ih done
    have glyph := (unescape?_eq_some_iff (.inl rfl)).mp escape
    exact ⟨_ :: letters, .cons (.escaped glyph) glyphs, rfl, place⟩
  | case7 _ _ _ noQuote noBreak _ noBackslash ih =>
    obtain ⟨_, done, rfl⟩ := of_map_ok h
    obtain ⟨letters, glyphs, rfl, place⟩ := ih done
    refine ⟨[_] :: letters, .cons (.plain ?_ ?_ ?_) glyphs, rfl, place⟩
    · exact noQuote
    · rintro rfl
      obtain ⟨e, tail, text⟩ := List.exists_cons_of_ne_nil (l := letters.flatten ++ '"' :: _)
        (by simp)
      exact noBackslash e tail rfl text
    · exact fun _ => noBreak

theorem stringBody_of_glyphs {content : List Char} {letters : List (List Char)}
    (h : List.Forall₂ (Glyph '"') content letters) (rest : List Char) (opened p : Position) :
    stringBody opened (letters.flatten ++ '"' :: rest) p =
      .ok (content, ⟨rest, p.advance (letters.flatten ++ ['"'])⟩) := by
  induction h generalizing p with
  | nil => rfl
  | cons glyph _ ih =>
    cases glyph with
    | plain noQuote noBackslash onLine =>
      rw [List.flatten_cons, List.singleton_append, List.cons_append, stringBody, ih]
      · rfl
      · exact noQuote
      · exact onLine rfl
      · exact fun same => absurd same noBackslash
      · exact fun _ _ same => absurd same noBackslash
    | escaped escape =>
      rw [List.flatten_cons, List.cons_append, List.cons_append, List.cons_append,
        List.cons_append, stringBody, (unescape?_eq_some_iff (.inl rfl)).mpr escape]
      simp only [List.nil_append, ih]
      rfl

theorem glyph_of_charBody {opened p : Position} {cs : List Char} {read : Token × Cursor}
    (h : charBody opened cs p = .ok read) :
    ∃ c letters, read.1 = .char c ∧ Glyph '\'' c letters ∧
      cs = letters ++ '\'' :: read.2.rest ∧
      read.2.position = p.advance (letters ++ ['\'']) := by
  have closes {c : Char} {cs : List Char} {p : Position} (h : closeChar c cs p = .ok read) :
      read.1 = .char c ∧ cs = '\'' :: read.2.rest ∧ read.2.position = p.step '\'' := by
    cases cs with
    | nil => cases h
    | cons d cs =>
      rw [closeChar] at h
      split at h
      · rename_i same
        cases h
        exact ⟨rfl, by rw [same], by rw [same]⟩
      · cases h
  unfold charBody at h
  split at h
  · cases h
  · cases h
  · cases h
  · split at h
    · cases h
    · rename_i escape
      obtain ⟨value, rfl, place⟩ := closes h
      have glyph := (unescape?_eq_some_iff (.inr rfl)).mp escape
      exact ⟨_, _, value, .escaped glyph, rfl, place⟩
  · rename_i noQuote _ noBackslash
    obtain ⟨value, rfl, place⟩ := closes h
    have glyph := Glyph.plain noQuote (fun same => noBackslash _ _ same rfl)
      fun other => absurd other (by decide)
    exact ⟨_, [_], value, glyph, rfl, place⟩

theorem charBody_of_glyph {c : Char} {letters : List Char} (h : Glyph '\'' c letters)
    (rest : List Char) (opened p : Position) :
    charBody opened (letters ++ '\'' :: rest) p =
      .ok (.char c, ⟨rest, p.advance (letters ++ ['\''])⟩) := by
  cases h with
  | plain noQuote noBackslash _ =>
    rw [List.singleton_append, charBody]
    · rfl
    · exact noQuote
    · exact fun same => absurd same noBackslash
    · exact fun _ _ same => absurd same noBackslash
  | escaped escape =>
    rw [List.cons_append, List.cons_append, charBody,
      (unescape?_eq_some_iff (.inr rfl)).mpr escape]
    rfl

end LoopLang.Lexer
