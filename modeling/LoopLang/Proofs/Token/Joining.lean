import LoopLang.Proofs.Token.Respelling
import LoopLang.Proofs.Token.Slices

namespace LoopLang

abbrev Token.closingBrace : Token := .symbol .rightBrace

namespace Lexer

/-- The text is cut into these tokens, wherever it stands. -/
def CutsInto (text : List Char) (ts : List Token) : Prop :=
  ∀ p, ∃ l, lexemes text p = .ok l ∧ l.tokens = ts

theorem cutsInto_nil : CutsInto [] [] := fun p => ⟨_, lexemes_nil p, rfl⟩

theorem skip_append {gap : Gap} (gap' : Gap) {cs rest : List Char} {c : Char} {p q : Position}
    (h : skip gap cs p = .ok ⟨c :: rest, q⟩) (brace : '}' ∈ c :: rest)
    (same : gap'.opening = gap.opening) (back : List Char) (p' : Position) :
    ∃ q', skip gap' (cs ++ back) p' = .ok ⟨c :: (rest ++ back), q'⟩ := by
  fun_induction skip gap cs p generalizing gap' p' with
  | case1 | case6 => cases h
  | case9 => cases h
  | case2 cs p ih =>
    cases gap' with
    | blank => exact ih .lineComment h rfl _
    | _ => cases same
  | case3 cs p ih =>
    cases gap' with
    | blank => exact ih (.blockComment p') h rfl _
    | _ => cases same
  | case4 d cs p noLine noBlock blank ih =>
    cases gap' with
    | blank =>
      obtain ⟨q', skipped⟩ := ih .blank h rfl (p'.step d)
      refine ⟨q', ?_⟩
      rw [List.cons_append, skip, if_pos blank, skipped]
      · rintro tail rfl
        cases blank
      · rintro tail rfl
        cases blank
    | _ => cases same
  | case5 d cs p noLine noBlock other =>
    cases gap' with
    | blank =>
      cases h
      refine ⟨p', ?_⟩
      have starts {e : Char} {tail : List Char} (slash : c = '/')
          (text : rest ++ back = e :: tail) : ∃ tail', rest = e :: tail' := by
        cases rest with
        | nil =>
          rw [slash] at brace
          cases brace with
          | tail _ within => cases within
        | cons e' tail' =>
          cases text
          exact ⟨tail', rfl⟩
      rw [List.cons_append, skip, if_neg other]
      · rintro tail rfl text
        obtain ⟨tail', rfl⟩ := starts rfl text
        exact noLine tail' rfl rfl
      · rintro tail rfl text
        obtain ⟨tail', rfl⟩ := starts rfl text
        exact noBlock tail' rfl rfl
    | _ => cases same
  | case7 cs p ih =>
    cases gap' with
    | lineComment =>
      obtain ⟨q', skipped⟩ := ih .blank h rfl (p'.step '\n')
      exact ⟨q', by rw [List.cons_append, skip, if_pos rfl, skipped]⟩
    | _ => cases same
  | case8 d cs p inLine ih =>
    cases gap' with
    | lineComment =>
      obtain ⟨q', skipped⟩ := ih .lineComment h rfl (p'.step d)
      exact ⟨q', by rw [List.cons_append, skip, if_neg inLine, skipped]⟩
    | _ => cases same
  | case10 opened cs p ih =>
    cases gap' with
    | blockComment => exact ih .blank h rfl _
    | _ => cases same
  | case11 opened d cs p noEnd ih =>
    cases gap' with
    | blockComment opened' =>
      obtain ⟨q', skipped⟩ := ih (.blockComment opened') h rfl (p'.step d)
      refine ⟨q', ?_⟩
      rw [List.cons_append, skip, skipped]
      rintro tail rfl text
      cases cs with
      | nil => cases h
      | cons e cs =>
        cases text
        exact noEnd cs rfl rfl
    | _ => cases same

theorem span_longer {keep : Char → Bool} {cs : List Char} (ends : cs.dropWhile keep ≠ [])
    (back : List Char) (p : Position) :
    span keep (cs ++ back) p =
      (cs.takeWhile keep, ⟨cs.dropWhile keep ++ back, p.advance (cs.takeWhile keep)⟩) := by
  have fewer : (cs.takeWhile keep).length ≠ cs.length := by
    intro all
    have split := congrArg List.length (List.takeWhile_append_dropWhile (p := keep) (l := cs))
    rw [List.length_append] at split
    exact ends (List.eq_nil_of_length_eq_zero (by omega))
  rw [span_eq, List.takeWhile_append, if_neg fewer, List.dropWhile_append,
    if_neg (by rwa [List.isEmpty_iff])]

theorem number_append {c : Char} {cs rest : List Char} {p q : Position} {t : Token}
    (h : number (c :: cs) p = .ok (t, ⟨rest, q⟩)) (brace : '}' ∈ rest) (back : List Char)
    (p' : Position) : ∃ q', number (c :: cs ++ back) p' = .ok (t, ⟨rest ++ back, q'⟩) := by
  simp only [number, span_eq] at h
  have integer (noPoint : ∀ d tail, (c :: cs).dropWhile isDigit = '.' :: d :: tail →
        isDigit d = false)
      (h : number.integer p ((c :: cs).takeWhile isDigit) ⟨(c :: cs).dropWhile isDigit,
        p.advance ((c :: cs).takeWhile isDigit)⟩ = .ok (t, ⟨rest, q⟩)) :
      ∃ q', number (c :: cs ++ back) p' = .ok (t, ⟨rest ++ back, q'⟩) := by
    obtain ⟨same, fits⟩ := number_integer_eq h
    cases same
    have whole (left : List Char) (place : Position) :
        number.integer p' ((c :: cs).takeWhile isDigit) ⟨left, place⟩ =
          .ok (.integer (decimalValue ((c :: cs).takeWhile isDigit)), ⟨left, place⟩) := by
      rw [number.integer, digitsValue_eq, if_pos ((wide_contains_iff _).mpr fits)]
    simp only [number, span_longer (List.ne_nil_of_mem brace)]
    generalize (c :: cs).dropWhile isDigit = left at brace noPoint
    split
    · rename_i d tail text
      rcases left with _ | ⟨point, _ | ⟨d', left⟩⟩
      · cases brace
      · cases brace with
        | head => cases text
        | tail _ within => cases within
      · cases text
        rw [if_neg (by rw [noPoint d _ rfl]; exact Bool.false_ne_true)]
        exact ⟨_, whole _ _⟩
    · exact ⟨_, whole _ _⟩
  split at h
  · rename_i d tail text
    split at h
    · rename_i digit
      cases h
      have more : (c :: cs).dropWhile isDigit ≠ [] := by
        rw [text]
        exact List.cons_ne_nil _ _
      simp only [number, span_longer more, text]
      simp only [List.cons_append, if_pos digit]
      rw [← List.cons_append, span_longer (List.ne_nil_of_mem brace)]
      exact ⟨_, rfl⟩
    · rename_i other
      refine integer (fun e tail' same => ?_) h
      rw [text] at same
      cases same
      simpa using other
  · rename_i noPoint
    exact integer (fun d tail same => absurd same (noPoint d tail)) h

theorem word_append {c : Char} {cs rest : List Char} {p q : Position} {t : Token}
    (h : word (c :: cs) p = (t, ⟨rest, q⟩)) (brace : '}' ∈ rest) (back : List Char)
    (p' : Position) : ∃ q', word (c :: cs ++ back) p' = (t, ⟨rest ++ back, q'⟩) := by
  simp only [word, span_eq] at h
  have left : (c :: cs).dropWhile isNamePart = rest := by
    split at h <;> cases h <;> rfl
  simp only [word, span_longer (left ▸ List.ne_nil_of_mem brace), left]
  split at h <;> cases h <;> exact ⟨_, rfl⟩

theorem symbol?_append {cs rest : List Char} {mark : Symbol} (h : symbol? cs = some (mark, rest))
    (settled : mark = .rightBrace ∨ '}' ∈ rest) (back : List Char) :
    symbol? (cs ++ back) = some (mark, rest ++ back) := by
  have split := spelling_of_symbol? h
  subst split
  have noEqual (single : ∀ tail, symbol? (mark.spelling.toList ++ '=' :: tail) ≠
        some (mark, '=' :: tail)) (other : mark ≠ .rightBrace) :
      ∀ tail, rest ++ back ≠ '=' :: tail := by
    intro tail text
    have brace := settled.resolve_left other
    cases rest with
    | nil => cases brace
    | cons d rest =>
      cases text
      exact single rest h
  cases mark
  case equal =>
    change symbol? ('=' :: (rest ++ back)) = _
    rw [symbol?]
    exact noEqual (fun tail same => by cases same) (by decide)
  case bang =>
    change symbol? ('!' :: (rest ++ back)) = _
    rw [symbol?]
    exact noEqual (fun tail same => by cases same) (by decide)
  case less =>
    change symbol? ('<' :: (rest ++ back)) = _
    rw [symbol?]
    exact noEqual (fun tail same => by cases same) (by decide)
  case greater =>
    change symbol? ('>' :: (rest ++ back)) = _
    rw [symbol?]
    exact noEqual (fun tail same => by cases same) (by decide)
  all_goals rfl

theorem brace_of_token {c : Char} {cs : List Char} {p : Position} {read : Token × Cursor}
    (h : token c cs p = .ok read) (same : read.1 = .closingBrace) :
    c = '}' ∧ cs = read.2.rest := by
  obtain ⟨slice, split, _, ends⟩ := token_ends h
  have spelled := ends.spelled
  rw [same] at spelled
  cases spelled
  cases split
  exact ⟨rfl, rfl⟩

theorem token_append {c : Char} {cs rest : List Char} {p q : Position} {t : Token}
    (h : token c cs p = .ok (t, ⟨rest, q⟩)) (settled : t = .closingBrace ∨ '}' ∈ rest)
    (back : List Char) (p' : Position) :
    ∃ q', token c (cs ++ back) p' = .ok (t, ⟨rest ++ back, q'⟩) := by
  have before (part : isNamePart c = true) : '}' ∈ rest := by
    refine settled.resolve_left fun same => ?_
    obtain ⟨rfl, _⟩ := brace_of_token h same
    cases part
  unfold token at h ⊢
  split at h
  · rename_i same
    obtain ⟨⟨content, after⟩, done, made⟩ := of_map_ok h
    obtain ⟨pieces, glyphs, rfl, place⟩ := glyphs_of_stringBody done
    cases made
    rw [if_pos same, List.append_assoc, List.cons_append, stringBody_of_glyphs glyphs]
    exact ⟨_, rfl⟩
  · rename_i noString
    rw [if_neg noString]
    split at h
    · rename_i same
      obtain ⟨value, letters, token, glyph, rfl, place⟩ := glyph_of_charBody h
      cases token
      rw [if_pos same, List.append_assoc, List.cons_append, charBody_of_glyph glyph]
      exact ⟨_, rfl⟩
    · rename_i noChar
      rw [if_neg noChar]
      split at h
      · rename_i digit
        rw [if_pos digit]
        exact number_append h (before (isNamePart_of_digit digit)) back p'
      · rename_i noDigit
        rw [if_neg noDigit]
        split at h
        · rename_i start
          rw [if_pos start]
          obtain ⟨q', read⟩ := word_append (Except.ok.inj h) (before (isNamePart_of_start start))
            back p'
          exact ⟨q', congrArg Except.ok read⟩
        · rename_i noWord
          rw [if_neg noWord]
          split at h
          · rename_i mark rest' found
            cases h
            have marked : mark = .rightBrace ∨ '}' ∈ rest :=
              settled.imp_left fun same => Token.symbol.inj same
            rw [← List.cons_append, symbol?_append found marked]
            exact ⟨_, rfl⟩
          · cases h

theorem brace_of_lexemes {cs : List Char} {p : Position} {l : Lexemes}
    (h : lexemes cs p = .ok l) (member : .closingBrace ∈ l.tokens) : '}' ∈ cs := by
  fun_induction lexemes cs p generalizing l with
  | case1 | case3 => cases h
  | case2 =>
    cases h
    cases member
  | case4 cs p c rest q skipped t after cut ih =>
    obtain ⟨later, done, rfl⟩ := of_map_ok h
    obtain ⟨passed, rfl, _, _⟩ := trivia_of_skip skipped
    refine List.mem_append_right _ ?_
    rcases List.mem_cons.mp member with own | others
    · obtain ⟨rfl, _⟩ := brace_of_token cut own.symm
      exact List.mem_cons_self
    · obtain ⟨slice, split, _, _⟩ := token_ends cut
      dsimp only at split ⊢
      rw [split]
      exact List.mem_append_right _ (ih done others)

/-- Trivia have ended but for a line comment at their end. -/
theorem Trivia.ended_or_open {last : Prop} {text : List Char} (h : Trivia last text) :
    Trivia False text ∨ ∃ ended comment, Trivia False ended ∧ '\n' ∉ comment ∧
      text = ended ++ '/' :: '/' :: comment := by
  induction h with
  | nil => exact .inl .nil
  | blank blank _ ih =>
    refine ih.imp (.blank blank) fun rest => ?_
    obtain ⟨ended, comment, closed, inside, rfl⟩ := rest
    exact ⟨_ :: ended, comment, .blank blank closed, inside, rfl⟩
  | line inside _ ih =>
    refine ih.imp (.line inside) fun rest => ?_
    obtain ⟨ended, comment, closed, inside', rfl⟩ := rest
    exact ⟨_, comment, .line inside closed, inside', by simp⟩
  | block inside _ ih =>
    refine ih.imp (.block inside) fun rest => ?_
    obtain ⟨ended, comment, closed, inside', rfl⟩ := rest
    exact ⟨_, comment, .block inside closed, inside', by simp⟩
  | @unended text _ inside => exact .inr ⟨[], text, .nil, inside, rfl⟩

theorem skip_comment {comment : List Char} (inside : '\n' ∉ comment) (p : Position) :
    skip .lineComment comment p = .ok ⟨[], p.advance comment⟩ := by
  induction comment generalizing p with
  | nil => rfl
  | cons c comment ih =>
    rw [List.mem_cons, not_or] at inside
    rw [skip, if_neg (Ne.symm inside.1), ih inside.2]
    rfl

theorem lexemes_of_skip_nil {cs : List Char} {p q : Position}
    (skipped : skip .blank cs p = .ok ⟨[], q⟩) : lexemes cs p = .ok ⟨[], q⟩ := by
  rw [lexemes]
  split
  · rename_i failed
    rw [skipped] at failed
    cases failed
  · rename_i none_left
    rw [skipped] at none_left
    cases none_left
    rfl
  · rename_i some_left
    rw [skipped] at some_left
    cases some_left

theorem cutsInto_trivia {trivia back : List Char} {ts : List Token} (h : Trivia False trivia)
    (after : CutsInto back ts) : CutsInto (trivia ++ back) ts := by
  intro p
  rw [lexemes, skip_trivia h, ← lexemes]
  exact after _

theorem cutsInto_open {ended comment : List Char} (h : Trivia False ended)
    (inside : '\n' ∉ comment) : CutsInto (ended ++ '/' :: '/' :: comment) [] := by
  refine cutsInto_trivia h fun p => ?_
  have skipped : skip .blank ('/' :: '/' :: comment) p = .ok ⟨[], _⟩ := skip_comment inside _
  exact ⟨_, lexemes_of_skip_nil skipped, rfl⟩

/-- After the last token of a text, a brace, there are only trivia. What they and more characters
    are cut into comes after the tokens of the text. -/
theorem exists_trailing {cs : List Char} {p : Position} {l : Lexemes}
    (cut : lexemes cs p = .ok l) (ends : ∀ t ∈ l.tokens.getLast?, t = .closingBrace) :
    ∃ trailing, Trivia True trailing ∧
      ∀ {more ts}, CutsInto (trailing ++ more) ts → CutsInto (cs ++ more) (l.tokens ++ ts) := by
  fun_induction lexemes cs p generalizing l with
  | case1 | case3 => cases cut
  | case2 cs p q skipped =>
    cases cut
    obtain ⟨passed, text, _, trivia⟩ := trivia_of_skip skipped
    rw [List.append_nil] at text
    subst text
    exact ⟨cs, trivia.mono fun _ => True.intro, fun after => after⟩
  | case4 cs p c rest q skipped t pair read ih =>
    obtain ⟨later, done, rfl⟩ := of_map_ok cut
    obtain ⟨left, q1⟩ := pair
    dsimp only at done ih
    have ends' : ∀ t' ∈ (t :: later.tokens).getLast?, t' = .closingBrace := ends
    -- The last token is a brace, so there is one at the end of this token or after it.
    have settled : t = .closingBrace ∨ '}' ∈ left := by
      cases last : later.tokens.getLast? with
      | none =>
        rw [List.getLast?_eq_none_iff.mp last] at ends'
        exact .inl (ends' t rfl)
      | some t' =>
        have same : t' = .closingBrace := ends' t' (by simp [List.getLast?_cons, last])
        exact .inr (brace_of_lexemes done (same ▸ List.mem_of_getLast? last))
    have brace : '}' ∈ c :: rest := by
      rcases settled with same | within
      · obtain ⟨rfl, _⟩ := brace_of_token read same
        exact List.mem_cons_self
      · obtain ⟨slice, split, _, _⟩ := token_ends read
        rw [split]
        exact List.mem_append_right _ within
    obtain ⟨trailing, trivia, joined⟩ := ih done fun t' last =>
      ends' t' (by simp [List.getLast?_cons, Option.mem_def.mp last])
    refine ⟨trailing, trivia, fun {more ts} after start => ?_⟩
    obtain ⟨q', skipped'⟩ := skip_append .blank skipped brace rfl more start
    obtain ⟨q1', read'⟩ := token_append read settled more q'
    obtain ⟨l, cut, tokens⟩ := joined after q1'
    rw [lexemes_cons skipped' read', cut]
    exact ⟨_, rfl, congrArg (t :: ·) tokens⟩

section Texts

variable {cs back : List Char} {p p' : Position} {l l' : Lexemes} {ts : List Token}

/-- A text that ends with a brace and leaves no comment open is cut into its tokens, and then what
    comes after it into its own. That no comment is open shows at a mark put after the text. -/
theorem cutsInto_append (cut : lexemes cs p = .ok l)
    (ends : ∀ t ∈ l.tokens.getLast?, t = .closingBrace)
    (marked : lexemes (cs ++ ['}']) p' = .ok l') (own : l'.tokens = l.tokens ++ [.closingBrace])
    (after : CutsInto back ts) : CutsInto (cs ++ back) (l.tokens ++ ts) := by
  obtain ⟨trailing, trivia, joined⟩ := exists_trailing cut ends
  rcases trivia.ended_or_open with ended | ⟨ended, comment, closed, inside, rfl⟩
  · exact joined (cutsInto_trivia ended after)
  · have longer := @cutsInto_open _ (comment ++ ['}']) closed (by simp [inside])
    obtain ⟨l'', again, tokens⟩ := @joined ['}'] _ (by simpa using longer) p'
    rw [again] at marked
    cases marked
    simp [tokens] at own

end Texts
end Lexer
end LoopLang
