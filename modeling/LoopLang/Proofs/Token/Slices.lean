import Mathlib.Data.List.TakeWhile
import LoopLang.Proofs.Token.Scanning

namespace LoopLang

namespace Token

/-- The characters before `rest` spell the token, and no longer ones spell a token of its class. -/
structure EndsBefore (t : Token) (slice rest : List Char) : Prop where
  spelled : t.Spelled slice
  longest : ∀ c more, c :: more <+: rest → ∀ t' : Token, t'.lexicalClass = t.lexicalClass →
    ¬t'.Spelled (slice ++ c :: more)

theorem Spelled.ne_nil {t : Token} {slice : List Char} (h : t.Spelled slice) : slice ≠ [] := by
  cases h with
  | integer decimal _ => exact decimal.1
  | float _ _ => simp
  | char _ | string _ => exact List.cons_ne_nil _ _
  | name isName _ =>
    obtain ⟨c, rest, text, _⟩ := isName
    rw [text]
    exact List.cons_ne_nil _ _
  | keyword word => cases word <;> decide
  | symbol mark => cases mark <;> decide

end Token

namespace Lexer

theorem string_endsBefore {content rest : List Char} {pieces : List (List Char)}
    (glyphs : List.Forall₂ (Glyph '"') content pieces) :
    (Token.string (String.ofList content)).EndsBefore ('"' :: (pieces.flatten ++ ['"'])) rest := by
  refine ⟨.string (by rwa [String.toList_ofList]), fun c more begins t' same spelled => ?_⟩
  generalize text : '"' :: (pieces.flatten ++ ['"']) ++ c :: more = longer at spelled
  cases spelled with
  | @string content' pieces' glyphs' =>
    have read := stringBody_of_glyphs glyphs (c :: more) .start .start
    have read' := stringBody_of_glyphs glyphs' [] .start .start
    have same_text : pieces.flatten ++ '"' :: c :: more = pieces'.flatten ++ '"' :: [] := by
      simpa using text
    rw [same_text, read'] at read
    simp at read
  | _ => cases same

theorem char_endsBefore {value : Char} {letters rest : List Char}
    (glyph : Glyph '\'' value letters) :
    (Token.char value).EndsBefore ('\'' :: (letters ++ ['\''])) rest := by
  refine ⟨.char glyph, fun c more begins t' same spelled => ?_⟩
  generalize text : '\'' :: (letters ++ ['\'']) ++ c :: more = longer at spelled
  cases spelled with
  | @char value' letters' glyph' =>
    have read := charBody_of_glyph glyph (c :: more) .start .start
    have read' := charBody_of_glyph glyph' [] .start .start
    have same_text : letters ++ '\'' :: c :: more = letters' ++ '\'' :: [] := by
      simpa using text
    rw [same_text, read'] at read
    simp at read
  | _ => cases same

theorem isDigit_eq (c : Char) : isDigit c = c.isDigit := by
  simp only [isDigit, Char.isDigit, Char.le_def, ge_iff_le]

theorem digitsValue_eq (digits : List Char) : digitsValue digits = decimalValue digits := by
  rw [digitsValue, decimalValue, Nat.ofDigits_eq_foldr, List.foldr_map, List.foldr_reverse]
  simp [Nat.add_comm]

theorem IsDecimal.all {digits : List Char} (h : IsDecimal digits) :
    ∀ d ∈ digits, isDigit d = true := by
  intro d member
  rw [isDigit_eq]
  exact h.2 d member

theorem isDecimal_takeWhile {c : Char} (digit : isDigit c = true) (cs : List Char) :
    IsDecimal ((c :: cs).takeWhile isDigit) := by
  refine ⟨by simp [digit], fun d member => ?_⟩
  rw [← isDigit_eq]
  exact List.mem_takeWhile_imp member

theorem spelled_number {t : Token} {cs : List Char} (h : t.Spelled cs)
    (number : t.lexicalClass = .number) :
    cs.dropWhile isDigit = [] ∨
      ∃ places, IsDecimal places ∧ cs.dropWhile isDigit = '.' :: places := by
  cases h with
  | integer decimal _ => exact .inl (List.dropWhile_eq_nil_iff.mpr decimal.all)
  | @float whole places left right =>
    refine .inr ⟨places, right, ?_⟩
    rw [List.dropWhile_append_of_pos left.all]
    rfl
  | _ => cases number

variable {digits whole places rest more : List Char}

theorem integer_endsBefore (decimal : IsDecimal digits) (fits : decimalValue digits < 2 ^ 127)
    (noDigit : ∀ d ∈ rest.head?, isDigit d = false)
    (noPoint : ∀ d rest', rest = '.' :: d :: rest' → isDigit d = false) :
    (Token.integer (decimalValue digits)).EndsBefore digits rest := by
  refine ⟨.integer decimal fits, fun c more begins t' same spelled => ?_⟩
  obtain ⟨later, rfl⟩ := begins
  have other : isDigit c = false := noDigit c rfl
  have left : (digits ++ c :: more).dropWhile isDigit = c :: more := by
    rw [List.dropWhile_append_of_pos decimal.all, List.dropWhile_cons_of_neg (by simp [other])]
  rcases spelled_number spelled same with none_left | ⟨places, right, point⟩
  · rw [left] at none_left
    cases none_left
  · rw [left] at point
    cases point
    obtain ⟨d, places, rfl⟩ := List.exists_cons_of_ne_nil right.1
    have digit := right.all d List.mem_cons_self
    rw [noPoint d _ rfl] at digit
    cases digit

theorem float_endsBefore (left : IsDecimal whole) (right : IsDecimal places)
    (noDigit : ∀ d ∈ rest.head?, isDigit d = false) :
    (Token.float (Float.ofScientific (decimalValue (whole ++ places)) true
      places.length)).EndsBefore (whole ++ '.' :: places) rest := by
  refine ⟨.float left right, fun c more begins t' same spelled => ?_⟩
  obtain ⟨later, rfl⟩ := begins
  have other : isDigit c = false := noDigit c rfl
  have left : (whole ++ '.' :: places ++ c :: more).dropWhile isDigit =
      '.' :: (places ++ c :: more) := by
    rw [List.append_assoc, List.dropWhile_append_of_pos left.all]
    rfl
  rcases spelled_number spelled same with none_left | ⟨places', right', point⟩
  · rw [left] at none_left
    cases none_left
  · rw [left] at point
    cases point
    have digit := right'.all c (by simp)
    rw [other] at digit
    cases digit

theorem wide_contains_iff (n : Nat) : Range.wide.contains n = true ↔ n < 2 ^ 127 := by
  have bound : ((Nat.pow 2 (128 - 1) : Nat) : Int) = 2 ^ 127 := rfl
  rw [Range.contains_iff, Range.wide, Range.signed, bound]
  dsimp only
  omega

theorem number_integer_eq {p : Position} {after : Cursor} {read : Token × Cursor}
    (h : number.integer p digits after = .ok read) :
    read = (.integer (decimalValue digits), after) ∧ decimalValue digits < 2 ^ 127 := by
  simp only [number.integer, digitsValue_eq] at h
  split at h
  · rename_i fits
    cases h
    exact ⟨rfl, (wide_contains_iff _).mp fits⟩
  · cases h

theorem head?_dropWhile (keep : Char → Bool) (cs : List Char) :
    ∀ c ∈ (cs.dropWhile keep).head?, keep c = false := by
  intro c member
  have other := List.head?_dropWhile_not keep cs
  rw [Option.mem_def.mp member] at other
  exact Bool.not_eq_true _ ▸ by simpa using other

theorem number_ends {c : Char} {cs : List Char} {p : Position} {read : Token × Cursor}
    (digit : isDigit c = true) (h : number (c :: cs) p = .ok read) :
    ∃ slice, c :: cs = slice ++ read.2.rest ∧ read.2.position = p.advance slice ∧
      read.1.EndsBefore slice read.2.rest := by
  have split := (List.takeWhile_append_dropWhile (p := isDigit) (l := c :: cs)).symm
  have decimal := isDecimal_takeWhile digit cs
  have noDigit := head?_dropWhile isDigit (c :: cs)
  simp only [number, span_eq] at h
  generalize (c :: cs).takeWhile isDigit = whole at split decimal h
  generalize (c :: cs).dropWhile isDigit = rest at split noDigit h
  have ends_integer (noPoint : ∀ d rest', rest = '.' :: d :: rest' → isDigit d = false)
      (h : number.integer p whole ⟨rest, p.advance whole⟩ = .ok read) :
      ∃ slice, c :: cs = slice ++ read.2.rest ∧ read.2.position = p.advance slice ∧
        read.1.EndsBefore slice read.2.rest := by
    obtain ⟨rfl, fits⟩ := number_integer_eq h
    exact ⟨whole, split, rfl, integer_endsBefore decimal fits noDigit noPoint⟩
  split at h
  · rename_i d rest'
    split at h
    · rename_i digit'
      cases h
      have right := isDecimal_takeWhile digit' rest'
      have noDigit' := head?_dropWhile isDigit (d :: rest')
      have split' := (List.takeWhile_append_dropWhile (p := isDigit) (l := d :: rest')).symm
      refine ⟨whole ++ '.' :: (d :: rest').takeWhile isDigit, ?_, ?_, ?_⟩
      · rw [split, List.append_assoc, List.cons_append, ← split']
      · rw [Position.advance_append]
        rfl
      · rw [digitsValue_eq]
        exact float_endsBefore decimal right noDigit'
    · rename_i other
      refine ends_integer (fun e rest'' same => ?_) h
      cases same
      simpa using other
  · rename_i noPoint
    exact ends_integer (fun d rest' same => absurd same (noPoint d rest')) h

theorem isNameStart_iff (c : Char) : isNameStart c = true ↔ c.isAlpha ∨ c = '_' := by
  delta Char.isAlpha Char.isUpper Char.isLower
  simp only [isNameStart, Char.le_def]
  grind

theorem isNamePart_iff (c : Char) : isNamePart c = true ↔ c.isAlphanum ∨ c = '_' := by
  rw [isNamePart, Bool.or_eq_true, isNameStart_iff, isDigit_eq, Char.isAlphanum, Bool.or_eq_true]
  grind

theorem IsName.all {text : List Char} (h : IsName text) : ∀ c ∈ text, isNamePart c = true := by
  obtain ⟨first, others, rfl, start, parts⟩ := h
  refine List.forall_mem_cons.mpr ⟨?_, fun d member => (isNamePart_iff d).mpr (parts d member)⟩
  rw [isNamePart, (isNameStart_iff first).mpr start]
  rfl

theorem isName_of_all {c : Char} {cs : List Char} (start : isNameStart c = true)
    (parts : cs.all isNamePart = true) : IsName (c :: cs) :=
  ⟨c, cs, rfl, (isNameStart_iff c).mp start,
    fun d member => (isNamePart_iff d).mp (List.all_eq_true.mp parts d member)⟩

theorem isName_spelling (word : Keyword) : IsName word.spelling.toList := by
  cases word <;> exact isName_of_all rfl rfl

theorem spelled_word {t : Token} {cs : List Char} (h : t.Spelled cs)
    (isWord : t.lexicalClass = .word) : ∀ c ∈ cs, isNamePart c = true := by
  cases h with
  | name isName _ => exact isName.all
  | keyword word => exact (isName_spelling word).all
  | _ => cases isWord

theorem ofSpelling?_cases (text : String) :
    (∃ word, Keyword.ofSpelling? text = some word ∧ word.spelling = text) ∨
      Keyword.ofSpelling? text = none ∧ ∀ word : Keyword, word.spelling ≠ text := by
  cases found : Keyword.ofSpelling? text with
  | some word =>
    have same := List.find?_some found
    exact .inl ⟨word, rfl, eq_of_beq same⟩
  | none =>
    refine .inr ⟨rfl, fun word same => ?_⟩
    have other := List.find?_eq_none.mp found word word.mem_all
    exact other (beq_iff_eq.mpr same)

theorem word_ends {c : Char} {cs : List Char} {p : Position} (start : isNameStart c = true) :
    ∃ slice, c :: cs = slice ++ (word (c :: cs) p).2.rest ∧
      (word (c :: cs) p).2.position = p.advance slice ∧
      (word (c :: cs) p).1.EndsBefore slice (word (c :: cs) p).2.rest := by
  have split := (List.takeWhile_append_dropWhile (p := isNamePart) (l := c :: cs)).symm
  have isName : IsName ((c :: cs).takeWhile isNamePart) := by
    refine ⟨c, cs.takeWhile isNamePart, ?_, (isNameStart_iff c).mp start, fun d member => ?_⟩
    · rw [List.takeWhile_cons_of_pos (by rw [isNamePart, start]; rfl)]
    · exact (isNamePart_iff d).mp (List.mem_takeWhile_imp member)
  have noPart := head?_dropWhile isNamePart (c :: cs)
  simp only [word, span_eq]
  generalize (c :: cs).takeWhile isNamePart = text at split isName ⊢
  generalize (c :: cs).dropWhile isNamePart = rest at split noPart ⊢
  have longest {t : Token} (isWord : t.lexicalClass = .word) (spelled : t.Spelled text) :
      t.EndsBefore text rest := by
    refine ⟨spelled, fun c more begins t' same spelled' => ?_⟩
    obtain ⟨later, rfl⟩ := begins
    have part := spelled_word spelled' (same.trans isWord) c (by simp)
    rw [noPart c rfl] at part
    cases part
  have chars := String.toList_ofList (l := text)
  rcases ofSpelling?_cases (String.ofList text) with ⟨word, found, same⟩ | ⟨found, other⟩
  · rw [found]
    refine ⟨text, split, rfl, longest rfl ?_⟩
    have spelled := Token.Spelled.keyword word
    rwa [same, chars] at spelled
  · rw [found]
    refine ⟨text, split, rfl, longest rfl ?_⟩
    have spelled := @Token.Spelled.name (String.ofList text) (by rwa [chars]) other
    rwa [chars] at spelled

theorem spelling_of_symbol? {cs rest : List Char} {mark : Symbol}
    (h : symbol? cs = some (mark, rest)) : cs = mark.spelling.toList ++ rest := by
  unfold symbol? at h
  split at h
  all_goals cases h
  all_goals rfl

/-- No mark that a text begins with is longer than the one that is found. -/
theorem symbol?_longest {mark found : Symbol} {cs rest : List Char}
    (h : symbol? (mark.spelling.toList ++ cs) = some (found, rest)) :
    mark.spelling.toList.length ≤ found.spelling.toList.length := by
  have some : ∀ mark : Symbol, 0 < mark.spelling.toList.length := by
    intro mark
    cases mark <;> decide
  cases mark
  case equalEqual | notEqual | lessEqual | greaterEqual =>
    cases h
    exact Nat.le_refl _
  all_goals exact some found

theorem symbol_endsBefore {mark : Symbol} {rest : List Char}
    (h : symbol? (mark.spelling.toList ++ rest) = some (mark, rest)) :
    (Token.symbol mark).EndsBefore mark.spelling.toList rest := by
  refine ⟨.symbol mark, fun c more begins t' same spelled => ?_⟩
  obtain ⟨later, rfl⟩ := begins
  generalize text : mark.spelling.toList ++ c :: more = longer at spelled
  cases spelled with
  | symbol mark' =>
    rw [← List.append_assoc, text] at h
    have longest := symbol?_longest h
    rw [← text, List.length_append] at longest
    simp at longest
  | _ => cases same

theorem token_ends {c : Char} {cs : List Char} {p : Position} {read : Token × Cursor}
    (h : token c cs p = .ok read) :
    ∃ slice, c :: cs = slice ++ read.2.rest ∧ read.2.position = p.advance slice ∧
      read.1.EndsBefore slice read.2.rest := by
  unfold token at h
  split at h
  · rename_i same
    subst same
    obtain ⟨⟨content, after⟩, done, rfl⟩ := of_map_ok h
    obtain ⟨pieces, glyphs, rfl, place⟩ := glyphs_of_stringBody done
    exact ⟨'"' :: (pieces.flatten ++ ['"']), by simp, place, string_endsBefore glyphs⟩
  · split at h
    · rename_i same
      subst same
      obtain ⟨value, letters, token, glyph, rfl, place⟩ := glyph_of_charBody h
      rw [token]
      exact ⟨'\'' :: (letters ++ ['\'']), by simp, place, char_endsBefore glyph⟩
    · split at h
      · rename_i digit
        exact number_ends digit h
      · split at h
        · rename_i start
          cases h
          exact word_ends start
        · split at h
          · rename_i mark rest found
            cases h
            have split := spelling_of_symbol? found
            refine ⟨mark.spelling.toList, split, ?_, symbol_endsBefore (by rwa [split] at found)⟩
            cases mark <;> rfl
          · cases h

end Lexer

namespace Position

def ofOffset (text : List Char) (offset : Nat) : Position where
  line := 1 + (text.take offset).count '\n'
  column := 1 + ((text.take offset).reverse.takeWhile (· ≠ '\n')).length

theorem advance_start (front back : List Char) :
    start.advance front = ofOffset (front ++ back) front.length := by
  rw [ofOffset, List.take_left]
  induction front using List.reverseRecOn with
  | nil => rfl
  | append_singleton front c ih =>
    rw [advance_append, advance_cons, advance_nil, ih, step]
    by_cases feed : c = '\n'
    · simp [feed, Nat.add_assoc]
    · rw [if_neg feed]
      simp [feed, Nat.add_comm]

end Position

namespace Lexer

/-- The text from an offset on, cut into tokens. Between two slices there is only trivia, each
    slice is as long as one of its class can be, and each token has the place of its slice. -/
inductive Cut (text : List Char) : (offset : Nat) → List Lexeme → Prop
  | done {offset : Nat} (within : offset ≤ text.length) (trivia : Trivia True (text.drop offset)) :
    Cut text offset []
  | token {offset start stop : Nat} {t : Token} {later : List Lexeme} (before : offset ≤ start)
    (some : start < stop) (within : stop ≤ text.length)
    (trivia : Trivia False (text.extract offset start))
    (spelled : t.Spelled (text.extract start stop))
    (longest : ∀ stop', stop < stop' → stop' ≤ text.length → ∀ t' : Token,
      t'.lexicalClass = t.lexicalClass → ¬t'.Spelled (text.extract start stop'))
    (others : Cut text stop later) :
    Cut text offset (⟨t, .ofOffset text start⟩ :: later)

theorem extract_between (front slice back : List Char) :
    (front ++ slice ++ back).extract front.length (front ++ slice).length = slice := by
  simp

theorem extract_longer {front slice back : List Char} {stop : Nat}
    (longer : (front ++ slice).length < stop) (within : stop ≤ (front ++ slice ++ back).length) :
    ∃ c more, c :: more <+: back ∧
      (front ++ slice ++ back).extract front.length stop = slice ++ c :: more := by
  obtain ⟨count, rfl⟩ := Nat.exists_eq_add_of_lt longer
  cases back with
  | nil =>
    simp only [List.append_nil, List.length_append] at within
    omega
  | cons c back =>
    refine ⟨c, back.take count, List.cons_prefix_cons.mpr ⟨rfl, List.take_prefix _ _⟩, ?_⟩
    have length : (front ++ slice).length + count + 1 - front.length =
        slice.length + (count + 1) := by
      rw [List.length_append]
      omega
    rw [List.extract_eq_take_drop, List.append_assoc, List.drop_left, length,
      List.take_length_add_append, List.take_succ_cons]

theorem cut_of_lexemes (front : List Char) {cs : List Char} {l : Lexemes}
    (h : lexemes cs (Position.start.advance front) = .ok l) :
    Cut (front ++ cs) front.length l.list ∧
      l.finish = .ofOffset (front ++ cs) (front ++ cs).length := by
  generalize place : Position.start.advance front = p at h
  fun_induction lexemes cs p generalizing front l with
  | case1 => cases h
  | case2 cs p q skipped =>
    cases h
    obtain ⟨passed, rfl, rfl, trivia⟩ := trivia_of_skip skipped
    subst place
    rw [List.append_nil, ← Position.advance_append]
    refine ⟨.done (by simp) ?_, ?_⟩
    · rw [List.drop_left]
      exact trivia.mono fun _ => True.intro
    · have finish := Position.advance_start (front ++ passed) []
      rwa [List.append_nil] at finish
  | case3 => cases h
  | case4 cs p c rest q skipped t after cut ih =>
    obtain ⟨later, done, rfl⟩ := of_map_ok h
    obtain ⟨passed, rfl, rfl, trivia⟩ := trivia_of_skip skipped
    obtain ⟨slice, split, place', ends⟩ := token_ends cut
    subst place
    rw [← Position.advance_append] at place'
    have place := Position.advance_start (front ++ passed) (slice ++ after.rest)
    rw [Position.advance_append, ← List.append_assoc] at place
    obtain ⟨others, finish⟩ := ih (front ++ passed ++ slice) (by
      rw [place', ← Position.advance_append, List.append_assoc]) done
    have some := List.length_pos_iff.mpr ends.spelled.ne_nil
    rw [split, ← List.append_assoc, ← List.append_assoc, place]
    refine ⟨.token ?_ ?_ ?_ ?_ ?_ ?_ others, finish⟩
    · simp
    · simpa using some
    · simp
    · rw [List.append_assoc _ slice, extract_between]
      exact trivia.mono fun nothing_left => by cases nothing_left
    · rw [extract_between]
      exact ends.spelled
    · intro stop' longer within t' same
      obtain ⟨c, more, begins, extract⟩ := extract_longer longer within
      rw [extract]
      exact ends.longest c more begins t' same

end Lexer

namespace Lexemes

/-- Cutting a text into tokens loses nothing but trivia, and it finds the place of each token. -/
theorem cut_of_source {source : String} {l : Lexemes} (h : ofSource source = .ok l) :
    Lexer.Cut source.toList 0 l.list ∧
      l.finish = .ofOffset source.toList source.toList.length :=
  Lexer.cut_of_lexemes [] h

def dense : String := "iffy<=007.5/**\"/*/x.1.'\n'\n\t\"//\\n\\\"\"// end"

theorem dense_cut : ∃ l, ofSource dense = .ok l ∧ l.list.length = 9 ∧
    Lexer.Cut dense.toList 0 l.list ∧ l.finish = .ofOffset dense.toList dense.toList.length := by
  have facts : (ofSource dense).toOption.any fun l => l.list.length == 9 := by decide +kernel
  cases lexed : ofSource dense with
  | error e =>
    rw [lexed] at facts
    cases facts
  | ok l =>
    rw [lexed] at facts
    have length := eq_of_beq facts
    exact ⟨l, rfl, length, cut_of_source lexed⟩

end Lexemes
end LoopLang
