import LoopLang.Proofs.Token.Slices

namespace LoopLang.Lexer

/-- The position is that of a character of the text, or of its end, where the text begins at `p`. -/
def PlaceIn (cs : List Char) (p place : Position) : Prop :=
  ∃ front back, cs = front ++ back ∧ place = p.advance front

variable {cs : List Char} {p place opened : Position} {e : LexError}

theorem PlaceIn.here : PlaceIn cs p p := ⟨[], cs, rfl, rfl⟩

theorem PlaceIn.step {c : Char} (h : PlaceIn cs (p.step c) place) : PlaceIn (c :: cs) p place := by
  obtain ⟨front, back, rfl, rfl⟩ := h
  exact ⟨c :: front, back, rfl, rfl⟩

theorem PlaceIn.after (front : List Char) (h : PlaceIn cs (p.advance front) place) :
    PlaceIn (front ++ cs) p place := by
  obtain ⟨more, back, rfl, rfl⟩ := h
  exact ⟨front ++ more, back, (List.append_assoc ..).symm, (Position.advance_append ..).symm⟩

theorem of_map_error {ε α β : Type} {f : α → β} {x : Except ε α} {e : ε}
    (h : x.map f = .error e) : x = .error e := by
  cases x with
  | error other =>
    cases h
    rfl
  | ok a => cases h

theorem skip_refused {gap : Gap} (h : skip gap cs p = .error e) :
    PlaceIn cs p e.position ∨ gap = .blockComment e.position := by
  fun_induction skip gap cs p with
  | case1 | case5 | case6 => cases h
  | case2 cs p ih =>
    rcases ih h with place | other
    · exact .inl place.step.step
    · cases other
  | case3 cs p ih =>
    rcases ih h with place | same
    · exact .inl place.step.step
    · cases same
      exact .inl .here
  | case4 | case7 | case8 =>
    rename_i ih
    rcases ih h with place | other
    · exact .inl place.step
    · cases other
  | case9 =>
    cases h
    exact .inr rfl
  | case10 _ _ _ ih =>
    rcases ih h with place | other
    · exact .inl place.step.step
    · cases other
  | case11 _ _ _ _ _ ih => exact (ih h).imp_left .step

theorem stringBody_refused (h : stringBody opened cs p = .error e) :
    PlaceIn cs p e.position ∨ e.position = opened := by
  fun_induction stringBody opened cs p with
  | case1 | case3 =>
    cases h
    exact .inr rfl
  | case2 => cases h
  | case4 =>
    cases h
    exact .inl (PlaceIn.here.step)
  | case5 =>
    cases h
    exact .inl (PlaceIn.here.step.step)
  | case6 =>
    rename_i ih
    exact (ih (of_map_error h)).imp_left fun place => place.step.step
  | case7 =>
    rename_i ih
    exact (ih (of_map_error h)).imp_left .step

theorem closeChar_refused {value : Char} (h : closeChar value cs p = .error e) :
    PlaceIn cs p e.position := by
  cases cs with
  | nil =>
    cases h
    exact .here
  | cons c cs =>
    rw [closeChar] at h
    split at h
    · cases h
    · cases h
      exact PlaceIn.here.step

theorem charBody_refused (h : charBody opened cs p = .error e) :
    PlaceIn cs p e.position ∨ e.position = opened := by
  unfold charBody at h
  split at h
  · cases h
    exact .inl .here
  · cases h
    exact .inr rfl
  · cases h
    exact .inl PlaceIn.here.step
  · split at h
    · cases h
      exact .inl PlaceIn.here.step.step
    · exact .inl (closeChar_refused h).step.step
  · exact .inl (closeChar_refused h).step

theorem number_refused (h : number cs p = .error e) : e.position = p := by
  have integer {digits : List Char} {after : Cursor}
      (h : number.integer p digits after = .error e) : e.position = p := by
    rw [number.integer] at h
    split at h
    · cases h
    · cases h
      rfl
  simp only [number] at h
  split at h
  · split at h
    · cases h
    · exact integer h
  · exact integer h

theorem token_refused {c : Char} (h : token c cs p = .error e) :
    PlaceIn (c :: cs) p e.position := by
  unfold token at h
  split at h
  · rcases stringBody_refused (of_map_error h) with place | opened
    · exact place.step
    · exact opened ▸ .here
  · split at h
    · rcases charBody_refused h with place | opened
      · exact place.step
      · exact opened ▸ .here
    · split at h
      · exact number_refused h ▸ .here
      · split at h
        · cases h
        · split at h
          · cases h
          · cases h
            exact .here

theorem lexemes_refused (h : lexemes cs p = .error e) : PlaceIn cs p e.position := by
  fun_induction lexemes cs p with
  | case1 cs p e' skipped =>
    cases h
    rcases skip_refused skipped with place | other
    · exact place
    · cases other
  | case2 => cases h
  | case3 cs p c rest q skipped e' cut =>
    cases h
    obtain ⟨passed, rfl, rfl, _⟩ := trivia_of_skip skipped
    exact (token_refused cut).after passed
  | case4 cs p c rest q skipped t after cut ih =>
    have place := ih (of_map_error h)
    obtain ⟨passed, rfl, rfl, _⟩ := trivia_of_skip skipped
    obtain ⟨slice, split, place', _⟩ := token_ends cut
    rw [place'] at place
    rw [split]
    exact (place.after slice).after passed

end LoopLang.Lexer
