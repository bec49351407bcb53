import Mathlib.Data.Prod.Lex
import LoopLang.Token.Lexer

namespace LoopLang

namespace Position

instance : LinearOrder Position :=
  LinearOrder.lift' (fun p => toLex (p.line, p.column)) fun p q same => by
    cases p
    cases q
    cases same
    rfl

theorem lt_iff {p q : Position} :
    p < q ↔ p.line < q.line ∨ p.line = q.line ∧ p.column < q.column :=
  Prod.Lex.toLex_lt_toLex

theorem lt_step (p : Position) (c : Char) : p < p.step c := by
  rw [lt_iff, step]
  split
  · exact .inl (Nat.lt_succ_self _)
  · exact .inr ⟨rfl, Nat.lt_succ_self _⟩

theorem lt_of_step_le {p q : Position} {c : Char} (h : p.step c ≤ q) : p < q :=
  (p.lt_step c).trans_le h

theorem le_of_step_le {p q : Position} {c : Char} (h : p.step c ≤ q) : p ≤ q :=
  (lt_of_step_le h).le

end Position

namespace Lexer

open Position

theorem le_skip {gap : Gap} {cs : List Char} {p : Position} {after : Cursor}
    (h : skip gap cs p = .ok after) : p ≤ after.position := by
  fun_induction skip gap cs p with
  | case1 | case5 | case6 => cases h; exact le_rfl
  | case9 => cases h
  | case2 _ _ ih | case3 _ _ ih | case10 _ _ _ ih => exact le_of_step_le (le_of_step_le (ih h))
  | case4 | case7 | case8 | case11 =>
    rename_i ih
    exact le_of_step_le (ih h)

theorem le_span (keep : Char → Bool) (cs : List Char) (p : Position) :
    p ≤ (span keep cs p).2.position := by
  induction cs generalizing p with
  | nil => exact le_rfl
  | cons c cs ih =>
    unfold span
    split
    · exact le_of_step_le (ih _)
    · exact le_rfl

theorem lt_span_of_head {keep : Char → Bool} {c : Char} (kept : keep c = true) (cs : List Char)
    (p : Position) : p < (span keep (c :: cs) p).2.position := by
  rw [span, if_pos kept]
  exact lt_of_step_le (le_span keep cs _)

theorem le_stringBody {opened p : Position} {cs : List Char} {read : List Char × Cursor}
    (h : stringBody opened cs p = .ok read) : p ≤ read.2.position := by
  fun_induction stringBody opened cs p generalizing read with
  | case1 | case3 | case4 | case5 => simp at h
  | case2 =>
    cases h
    exact (lt_step _ _).le
  | case6 =>
    rename_i ih
    obtain ⟨_, done, rfl⟩ := of_map_ok h
    have rest := ih done
    exact le_of_step_le (le_of_step_le rest)
  | case7 _ _ _ _ _ _ _ ih =>
    obtain ⟨_, done, rfl⟩ := of_map_ok h
    have rest := ih done
    exact le_of_step_le rest

theorem le_closeChar {value : Char} {cs : List Char} {p : Position} {read : Token × Cursor}
    (h : closeChar value cs p = .ok read) : p ≤ read.2.position := by
  cases cs with
  | nil => cases h
  | cons c cs =>
    rw [closeChar] at h
    split at h
    · cases h
      exact (lt_step _ _).le
    · cases h

theorem le_charBody {opened p : Position} {cs : List Char} {read : Token × Cursor}
    (h : charBody opened cs p = .ok read) : p ≤ read.2.position := by
  unfold charBody at h
  split at h
  · cases h
  · cases h
  · cases h
  · split at h
    · cases h
    · exact le_of_step_le (le_of_step_le (le_closeChar h))
  · exact le_of_step_le (le_closeChar h)

theorem number_integer_after {p : Position} {digits : List Char} {after : Cursor}
    {read : Token × Cursor} (h : number.integer p digits after = .ok read) : read.2 = after := by
  rw [number.integer] at h
  split at h
  · cases h
    rfl
  · cases h

theorem lt_number {c : Char} (digit : isDigit c = true) {cs : List Char} {p : Position}
    {read : Token × Cursor} (h : number (c :: cs) p = .ok read) : p < read.2.position := by
  have whole := lt_span_of_head digit cs p
  simp only [number] at h
  split at h
  · split at h
    · cases h
      exact whole.trans (lt_of_step_le (le_span isDigit _ _))
    · rwa [number_integer_after h]
  · rwa [number_integer_after h]

theorem lt_token {c : Char} {cs : List Char} {p : Position} {read : Token × Cursor}
    (h : token c cs p = .ok read) : p < read.2.position := by
  unfold token at h
  split at h
  · obtain ⟨_, done, rfl⟩ := of_map_ok h
    exact lt_of_step_le (le_stringBody done)
  · split at h
    · exact lt_of_step_le (le_charBody h)
    · split at h
      · rename_i digit
        exact lt_number digit h
      · split at h
        · rename_i letter
          have kept : isNamePart c = true := by
            rw [isNamePart, letter]
            rfl
          have after := lt_span_of_head kept cs p
          cases h
          simp only [word]
          split <;> exact after
        · split at h
          · rename_i mark _ _
            cases h
            have some_letter : 0 < mark.spelling.length := by cases mark <;> decide
            exact lt_iff.mpr (.inr ⟨rfl, Nat.lt_add_of_pos_right some_letter⟩)
          · cases h

theorem lexemes_ordered {cs : List Char} {p : Position} {l : Lexemes}
    (h : lexemes cs p = .ok l) :
    (l.list.map (·.position)).Pairwise (· < ·) ∧ ∀ lexeme ∈ l.list, p ≤ lexeme.position := by
  fun_induction lexemes cs p generalizing l with
  | case1 => cases h
  | case2 =>
    cases h
    exact ⟨.nil, List.forall_mem_nil _⟩
  | case3 => cases h
  | case4 cs p c rest q skipped t after cut ih =>
    obtain ⟨later, done, rfl⟩ := of_map_ok h
    obtain ⟨ordered, beyond⟩ := ih done
    have q_after := le_skip skipped
    have begins_before := lt_token cut
    have others (lexeme : Lexeme) (member : lexeme ∈ later.list) : q < lexeme.position :=
      begins_before.trans_le (beyond lexeme member)
    refine ⟨List.pairwise_cons.mpr ⟨?_, ordered⟩, List.forall_mem_cons.mpr ⟨q_after, ?_⟩⟩
    · exact List.forall_mem_map.mpr others
    · exact fun lexeme member => q_after.trans (others lexeme member).le

end Lexer

theorem Lexemes.ordered {source : String} {l : Lexemes} (h : ofSource source = .ok l) :
    (l.list.map (·.position)).Pairwise (· < ·) :=
  (Lexer.lexemes_ordered h).1

end LoopLang
