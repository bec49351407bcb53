import LoopLang.Proofs.Token.Slices
import LoopLang.Report

namespace LoopLang.Position

/-- The position is that of the offset, by counting, and the offset is found again: the position's
line has the column, so that nothing is cut off. -/
structure Finds (p : Position) (text : List Char) (offset : Nat) : Prop where
  within : offset ≤ text.length
  place : p = ofOffset text offset
  inLine : ∃ line, (text.splitOn '\n')[p.line - 1]? = some line ∧ p.column - 1 ≤ line.length
  found : p.offset text = offset

variable {text line rest : List Char} {k : Nat}

theorem first_line (text : List Char) :
    ∃ line, '\n' ∉ line ∧ (text = line ∨ ∃ rest, text = line ++ '\n' :: rest) := by
  refine ⟨text.takeWhile (· ≠ '\n'), fun member => ?_, ?_⟩
  · simpa using List.mem_takeWhile_imp member
  · have parts := (List.takeWhile_append_dropWhile (p := (· ≠ '\n')) (l := text)).symm
    cases after : text.dropWhile (· ≠ '\n') with
    | nil =>
      rw [after, List.append_nil] at parts
      exact .inl parts
    | cons c rest =>
      have feed := List.head?_dropWhile_not (· ≠ '\n') text
      rw [after] at feed
      have feed : c = '\n' := by simpa using feed
      rw [after, feed] at parts
      exact .inr ⟨rest, parts⟩

theorem splitOn_first (free : '\n' ∉ line) :
    (line ++ '\n' :: rest).splitOn '\n' = line :: rest.splitOn '\n' := by
  rw [List.splitOn_append_cons_self, List.splitOn_eq_singleton free]
  rfl

theorem ofOffset_first (free : '\n' ∉ text.take k) (within : k ≤ text.length) :
    ofOffset text k = ⟨1, 1 + k⟩ := by
  have all : (text.take k).reverse.takeWhile (· ≠ '\n') = (text.take k).reverse := by
    apply List.takeWhile_eq_self_iff.mpr
    intro c member
    have other : c ≠ '\n' := fun feed => free (feed ▸ List.mem_reverse.mp member)
    simpa using other
  rw [ofOffset, all, List.count_eq_zero.mpr free, List.length_reverse, List.length_take,
    Nat.min_eq_left within]

theorem takeWhile_to_feed (front back : List Char) :
    (front ++ '\n' :: back).takeWhile (· ≠ '\n') = front.takeWhile (· ≠ '\n') := by
  induction front with
  | nil => simp
  | cons c front ih => simp only [List.cons_append, List.takeWhile_cons, ih]

theorem ofOffset_later (rest : List Char) (k : Nat) (free : '\n' ∉ line) :
    ofOffset (line ++ '\n' :: rest) (line.length + (k + 1)) =
      ⟨(ofOffset rest k).line + 1, (ofOffset rest k).column⟩ := by
  have taken : (line ++ '\n' :: rest).take (line.length + (k + 1)) =
      line ++ '\n' :: rest.take k := by
    rw [List.take_length_add_append, List.take_succ_cons]
  have feeds : (line ++ '\n' :: rest.take k).count '\n' = (rest.take k).count '\n' + 1 := by
    rw [List.count_append, List.count_eq_zero.mpr free, List.count_cons_self, Nat.zero_add]
  have last : (line ++ '\n' :: rest.take k).reverse =
      (rest.take k).reverse ++ '\n' :: line.reverse := by simp
  rw [ofOffset, taken, feeds, last, takeWhile_to_feed, ofOffset, Nat.add_assoc]

theorem line_pos (text : List Char) (k : Nat) : ∃ n, (ofOffset text k).line = n + 1 :=
  ⟨_, Nat.add_comm 1 _⟩

theorem finds_first (before : k ≤ line.length) (free : '\n' ∉ line)
    (parts : text = line ∨ ∃ rest, text = line ++ '\n' :: rest) :
    (ofOffset text k).Finds text k := by
  have kept : line.takeWhile (· ≠ '\n') = line := by
    apply List.takeWhile_eq_self_iff.mpr
    intro c member
    have other : c ≠ '\n' := fun feed => free (feed ▸ member)
    simpa using other
  obtain ⟨within, none_before, first, begins⟩ : k ≤ text.length ∧ '\n' ∉ text.take k ∧
      (text.splitOn '\n')[0]? = some line ∧ text.takeWhile (· ≠ '\n') = line := by
    rcases parts with rfl | ⟨rest, rfl⟩
    · refine ⟨before, fun member => free (List.mem_of_mem_take member), ?_, kept⟩
      rw [List.splitOn_eq_singleton free]
      rfl
    · refine ⟨by simp; omega, fun member => ?_, ?_, ?_⟩
      · rw [List.take_append_of_le_length before] at member
        exact free (List.mem_of_mem_take member)
      · rw [splitOn_first free]
        rfl
      · rw [takeWhile_to_feed, kept]
  rw [ofOffset_first none_before within]
  refine ⟨within, (ofOffset_first none_before within).symm, ⟨line, first, ?_⟩, ?_⟩
  · dsimp only
    omega
  · rw [offset, offsetAt, begins]
    dsimp only
    omega

theorem finds_ofOffset (within : k ≤ text.length) : (ofOffset text k).Finds text k := by
  induction size : text.length using Nat.strong_induction_on generalizing text k with
  | _ size ih =>
  subst size
  obtain ⟨line, free, parts⟩ := first_line text
  by_cases first : k ≤ line.length
  · exact finds_first first free parts
  · rcases parts with rfl | ⟨rest, rfl⟩
    · exact absurd within first
    · obtain ⟨j, rfl⟩ : ∃ j, k = line.length + (j + 1) :=
        ⟨k - line.length - 1, by omega⟩
      have left : j ≤ rest.length := by simp at within; omega
      obtain ⟨_, _, ⟨found, there, columns⟩, offset_eq⟩ := ih _ (by simp; omega) left rfl
      obtain ⟨n, lines⟩ := line_pos rest j
      rw [ofOffset_later rest j free]
      refine ⟨within, (ofOffset_later rest j free).symm, ⟨found, ?_, columns⟩, ?_⟩
      · rw [splitOn_first free]
        rw [lines] at there ⊢
        exact there
      · rw [offset, lines] at offset_eq
        have after : (line ++ '\n' :: rest).dropWhile (· ≠ '\n') = '\n' :: rest := by
          rw [List.dropWhile_append_of_pos fun c member => ?_]
          · rfl
          · have other : c ≠ '\n' := fun feed => free (feed ▸ member)
            simpa using other
        rw [offset, lines, offsetAt, after]
        dsimp only
        rw [offset_eq]
        simp
        omega

end LoopLang.Position
