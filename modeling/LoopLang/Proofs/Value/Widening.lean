import LoopLang.Proofs.Value.Equality

namespace LoopLang

namespace Value

variable {g : Globals} {v w : Value} {source target t u : Ty}

section Display

theorem displayItems_eq_map (items : List Value) : displayItems items = items.map display := by
  induction items with
  | nil => rfl
  | cons item items ih => rw [displayItems, ih, List.map_cons]

theorem display_coerce (v : Value) (target : Ty) : (v.coerce target).display = v.display := by
  fun_induction coerce v target with
  | case1 => rfl
  | case2 e items element ih =>
    rw [display, display, displayItems_eq_map, displayItems_eq_map, List.map_map]
    congr 3
    exact List.map_congr_left fun item _ => ih item
  | case3 => rfl

end Display

section Equals

theorem equals_coerce_left (v w : Value) (target : Ty) :
    (v.coerce target).equals w = v.equals w :=
  (alike_coerce v target).symm.equals_eq .same

theorem equals_coerce_right (v w : Value) (target : Ty) :
    w.equals (v.coerce target) = w.equals v :=
  Alike.same.equals_eq (alike_coerce v target).symm

end Equals

section Coercion

theorem coerce_coerce_self (v : Value) (target : Ty) :
    (v.coerce target).coerce target = v.coerce target := by
  fun_induction coerce v target with
  | case1 => rfl
  | case2 e items element ih =>
    rw [coerce, List.map_map]
    congr 1
    exact List.map_congr_left fun item _ => ih item
  | case3 => rw [coerce] <;> assumption

theorem coerce_coerce (specific : u.Specific) (accepts : u.accepts t = true) (v : Value) :
    (v.coerce t).coerce u = v.coerce u := by
  fun_induction coerce v t generalizing u with
  | case1 =>
    cases u with
    | primitive p =>
      cases p with
      | int t => rfl
      | _ => cases accepts
    | any => exact specific.elim
    | _ => cases accepts
  | case2 e items element ih =>
    cases u with
    | array element' =>
      rw [coerce, coerce, List.map_map]
      congr 1
      exact List.map_congr_left fun item _ => ih item specific accepts
    | any => exact specific.elim
    | _ => cases accepts
  | case3 => rfl

/-- A value that goes where its type is accepted has exactly the type of that place, the same text,
and is equal to what it was, unless a float in it is not even equal to itself. Nothing is lost or
left over if it goes there twice, or by way of another type. Of two integer types one accepts the
other just if all numbers of that fit. -/
theorem coerce_safe (g : Globals) :
    (∀ (target source : Ty) (v : Value), target.accepts source = true → v.HasType g source →
      (target.Specific → (v.coerce target).HasType g target) ∧
      (v.coerce target).display = v.display ∧
      ((v.coerce target).equals v = true ↔ ¬v.HasNaN) ∧
      (v.equals (v.coerce target) = true ↔ ¬v.HasNaN)) ∧
    (∀ (target : Ty) (v : Value), (v.coerce target).coerce target = v.coerce target) ∧
    (∀ (t u : Ty) (v : Value), u.Specific → u.accepts t = true →
      (v.coerce t).coerce u = v.coerce u) ∧
    ∀ t s : IntTy, t.accepts s = true ↔ ∀ i, s.fits i = true → t.fits i = true := by
  refine ⟨fun target source v accepts typed =>
      ⟨fun specific => ?_, v.display_coerce target, ?_, ?_⟩,
    fun target v => v.coerce_coerce_self target,
    fun t u v specific accepts => coerce_coerce specific accepts v,
    fun _ _ => IntTy.accepts_iff_fits⟩
  · exact typed.coerce specific accepts
  · rw [equals_coerce_left]
    exact typed.equals_self_iff
  · rw [equals_coerce_right]
    exact typed.equals_self_iff

end Coercion

def smallRows : Value :=
  .array (.array (.int .u8)) [.array (.int .u8) [.int 1 .u8, .int 200 .u8], .array (.int .u8) []]

def rowsOf (t : IntTy) : Ty := .array (.array (.int t))

theorem coerce_safe_smallRows :
    (smallRows.coerce (rowsOf .i16)).HasType Globals.empty (rowsOf .i16) ∧
    (smallRows.coerce (rowsOf .i16)).display = "[[1, 200], []]" ∧
    (smallRows.coerce (rowsOf .i16)).equals smallRows = true ∧
    (smallRows.coerce (rowsOf .i16)).coerce (rowsOf .i64) = smallRows.coerce (rowsOf .i64) := by
  have typed : smallRows.HasType Globals.empty (rowsOf .u8) := by
    refine .array fun row member => ?_
    simp only [List.mem_cons, List.not_mem_nil, or_false] at member
    rcases member with rfl | rfl
    · refine .array fun item member => ?_
      simp only [List.mem_cons, List.not_mem_nil, or_false] at member
      rcases member with rfl | rfl <;> exact .int rfl
    · exact .array nofun
  obtain ⟨widened, _, composed, _⟩ := coerce_safe Globals.empty
  obtain ⟨well_formed, text, equal, _⟩ := widened (rowsOf .i16) (rowsOf .u8) smallRows rfl typed
  refine ⟨well_formed trivial, text.trans rfl, equal.mpr fun nan => ?_, composed _ _ _ trivial rfl⟩
  cases nan with
  | item row nan =>
    simp only [List.mem_cons, List.not_mem_nil, or_false] at row
    rcases row with rfl | rfl
    · cases nan with
      | item member nan =>
        simp only [List.mem_cons, List.not_mem_nil, or_false] at member
        rcases member with rfl | rfl <;> cases nan
    · cases nan with
      | item member _ => cases member

end Value
end LoopLang
