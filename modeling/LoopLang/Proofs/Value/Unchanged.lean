import LoopLang.Execution.Operation
import LoopLang.Proofs.Related
import LoopLang.Value.Path

namespace LoopLang

namespace Value

theorem insertField_of_lookup {fields : List (String × Value)} {name : String} {v : Value}
    (h : fields.lookup name = some v) : insertField name v fields = fields := by
  induction fields with
  | nil => cases h
  | cons field fields ih =>
    obtain ⟨other, w⟩ := field
    rw [List.lookup_cons] at h
    rw [insertField]
    split
    · rename_i same
      rw [same, beq_self_eq_true] at h
      cases h
      rw [same]
    · rename_i different
      have apart : (name == other) = false := beq_eq_false_iff_ne.mpr (Ne.symm different)
      rw [apart] at h
      rw [ih h]

theorem set_itemAt {items : List Value} {i : Int} {position : Position} {item : Value}
    (h : itemAt items i position = .ok item) : items.set i.toNat item = items := by
  unfold itemAt at h
  split at h
  · cases h
    exact List.set_getElem_self _
  · cases h

theorem update_eq_self {α : Type} {act : Value → Except Fault (α × Value)} {a : α}
    {v v' : Value} {path : List PathStep}
    (keeps : ∀ v a v', act v = .ok (a, v') → v' = v) (h : v.update act path = .ok (a, v')) :
    v' = v := by
  fun_induction update act v path generalizing a v' with
  | case1 v => exact keeps v a v' h
  | case2 name fields member position path w found ih =>
    obtain ⟨⟨b, w'⟩, inner, h⟩ := exists_of_bind h
    cases h
    rw [ih inner, insertField_of_lookup found]
  | case3 => cases h
  | case4 element items i position path ih =>
    obtain ⟨item, picked, h⟩ := exists_of_bind h
    obtain ⟨⟨b, item'⟩, inner, h⟩ := exists_of_bind h
    cases h
    rw [ih item inner, set_itemAt picked]
  | case5 s i position =>
    obtain ⟨item, _, h⟩ := exists_of_bind h
    obtain ⟨_, _, h⟩ := exists_of_bind h
    cases h
    rfl
  | case6 => cases h

end Value

namespace Method

variable {v v' : Value} {name : String} {args : List Value} {position : Position}
  {result : Option Value} {m : Method}

theorem name_of_ofValue? (h : ofValue? v name = some m) : m.name = name := by
  unfold ofValue? at h
  split at h
  · unfold ofArray? at h
    split at h <;> cases h <;> rfl
  · obtain ⟨t, _, h⟩ := Option.bind_eq_some_iff.mp h
    unfold ofPrimitive? at h
    split at h <;> cases h <;> rfl

theorem apply_eq_self (looks : m.mutates = false)
    (h : m.apply v args position = .ok (result, v')) : v' = v := by
  unfold apply at h
  split at h
  · cases looks
  · obtain ⟨_, _, h⟩ := exists_of_bind h
    cases h
    rfl
  · obtain ⟨_, _, h⟩ := exists_of_bind h
    cases h
    rfl
  all_goals
    cases h
    try rfl

theorem call_eq_self (looks : ∀ m : Method, m.name = name → m.mutates = false)
    (h : call name args position v = .ok (result, v')) : v' = v := by
  unfold call at h
  split at h
  · rename_i m found
    exact apply_eq_self (looks m (name_of_ofValue? found)) h
  · cases h

end Method
end LoopLang
