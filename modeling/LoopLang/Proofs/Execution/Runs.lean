import LoopLang.Execution.Machine

namespace LoopLang.Machine

theorem store_load (m : Machine) (cell : CellId) : m.store cell (m.load cell) = m := by
  have same : m.cells.setIfInBounds cell (m.load cell) = m.cells := by
    refine Array.ext (by simp) fun i before within => ?_
    rw [Array.getElem_setIfInBounds within]
    split
    · rename_i here
      subst here
      simp [load, within]
    · rfl
  rw [store, same]

end LoopLang.Machine

namespace LoopLang.Run

variable {α β : Type} {m m' : Machine}

def final (x : Run α) (m : Machine) : Machine :=
  match x m with
  | .ok _ m' | .error _ m' => m'

theorem bind_of_ok {x : Run α} {f : α → Run β} {a : α} (h : x m = .ok a m') :
    (x >>= f) m = f a m' := by
  change EStateM.bind x f m = _
  rw [EStateM.bind, h]

theorem bind_of_error {x : Run α} {f : α → Run β} {stop : Stop} (h : x m = .error stop m') :
    (x >>= f) m = .error stop m' := by
  change EStateM.bind x f m = _
  rw [EStateM.bind, h]

theorem exists_of_bind_ok {x : Run α} {f : α → Run β} {b : β} (h : (x >>= f) m = .ok b m') :
    ∃ a m1, x m = .ok a m1 ∧ f a m1 = .ok b m' := by
  cases run : x m with
  | error stop m1 =>
    rw [bind_of_error run] at h
    cases h
  | ok a m1 =>
    rw [bind_of_ok run] at h
    exact ⟨a, m1, rfl, h⟩

/-- What comes after a computation may be no more than a look at its result. -/
theorem final_bind {x : Run α} {f : α → Run β} (looks : ∀ a m', (f a).final m' = m') :
    (x >>= f).final m = x.final m := by
  unfold final
  cases run : x m with
  | error stop m' => rw [bind_of_error run]
  | ok a m' =>
    rw [bind_of_ok run]
    exact looks a m'

theorem final_inCall (scopes : Scopes CellId) (body : Run α) :
    (inCall scopes body).final m = { body.final { m with scopes, depth := m.depth + 1 } with
      scopes := m.scopes, depth := m.depth } := by
  unfold final inCall
  dsimp only
  cases body { m with scopes, depth := m.depth + 1 } <;> rfl

theorem lift_ok_bind (a : α) (f : α → Run β) : (lift (.ok a) >>= f) = f a := rfl

theorem get_bind (f : Machine → Run α) : (get >>= f) m = f m m := rfl

theorem newCell_eq (v : Value) :
    newCell v m = .ok m.cells.size { m with cells := m.cells.push v } := rfl

theorem cellOf_of_get? {name : String} {cell : CellId} (position : Position)
    (h : m.scopes.get? name = some cell) : cellOf name position m = .ok cell m := by
  rw [cellOf, get_bind, h]
  rfl

theorem cellOf_of_free {name : String} (position : Position)
    (h : m.scopes.get? name = none) :
    cellOf name position m = .error (.fault (.internal (.unknownVariable name) position)) m := by
  rw [cellOf, get_bind, h]
  rfl

theorem define_of_some {name : String} {scopes : Scopes CellId} (v : Value)
    (position : Position) (h : m.scopes.define? name m.cells.size = some scopes) :
    define name v position m = .ok () { m with cells := m.cells.push v, scopes } := by
  rw [define, bind_of_ok (newCell_eq v), get_bind, h]
  rfl

theorem define_of_none {name : String} (v : Value) (position : Position)
    (h : m.scopes.define? name m.cells.size = none) :
    define name v position m = .error (.fault (.internal (.redefined name) position))
      { m with cells := m.cells.push v } := by
  rw [define, bind_of_ok (newCell_eq v), get_bind, h]
  rfl

theorem fetch_of_free {cell : CellId} (position : Position) (free : cell ∉ m.borrowed) :
    fetch cell position m = .ok (m.load cell) m := by
  rw [fetch, get_bind, if_neg free]
  rfl

theorem fetch_of_borrowed {cell : CellId} (position : Position) (held : cell ∈ m.borrowed) :
    fetch cell position m = .error (.fault (.internal .borrowed position)) m := by
  rw [fetch, get_bind, if_pos held]
  rfl

variable {cell : CellId} {act : Value → Except Fault (α × Value)}

theorem change_of_ok {a : α} {v : Value} (position : Position) (free : cell ∉ m.borrowed)
    (h : act (m.load cell) = .ok (a, v)) :
    change cell position act m = .ok a (m.store cell v) := by
  rw [change, bind_of_ok (fetch_of_free position free), h]
  rfl

theorem change_of_error {fault : Fault} (position : Position) (free : cell ∉ m.borrowed)
    (h : act (m.load cell) = .error fault) :
    change cell position act m = .error (.fault fault) m := by
  rw [change, bind_of_ok (fetch_of_free position free), h]
  rfl

theorem change_of_borrowed (position : Position) (held : cell ∈ m.borrowed) :
    change cell position act m = .error (.fault (.internal .borrowed position)) m := by
  rw [change, bind_of_error (fetch_of_borrowed position held)]

end LoopLang.Run
