import LoopLang.Proofs.Execution.Runs
import LoopLang.Proofs.Scopes
import LoopLang.Proofs.Value.Operations

namespace LoopLang

/-- The types of the cells, one for each. Later cells come behind those before them. -/
abbrev CellTypes := List Ty

structure Stored (g : Globals) (d : CellTypes) (cells : Array Value) : Prop where
  size : d.length = cells.size
  typed : ∀ (cell : Nat) type, d[cell]? = some type →
    ∃ v : Value, cells[cell]? = some v ∧ v.HasType g type

def Denotes (g : Globals) (d : CellTypes) (b : Binding) (cell : CellId) : Prop :=
  d[cell]? = some b.type ∧ b.type.Known g

/-- The scopes of a run bind the names of the checker's scopes to cells of their types. -/
def Named (g : Globals) (d : CellTypes) : Scopes Binding → Scopes CellId → Prop :=
  Scopes.Rel (Denotes g d)

def Given (d : CellTypes) (params : List Param) (cells : List CellId) : Prop :=
  List.Forall₂ (fun param cell => d[cell]? = some param.type) params cells

variable {g : Globals} {d d' : CellTypes} {cells : Array Value} {cell : CellId} {v : Value}
  {type : Ty} {names names' : Scopes Binding} {scopes : Scopes CellId}

namespace Stored

theorem empty : Stored g [] #[] := ⟨rfl, nofun⟩

theorem push (h : Stored g d cells) (typed : v.HasType g type) :
    Stored g (d ++ [type]) (cells.push v) := by
  refine ⟨by simp [h.size], fun cell found lookup => ?_⟩
  have bound := (List.getElem?_eq_some_iff.mp lookup).1
  rw [List.length_append, List.length_singleton, h.size] at bound
  rw [Array.getElem?_push]
  by_cases new : cell = cells.size
  · rw [if_pos new]
    rw [new, ← h.size, List.getElem?_concat_length] at lookup
    cases lookup
    exact ⟨v, rfl, typed⟩
  · rw [if_neg new]
    rw [List.getElem?_append_left (by rw [h.size]; omega)] at lookup
    exact h.typed cell found lookup

theorem set (h : Stored g d cells) (lookup : d[cell]? = some type) (typed : v.HasType g type) :
    Stored g d (cells.setIfInBounds cell v) := by
  refine ⟨by simp [h.size], fun other found other_lookup => ?_⟩
  have bound := (List.getElem?_eq_some_iff.mp lookup).1
  rw [h.size] at bound
  rw [Array.getElem?_setIfInBounds]
  by_cases same : cell = other
  · subst same
    rw [if_pos rfl, if_pos bound]
    rw [lookup] at other_lookup
    cases other_lookup
    exact ⟨v, rfl, typed⟩
  · rw [if_neg same]
    exact h.typed other found other_lookup

end Stored

def Settled (g : Globals) (d : CellTypes) (m : Machine) : Prop :=
  Stored g d m.cells ∧ m.borrowed = []

namespace Settled

variable {m : Machine}

theorem free (h : Settled g d m) (cell : CellId) : cell ∉ m.borrowed := by
  rw [h.2]
  exact List.not_mem_nil

theorem load (h : Settled g d m) (lookup : d[cell]? = some type) :
    (m.load cell).HasType g type := by
  obtain ⟨v, found, typed⟩ := h.1.typed cell type lookup
  rw [Machine.load, found]
  exact typed

theorem store (h : Settled g d m) (lookup : d[cell]? = some type) (typed : v.HasType g type) :
    Settled g d (m.store cell v) := ⟨h.1.set lookup typed, h.2⟩

end Settled

theorem getElem?_of_grown (grown : d <+: d') (h : d[cell]? = some type) :
    d'[cell]? = some type := by
  obtain ⟨rest, rfl⟩ := grown
  have bound := (List.getElem?_eq_some_iff.mp h).1
  exact (List.getElem?_append_left bound).trans h

theorem Denotes.mono {b : Binding} (grown : d <+: d') (h : Denotes g d b cell) :
    Denotes g d' b cell := ⟨getElem?_of_grown grown h.1, h.2⟩

namespace Named

theorem mono (grown : d <+: d') (h : Named g d names scopes) : Named g d' names scopes :=
  Scopes.Rel.mono h fun _ _ denotes => denotes.mono grown

theorem lookup (h : Named g d names scopes) {name : String} {b : Binding}
    (bound : names.get? name = some b) :
    ∃ cell, scopes.get? name = some cell ∧ Denotes g d b cell := by
  have related := h.get? name
  rw [bound] at related
  generalize scopes.get? name = found at related
  cases related with
  | some denotes => exact ⟨_, rfl, denotes⟩

theorem free (h : Named g d names scopes) {name : String} (free : names.get? name = none) :
    scopes.get? name = none := by
  have related := h.get? name
  rw [free] at related
  generalize scopes.get? name = found at related
  cases related
  rfl

theorem define (h : Named g d names scopes) {name : String} {b : Binding}
    (defined : names.define? name b = some names') (denotes : Denotes g d b cell) :
    ∃ scopes', scopes.define? name cell = some scopes' ∧ Named g d names' scopes' := by
  have related := h.define? denotes name
  rw [defined] at related
  generalize scopes.define? name cell = found at related
  cases related with
  | some named => exact ⟨_, rfl, named⟩

theorem ofArguments {params : List Param} {cells : List CellId}
    (given : Given d params cells)
    (known : ∀ param ∈ params, param.type.Known g) :
    Named g d (Scopes.ofParams params) (Scopes.ofArguments params cells) := by
  have entries : Frame.Rel (Denotes g d)
      (params.map fun param => (param.name, Scopes.ofParam param))
      ((params.zip cells).map fun pair => (pair.1.name, pair.2)) := by
    induction given with
    | nil => exact .nil
    | cons lookup _ ih =>
      obtain ⟨first, rest⟩ := List.forall_mem_cons.mp known
      exact .cons ⟨rfl, lookup, first⟩ (ih rest)
  have bound := Scopes.Rel.foldl entries .empty
  rw [List.foldl_map, List.foldl_map] at bound
  exact bound

end Named

namespace Stop

def Ordinary : Stop → Prop
  | fault f => f.Ordinary
  | outOfFuel => True

end Stop

namespace Run

/-- Whatever the computation does to a machine whose cells hold values of the types `d`: it may
    add cells, the values keep to the types of the cells, and it ends with something that
    satisfies `post`, or else it stops for an ordinary reason. -/
def Safe {α : Type} (g : Globals) (d : CellTypes) (x : Run α) (m : Machine)
    (post : CellTypes → α → Machine → Prop) : Prop :=
  match x m with
  | .ok a m' => ∃ d', d <+: d' ∧ Settled g d' m' ∧ post d' a m'
  | .error stop m' => stop.Ordinary ∧ ∃ d', d <+: d' ∧ Settled g d' m'

variable {α β : Type} {m : Machine} {P : CellTypes → α → Machine → Prop}
  {post : CellTypes → β → Machine → Prop}

theorem Safe.pure {b : β} (stored : Settled g d m) (h : post d b m) :
    Safe g d (pure b) m post := ⟨d, List.prefix_rfl, stored, h⟩

theorem Safe.bind {x : Run α} {f : α → Run β} (first : Safe g d x m P)
    (second : ∀ d' a m', d <+: d' → Settled g d' m' → P d' a m' →
      Safe g d' (f a) m' post) : Safe g d (x >>= f) m post := by
  unfold Safe at first ⊢
  cases run : x m with
  | error stop m' =>
    rw [run] at first
    rw [bind_of_error run]
    exact first
  | ok a m' =>
    rw [run] at first
    rw [bind_of_ok run]
    obtain ⟨d1, grown, stored, holds⟩ := first
    have rest := second d1 a m' grown stored holds
    unfold Safe at rest
    split at rest
    · obtain ⟨d2, more, stored2, ends⟩ := rest
      exact ⟨d2, grown.trans more, stored2, ends⟩
    · obtain ⟨ordinary, d2, more, stored2⟩ := rest
      exact ⟨ordinary, d2, grown.trans more, stored2⟩

theorem Safe.ok {x : Run β} {b : β} {m' : Machine} (h : Safe g d x m post)
    (ran : x m = .ok b m') : ∃ d', d <+: d' ∧ Settled g d' m' ∧ post d' b m' := by
  unfold Safe at h
  rw [ran] at h
  exact h

theorem Safe.final {x : Run β} (h : Safe g d x m post) :
    ∃ d', d <+: d' ∧ Settled g d' (x.final m) := by
  unfold Safe at h
  unfold Run.final
  cases ran : x m with
  | error stop m' =>
    rw [ran] at h
    exact h.2
  | ok b m' =>
    rw [ran] at h
    obtain ⟨d', grown, stored, _⟩ := h
    exact ⟨d', grown, stored⟩

theorem Safe.mono {x : Run β} {Q : CellTypes → β → Machine → Prop} (h : Safe g d x m Q)
    (imp : ∀ d' b m', d <+: d' → Q d' b m' → post d' b m') : Safe g d x m post := by
  unfold Safe at h ⊢
  split at h
  · obtain ⟨d', grown, stored, holds⟩ := h
    exact ⟨d', grown, stored, imp d' _ _ grown holds⟩
  · exact h

theorem Safe.outOfFuel (stored : Settled g d m) :
    Safe g d (throw .outOfFuel : Run β) m post := ⟨trivial, d, List.prefix_rfl, stored⟩

theorem Safe.fail {fault : Fault} (ordinary : fault.Ordinary) (stored : Settled g d m) :
    Safe g d (Run.fail fault : Run β) m post := ⟨ordinary, d, List.prefix_rfl, stored⟩

theorem Safe.lift {x : Except Fault β} (stored : Settled g d m)
    (answers : Answers x fun b => post d b m) : Safe g d (Run.lift x) m post := by
  cases x with
  | error fault => exact Safe.fail answers stored
  | ok b => exact Safe.pure stored answers

theorem Safe.lift_bind {x : Except Fault α} {f : α → Run β} {N : α → Prop}
    (stored : Settled g d m) (answers : Answers x N)
    (rest : ∀ a, N a → Safe g d (f a) m post) : Safe g d (Run.lift x >>= f) m post := by
  cases x with
  | error fault => exact Safe.fail answers stored
  | ok a => exact rest a answers

theorem Safe.get_bind {f : Machine → Run β} (rest : Safe g d (f m) m post) :
    Safe g d (get >>= f) m post := rest

theorem Safe.fetch_bind {f : Value → Run β} {position : Position} (stored : Settled g d m)
    (rest : Safe g d (f (m.load cell)) m post) :
    Safe g d (Run.fetch cell position >>= f) m post := by
  unfold Safe
  rw [bind_of_ok (fetch_of_free position (stored.free cell))]
  exact rest

theorem Safe.change {act : Value → Except Fault (β × Value)} {N : β → Prop} {position : Position}
    (stored : Settled g d m) (lookup : d[cell]? = some type)
    (answers : Answers (act (m.load cell)) fun done => N done.1 ∧ done.2.HasType g type)
    (ends : ∀ b v, N b → post d b (m.store cell v)) :
    Safe g d (Run.change cell position act) m post := by
  unfold Safe
  cases done : act (m.load cell) with
  | error fault =>
    rw [done] at answers
    rw [change_of_error position (stored.free cell) done]
    exact ⟨answers, d, List.prefix_rfl, stored⟩
  | ok pair =>
    obtain ⟨b, v⟩ := pair
    rw [done] at answers
    obtain ⟨holds, typed⟩ := answers
    rw [change_of_ok position (stored.free cell) done]
    exact ⟨d, List.prefix_rfl, stored.store lookup typed, ends b v holds⟩

theorem Safe.cellOf_bind {f : CellId → Run β} {name : String} {position : Position} {b : Binding}
    (named : Named g d names m.scopes) (bound : names.get? name = some b)
    (rest : ∀ cell, Denotes g d b cell → Safe g d (f cell) m post) :
    Safe g d (Run.cellOf name position >>= f) m post := by
  obtain ⟨cell, found, denotes⟩ := named.lookup bound
  unfold Safe
  rw [bind_of_ok (cellOf_of_get? position found)]
  exact rest cell denotes

theorem Safe.newCell (stored : Settled g d m) (typed : v.HasType g type) :
    Safe g d (Run.newCell v) m fun d' cell m' =>
      d'[cell]? = some type ∧ m'.scopes = m.scopes := by
  refine ⟨d ++ [type], List.prefix_append d [type], ⟨stored.1.push typed, stored.2⟩, ?_, rfl⟩
  change (d ++ [type])[m.cells.size]? = some type
  rw [← stored.1.size]
  exact List.getElem?_concat_length

theorem Safe.define {name : String} {position : Position} {b : Binding}
    (stored : Settled g d m) (named : Named g d names m.scopes)
    (defined : names.define? name b = some names') (typed : v.HasType g b.type)
    (known : b.type.Known g) :
    Safe g d (Run.define name v position) m fun d' _ m' => Named g d' names' m'.scopes := by
  apply (Safe.newCell stored typed).bind
  intro d1 cell m1 grown stored1 ends1
  obtain ⟨lookup, same⟩ := ends1
  obtain ⟨scopes', found, named'⟩ := (named.mono grown).define defined ⟨lookup, known⟩
  apply Safe.get_bind
  rw [same, found]
  exact ⟨d1, List.prefix_rfl, stored1, named'⟩

theorem Safe.inFrame {body : Run β}
    (h : Safe g d body { m with scopes := m.scopes.push } fun d' b m' =>
      post d' b { m' with scopes := m'.scopes.pop }) : Safe g d (Run.inFrame body) m post := by
  unfold Safe Run.inFrame at *
  cases ran : body { m with scopes := m.scopes.push } with
  | ok b m' =>
    rw [ran] at h
    exact h
  | error stop m' =>
    rw [ran] at h
    exact h

theorem Safe.inCall {body : Run β} {scopes : Scopes CellId}
    (h : Safe g d body { m with scopes, depth := m.depth + 1 } fun d' b m' =>
      post d' b { m' with scopes := m.scopes, depth := m.depth }) :
    Safe g d (Run.inCall scopes body) m post := by
  unfold Safe Run.inCall at *
  dsimp only
  cases ran : body { m with scopes, depth := m.depth + 1 } with
  | ok b m' =>
    rw [ran] at h
    exact h
  | error stop m' =>
    rw [ran] at h
    exact h

end Run
end LoopLang
