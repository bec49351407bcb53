import LoopLang.Proofs.Execution.Caller
import LoopLang.Proofs.Execution.Renaming

namespace LoopLang

def Run.result {α : Type} (x : Run α) (m : Machine) : Except Stop α :=
  match x m with
  | .ok a _ => .ok a
  | .error stop _ => .error stop

namespace Run.Alike

variable {α : Type} {old old' : Array Line} {ρ : CellPairs} {m m' : Machine} {x y : Run α}
  {post : CellPairs → α → α → Machine → Machine → Prop}

theorem result_eq (h : Alike old old' ρ x y m m' post)
    (imp : ∀ ρ' a b n n', post ρ' a b n n' → a = b) : x.result m = y.result m' := by
  unfold Alike at h
  unfold result
  split at h
  · rename_i left right
    obtain ⟨ρ1, _, _, ends⟩ := h
    rw [left, right, imp _ _ _ _ _ ends]
  · rename_i left right
    obtain ⟨same, _⟩ := h
    rw [left, right, same]
  · exact h.elim

theorem final_shared (h : Alike old old' ρ x y m m' post) :
    ∃ ρ', ρ ⊆ ρ' ∧ Shared old old' ρ' (x.final m) (y.final m') := by
  unfold Alike at h
  unfold final
  split at h
  · rename_i left right
    obtain ⟨ρ1, grown, shared, _⟩ := h
    rw [left, right]
    exact ⟨ρ1, grown, shared⟩
  · rename_i left right
    obtain ⟨_, ρ1, grown, shared⟩ := h
    rw [left, right]
    exact ⟨ρ1, grown, shared⟩
  · exact h.elim

end Run.Alike

def SameContents (m m' : Machine) (cells cells' : List CellId) : Prop :=
  List.Forall₂ (fun a b => ∃ v, m.cells[a]? = some v ∧ m'.cells[b]? = some v) cells cells'

/-- Two places of the one list are the same cell if and only if they are in the other one. -/
def SameSharing (cells cells' : List CellId) : Prop :=
  ∀ i j : Nat, cells[i]? = cells[j]? ↔ cells'[i]? = cells'[j]?

variable {m m' : Machine} {cells cells' : List CellId}

theorem getElem?_of_mem_zip {a b : CellId} (member : (a, b) ∈ cells.zip cells') :
    ∃ i : Nat, cells[i]? = some a ∧ cells'[i]? = some b := by
  obtain ⟨i, found⟩ := List.getElem?_of_mem member
  exact ⟨i, List.getElem?_zip_eq_some.mp found⟩

theorem Shared.ofArguments (free : m.borrowed = [] ∧ m'.borrowed = [])
    (depth : m.depth = m'.depth) (contents : SameContents m m' cells cells')
    (sharing : SameSharing cells cells') :
    Shared m.lines m'.lines (cells.zip cells') m m' := by
  refine ⟨fun a b c first second => ?_, fun a b c first second => ?_, fun a b pair => ?_,
    free, depth, #[], by simp, by simp⟩
  · obtain ⟨i, left, right⟩ := getElem?_of_mem_zip first
    obtain ⟨j, left', right'⟩ := getElem?_of_mem_zip second
    have same := (sharing i j).mp (left.trans left'.symm)
    rw [right, right'] at same
    exact Option.some.inj same
  · obtain ⟨i, left, right⟩ := getElem?_of_mem_zip first
    obtain ⟨j, left', right'⟩ := getElem?_of_mem_zip second
    have same := (sharing i j).mpr (right.trans right'.symm)
    rw [left, left'] at same
    exact Option.some.inj same
  · exact (List.forall₂_iff_zip.mp contents).2 pair

namespace Program

variable {p : Program} {source : String} {pt pt' : Point}

theorem Reached.free (typed : p.Typed) (reached : p.Reached pt) : pt.machine.borrowed = [] := by
  obtain ⟨d, fine, _⟩ := reached.fine typed
  exact fine.1.2

end Program
end LoopLang
