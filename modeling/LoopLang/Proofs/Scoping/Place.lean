import LoopLang.Proofs.Execution.Creation
import LoopLang.Proofs.Tree.Nodes

namespace LoopLang

/-- From a piece of code to a part of it that is done on its own, or to what is left of it. -/
inductive Turn where
  | first
  | next
  | loop
  | pass
  | choose
  | condition
  | chosen
  | others
  | otherwise
  deriving DecidableEq, Repr

/-- The turns from the body of a function to a place in it, the last one in front. -/
abbrev Way := List Turn

namespace Task

def turn? : Task → Turn → Option Task
  | .block (s :: _), .first => some (.statement s)
  | .block (_ :: rest), .next => some (.block rest)
  | .statement (.loop _ body), .loop => some (.pass body)
  | .pass body, .pass => some (.block body)
  | .statement (.choose _ branch more last), .choose => some (.branches (branch :: more) last)
  | .branches (branch :: _) _, .condition => some (.value branch.condition)
  | .branches (branch :: _) _, .chosen => some (.block branch.body)
  | .branches (_ :: more) last, .others => some (.branches more last)
  | .branches [] (some body), .otherwise => some (.block body)
  | _, _ => none

def ids : Task → List NodeId
  | .block body | .pass body => Stmt.idsOf body
  | .statement s => s.ids
  | .branches choices last => Stmt.idsOfBranches choices ++ (last.map Stmt.idsOf).getD []
  | .value e => e.ids
  | _ => []

def types : Task → List Ty
  | .block body | .pass body => Stmt.typesOf body
  | .statement s => s.types
  | .branches choices last => Stmt.typesOfBranches choices ++ (last.map Stmt.typesOf).getD []
  | _ => []

structure Plain (task : Task) : Prop where
  distinct : task.ids.Nodup
  written : ∀ type ∈ task.types, type.Written

theorem Plain.turn {task next : Task} {t : Turn} (h : task.Plain)
    (turn : task.turn? t = some next) : next.Plain := by
  have parts : next.ids.Sublist task.ids ∧ next.types ⊆ task.types := by
    unfold turn? at turn
    split at turn <;> cases turn
    · exact ⟨List.sublist_append_left _ _, List.subset_append_left _ _⟩
    · exact ⟨List.sublist_append_right _ _, List.subset_append_right _ _⟩
    · exact ⟨.refl _, List.Subset.refl _⟩
    · exact ⟨.refl _, List.Subset.refl _⟩
    · rename_i last
      cases last <;> exact ⟨.refl _, List.Subset.refl _⟩
    · refine ⟨?_, List.nil_subset _⟩
      rw [ids, ids, Stmt.idsOfBranches, List.append_assoc, List.append_assoc]
      exact List.sublist_append_left _ _
    · rename_i branch more last
      refine ⟨?_, ?_⟩
      · rw [ids, ids, Stmt.idsOfBranches, List.append_assoc, List.append_assoc]
        exact (List.sublist_append_left _ _).trans (List.sublist_append_right _ _)
      · rw [types, types, Stmt.typesOfBranches, List.append_assoc]
        exact List.subset_append_left _ _
    · rename_i branch more last
      refine ⟨?_, ?_⟩
      · rw [ids, ids, Stmt.idsOfBranches, List.append_assoc]
        exact List.sublist_append_right _ _
      · rw [types, types, Stmt.typesOfBranches, List.append_assoc]
        exact List.subset_append_right _ _
    · exact ⟨.refl _, List.Subset.refl _⟩
  exact ⟨h.distinct.sublist parts.1, fun type member => h.written type (parts.2 member)⟩

end Task

/-- What brings a variable about: a parameter, counted from nought, or the declaration that the
    block at a place begins with. -/
inductive Origin where
  | parameter (number : Nat)
  | declaration (block : Way)
  deriving DecidableEq, Repr

namespace Stmt

def introduce {α : Type} (s : Stmt) (a : α) (scopes : Scopes α) : Scopes α :=
  match s.name? with
  | some name => (scopes.define? name a).getD scopes
  | none => scopes

theorem declared_of_name? {g : Globals} {names : Scopes Binding} {s : Stmt} (h : s.name? = none) :
    s.declared g names = names := by
  cases s <;> first | rfl | cases h

end Stmt

namespace Turn

variable {α β : Type} {R : α → β → Prop}

def scopes (declare : Stmt → Scopes α → Scopes α) (task : Task) (t : Turn) (before : Scopes α) :
    Scopes α :=
  match t, task with
  | .next, .block (s :: _) => declare s before
  | .loop, _ | .chosen, _ | .otherwise, _ => before.push
  | _, _ => before

theorem rel {task : Task} {t : Turn} {before : Scopes α} {other : Scopes β}
    {declare : Stmt → Scopes α → Scopes α} {declare' : Stmt → Scopes β → Scopes β}
    (h : Scopes.Rel R before other)
    (past : ∀ s rest, t = .next → task = .block (s :: rest) →
      Scopes.Rel R (declare s before) (declare' s other)) :
    Scopes.Rel R (t.scopes declare task before) (t.scopes declare' task other) := by
  unfold scopes
  split
  · rename_i s rest
    exact past s rest rfl rfl
  · exact h.push
  · exact h.push
  · exact h.push
  · exact h

end Turn

namespace Function

def codeAt (f : Function) : Way → Option Task
  | [] => some (.block f.body)
  | t :: way => (f.codeAt way).bind (·.turn? t)

/-- The variables in scope at the end of a way, by what has brought them about: the parameters, and
    what was declared before in the blocks around it. -/
def scopesAt (f : Function) : Way → Scopes Origin
  | [] => f.params.zipIdx.foldl (fun s (param, number) =>
      (s.define? param.name (.parameter number)).getD s) .empty
  | t :: way =>
    match f.codeAt way with
    | some task => t.scopes (fun s => s.introduce (.declaration way)) task (f.scopesAt way)
    | none => f.scopesAt way

theorem scopesAt_nil {α : Type} {R : Origin → α → Prop} (f : Function) (given : List α)
    (all : given.length = f.params.length)
    (related : ∀ number a, given[number]? = some a → R (.parameter number) a) :
    Scopes.Rel R (f.scopesAt []) ((f.params.zip given).foldl
      (fun s (param, a) => (s.define? param.name a).getD s) .empty) := by
  have entries : Frame.Rel R
      (f.params.zipIdx.map fun (param, number) => (param.name, .parameter number))
      ((f.params.zip given).map fun (param, a) => (param.name, a)) := by
    refine List.forall₂_of_length_eq_of_get (by simp [all]) fun i inside inside' => ?_
    have here : i < given.length := by simpa [all] using inside
    refine ⟨by simp, ?_⟩
    simpa using related i given[i] (List.getElem?_eq_getElem here)
  have bound := Scopes.Rel.foldl entries .empty
  rw [List.foldl_map, List.foldl_map] at bound
  exact bound

end Function
end LoopLang
