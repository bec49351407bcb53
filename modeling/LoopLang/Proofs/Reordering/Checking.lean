import Mathlib.Data.List.Perm.Basic
import LoopLang.Proofs.Typing.Containment
import LoopLang.Proofs.Typing.Separate

namespace LoopLang

variable {r : Relabelling} {g g' resolved : Globals}

theorem find?_eq_of_perm {α : Type} {key : α → String} {as bs : List α} (same : as.Perm bs)
    (distinct : (bs.map key).Nodup) (name : String) :
    as.find? (key · == name) = bs.find? (key · == name) := by
  cases found : as.find? (key · == name) with
  | none =>
    rw [List.find?_eq_none] at found
    exact (List.find?_eq_none.mpr fun b member => found b (same.mem_iff.mpr member)).symm
  | some a =>
    have here := same.mem_iff.mp (List.mem_of_find?_eq_some found)
    have named := List.find?_some found
    cases again : bs.find? (key · == name) with
    | none => exact absurd named (List.find?_eq_none.mp again a here)
    | some b =>
      have there := List.mem_of_find?_eq_some again
      have alike := List.find?_some again
      rw [beq_iff_eq] at named alike
      rw [List.inj_on_of_nodup_map distinct here there (named.trans alike.symm)]

theorem find?_of_perm_map {α : Type} {key : α → String} {act : α → α} {as bs : List α}
    (same : bs.Perm (as.map act)) (distinct : (as.map key).Nodup)
    (keeps : ∀ a, key (act a) = key a) (name : String) :
    bs.find? (key · == name) = (as.find? (key · == name)).map act := by
  have keys : key ∘ act = key := funext keeps
  have distinct_there : ((as.map act).map key).Nodup := by rwa [List.map_map, keys]
  rw [find?_eq_of_perm same distinct_there, List.find?_map]
  congr 2
  funext a
  exact congrArg (· == name) (keeps a)

namespace Globals

structure Distinct (g : Globals) : Prop where
  functions : (g.functions.map Function.name).Nodup
  structs : (g.structs.map Struct.name).Nodup
  enums : (g.enums.map Enum.name).Nodup

structure Reordered (r : Relabelling) (g g' : Globals) : Prop where
  functions : g'.functions.Perm (g.functions.map (Function.relabelled r))
  structs : g'.structs.Perm (g.structs.map (Struct.relabelled r))
  enums : g'.enums.Perm (g.enums.map (Enum.moved r.place))

theorem Reordered.matches (same : g.Reordered r g') (distinct : g.Distinct) : g.Matches r g' where
  function? := find?_of_perm_map same.functions distinct.functions fun _ => rfl
  struct? := find?_of_perm_map same.structs distinct.structs fun _ => rfl
  enum? := find?_of_perm_map same.enums distinct.enums fun _ => rfl
  count := by rw [same.structs.length_eq, List.length_map]

end Globals

theorem Function.PassesWith.relabelled {f : Function} {noted : TypeTable}
    (own : f.PassesWith g noted) (same : g.Matches r g') (injective : r.number.Injective) :
    ∃ types : TypeTable, (f.relabelled r).PassesWith g' types ∧
      ∀ id, types[r.number id]? = noted[id]? := by
  obtain ⟨types, passes, joined⟩ := own.onto same injective ∅
  refine ⟨types, passes, fun id => ?_⟩
  rw [joined]
  exact Option.or_none

theorem Struct.PassesAs.relabelled {s resolved : Struct} {noted : TypeTable}
    (own : s.PassesAs g resolved noted) (same : g.Matches r g') (injective : r.number.Injective) :
    ∃ types : TypeTable, (s.relabelled r).PassesAs g' (resolved.relabelled r) types ∧
      ∀ id, types[r.number id]? = noted[id]? := by
  obtain ⟨types, passes, joined⟩ := own.onto same injective ∅
  refine ⟨types, passes, fun id => ?_⟩
  rw [joined]
  exact Option.or_none

namespace Struct

theorem contains_iff (same : g.Matches r g') {outer inner : String} :
    Contains g'.structs outer inner ↔ Contains g.structs outer inner := by
  have found : g'.structs.find? (·.name == outer) =
      (g.structs.find? (·.name == outer)).map (Struct.relabelled r) := same.struct? outer
  unfold Contains
  rw [found]
  cases g.structs.find? (·.name == outer) with
  | none => simp
  | some s => simp [Struct.relabelled, Member.relabelled]

theorem name_of_passes {s s' : Struct} {noted : TypeTable} (h : s.PassesAs g s' noted) :
    s'.name = s.name := by
  obtain ⟨⟨members, c⟩, _, made⟩ := exists_of_bind h
  cases made
  rfl

end Struct

namespace Globals

theorem Passes.distinct (passes : g.Passes resolved) (distinct : g.Distinct) :
    resolved.Distinct where
  functions := by
    have names : resolved.functions.map Function.name = g.functions.map Function.name :=
      map_eq_of_forall₂ passes.heads fun _ _ head => Function.name_of_resolve head
    exact names ▸ distinct.functions
  structs := by
    have names : resolved.structs.map Struct.name = g.structs.map Struct.name :=
      map_eq_of_forall₂ passes.structs fun _ _ ⟨_, own⟩ => Struct.name_of_passes own
    exact names ▸ distinct.structs
  enums := passes.enums ▸ distinct.enums

theorem Passes.reordered (passes : g.Passes resolved) (same : g.Reordered r g')
    (distinct : g.Distinct) (injective : r.number.Injective) :
    ∃ resolved', g'.Passes resolved' ∧ resolved.Reordered r resolved' := by
  have alike := same.matches distinct
  have structs : List.Forall₂ (fun s s' => ∃ noted, s.PassesAs g' s' noted)
      (g.structs.map (Struct.relabelled r)) (resolved.structs.map (Struct.relabelled r)) := by
    rw [List.forall₂_map_left_iff, List.forall₂_map_right_iff]
    refine passes.structs.imp fun s s' ⟨noted, own⟩ => ?_
    obtain ⟨types, passes, _⟩ := own.relabelled alike injective
    exact ⟨types, passes⟩
  have heads : List.Forall₂ (fun f f' => f.resolve g' = .ok f')
      (g.functions.map (Function.relabelled r))
      (resolved.functions.map (Function.relabelled r)) := by
    rw [List.forall₂_map_left_iff, List.forall₂_map_right_iff]
    refine passes.heads.imp fun f f' head => ?_
    rw [Function.resolve_relabelled alike, head]
    rfl
  obtain ⟨structs', passes', structs_same⟩ := List.perm_comp_forall₂ same.structs structs
  obtain ⟨functions', heads', functions_same⟩ := List.perm_comp_forall₂ same.functions heads
  have reordered : resolved.Reordered r ⟨functions', structs', g'.enums⟩ :=
    ⟨functions_same, structs_same, passes.enums ▸ same.enums⟩
  have found := reordered.matches (passes.distinct distinct)
  refine ⟨⟨functions', structs', g'.enums⟩, ⟨passes', ?_, heads', ?_, rfl⟩, reordered⟩
  · rw [Struct.inItself?_congr fun _ _ => Struct.contains_iff found]
    exact passes.grounded
  · intro f' member
    obtain ⟨f, own, rfl⟩ := List.mem_map.mp (functions_same.mem_iff.mp member)
    obtain ⟨noted, alone⟩ := passes.bodies f own
    obtain ⟨types, again, _⟩ := alone.relabelled found injective
    exact ⟨types, again⟩

theorem Passes.notes_iff (passes : g.Passes resolved) {resolved' : Globals}
    (same : g.Reordered r g') (resolves : resolved.Reordered r resolved') (distinct : g.Distinct)
    (injective : r.number.Injective) (id : NodeId) (type : Ty) :
    g'.Notes resolved' (r.number id) type ↔ g.Notes resolved id type := by
  have alike := same.matches distinct
  have found := resolves.matches (passes.distinct distinct)
  have struct (s : Struct) (member : s ∈ g.structs) :
      (s.relabelled r).Notes g' (r.number id) type ↔ s.Notes g id type := by
    obtain ⟨s', _, noted, own⟩ := exists_of_forall₂ passes.structs.flip s member
    obtain ⟨types, again, types_same⟩ := own.relabelled alike injective
    rw [again.notes_iff, own.notes_iff, types_same]
  have body (f : Function) (member : f ∈ resolved.functions) :
      (f.relabelled r).Notes resolved' (r.number id) type ↔ f.Notes resolved id type := by
    obtain ⟨noted, own⟩ := passes.bodies f member
    obtain ⟨types, again, types_same⟩ := own.relabelled found injective
    rw [again.notes_iff, own.notes_iff, types_same]
  simp only [Notes, same.structs.mem_iff, resolves.functions.mem_iff, List.mem_map,
    exists_exists_and_eq_and]
  exact or_congr (exists_congr fun s => and_congr_right (struct s))
    (exists_congr fun f => and_congr_right (body f))

end Globals
namespace Program

/-- In another order and with other labels a program passes as it does, and corresponding nodes get
    the same types. -/
theorem check_reordered {count count' : Nat} (written : g.Written count)
    (written' : g'.Written count') (distinct : g.Distinct) (same : g.Reordered r g')
    (injective : r.number.Injective) {p : Program} (checked : check g = .ok p) :
    ∃ p', check g' = .ok p' ∧ p.globals.Reordered r p'.globals ∧
      ∀ id, p'.types[r.number id]? = p.types[id]? := by
  obtain ⟨passes, noted⟩ := passes_of_check written checked
  obtain ⟨resolved', passes', reordered⟩ := passes.reordered same distinct injective
  obtain ⟨types, checked'⟩ := check_of_passes passes'
  obtain ⟨_, noted'⟩ := passes_of_check written' checked'
  refine ⟨_, checked', reordered, fun id => Option.ext fun type => ?_⟩
  rw [noted', noted, passes.notes_iff same reordered distinct injective]
  rfl

end Program
end LoopLang
