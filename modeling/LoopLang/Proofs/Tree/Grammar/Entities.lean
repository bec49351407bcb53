import LoopLang.Proofs.Tree.Grammar.Derivation

namespace LoopLang

open Grammar (Entity Kind)

/-- What a member or entry belongs to, and what else is something of its own. -/
def Grammar.Entity.whole : Entity → Entity
  | .part owner _ => .type owner
  | entity => entity

namespace Definition

def name : Definition → String
  | function f => f.name
  | struct s => s.name
  | enum e => e.name

def entity : Definition → Entity
  | function f => .function f.name
  | struct s => .type s.name
  | enum e => .type e.name

def parts : Definition → List String
  | function _ => []
  | struct s => s.members.map Member.name
  | enum e => e.entries

def entities (d : Definition) : List Entity := d.entity :: d.parts.map (.part d.name)

theorem whole_of_mem {d : Definition} {e : Entity} (member : e ∈ d.entities) :
    e.whole = d.entity := by
  rcases List.mem_cons.mp member with rfl | own
  · cases d <;> rfl
  · obtain ⟨part, among, rfl⟩ := List.mem_map.mp own
    cases d with
    | function f => cases among
    | struct s | enum e => rfl

/-- Definitions have something in common just if both are named alike and for the same purpose. -/
theorem disjoint_iff {d d' : Definition} :
    d.entities.Disjoint d'.entities ↔ d.entity ≠ d'.entity := by
  constructor
  · intro apart same
    exact apart List.mem_cons_self (same ▸ List.mem_cons_self)
  · intro other e here there
    exact other ((whole_of_mem here).symm.trans (whole_of_mem there))

theorem nodup_entities {d : Definition} : d.entities.Nodup ↔ d.parts.Nodup := by
  rw [entities, List.nodup_cons]
  constructor
  · exact fun h => h.2.of_map _
  · intro h
    refine ⟨?_, h.map fun a b same => ?_⟩
    · cases d <;> simp [entity]
    · cases same
      rfl

end Definition

theorem Grammar.entities_parts (owner : String) (parts : List String)
    (names : List (Kind × String)) :
    entities owner (Parse.partNames parts ++ names) =
      parts.map (.part owner) ++ entities owner names := by
  induction parts with
  | nil => rfl
  | cons part parts ih => exact congrArg (Entity.part owner part :: ·) ih

theorem Definition.entities_names (ds : List Definition) (owner : String) :
    Grammar.entities owner (ds.flatMap names) = ds.flatMap entities := by
  induction ds generalizing owner with
  | nil => rfl
  | cons d ds ih =>
    rw [List.flatMap_cons, List.flatMap_cons]
    cases d with
    | function f => exact congrArg (Entity.function f.name :: ·) (ih owner)
    | struct s =>
      rw [names, List.cons_append, Grammar.entities, Grammar.entities_parts, ih]
      rfl
    | enum e =>
      rw [names, List.cons_append, Grammar.entities, Grammar.entities_parts, ih]
      rfl

namespace Globals

theorem firstRepeated?_eq_none {α : Type} {key : α → String} {earlier : List String} {xs : List α}
    (distinct : (xs.map key).Nodup) (apart : ∀ x ∈ xs, key x ∉ earlier) :
    firstRepeated? key earlier xs = none := by
  induction xs generalizing earlier with
  | nil => rfl
  | cons x xs ih =>
    rw [List.map_cons, List.nodup_cons] at distinct
    obtain ⟨new, others⟩ := List.forall_mem_cons.mp apart
    rw [firstRepeated?, if_neg (by simpa using new)]
    refine ih distinct.2 fun y member repeated => ?_
    rcases List.mem_cons.mp repeated with same | before
    · exact distinct.1 (same ▸ List.mem_map_of_mem member)
    · exact others y member before

theorem firstRepeated?_eq_none_iff {α : Type} {key : α → String} {xs : List α} :
    firstRepeated? key [] xs = none ↔ (xs.map key).Nodup :=
  ⟨fun h => (distinct_of_firstRepeated? h).1, fun h => firstRepeated?_eq_none h (by simp)⟩

variable {g g' : Globals} {d : Definition} {ds : List Definition}

theorem function?_isSome {name : String} :
    (g.function? name).isSome ↔ .function name ∈ g.byKind.map Definition.entity := by
  simp [byKind, function?, Definition.entity]

theorem definesType_iff {name : String} :
    g.definesType name ↔ .type name ∈ g.byKind.map Definition.entity := by
  simp [byKind, definesType, struct?, enum?, Definition.entity]

theorem add_iff :
    (∃ g', g.add d = .ok g') ↔ d.entity ∉ g.byKind.map Definition.entity ∧ d.entities.Nodup := by
  rw [Definition.nodup_entities]
  cases d with
  | function f =>
    rw [add, Definition.entity, ← function?_isSome]
    split <;> simp_all [Definition.parts]
  | struct s =>
    rw [add, Definition.entity, ← definesType_iff, Definition.parts, ← firstRepeated?_eq_none_iff]
    split
    · simp_all
    · split <;> simp_all
  | enum e =>
    rw [add, Definition.entity, ← definesType_iff, Definition.parts, ← List.map_id e.entries,
      ← firstRepeated?_eq_none_iff, List.map_id]
    split
    · simp_all
    · split <;> simp_all

theorem addAll_iff :
    (∃ g', g.addAll ds = .ok g') ↔
      (∀ d ∈ ds, d.entity ∉ g.byKind.map Definition.entity) ∧
        (ds.flatMap Definition.entities).Nodup := by
  induction ds generalizing g with
  | nil => simp [addAll, Except.pure, pure]
  | cons d ds ih =>
    have apart : d.entities.Disjoint (ds.flatMap Definition.entities) ↔
        ∀ d' ∈ ds, d'.entity ≠ d.entity := by
      constructor
      · intro h d' member
        exact (Definition.disjoint_iff.mp fun e here there =>
          h here (List.mem_flatMap.mpr ⟨d', member, there⟩)).symm
      · intro h e here there
        obtain ⟨d', member, there⟩ := List.mem_flatMap.mp there
        exact Definition.disjoint_iff.mpr (h d' member).symm here there
    have pushed (entity : Entity) : entity ∈ (g.push d).byKind.map Definition.entity ↔
        entity ∈ g.byKind.map Definition.entity ∨ entity = d.entity := by
      rw [((byKind_push g d).map Definition.entity).mem_iff]
      simp
    rw [List.flatMap_cons, List.nodup_append', apart, List.forall_mem_cons]
    constructor
    · rintro ⟨g', all⟩
      obtain ⟨g1, one, others⟩ := addAll_cons_iff.mp all
      obtain ⟨new, distinct⟩ := add_iff.mp ⟨g1, one⟩
      rw [push_of_add one] at others
      obtain ⟨others_new, others_distinct⟩ := ih.mp ⟨g', others⟩
      simp only [pushed, not_or] at others_new
      exact ⟨⟨new, fun d' member => (others_new d' member).1⟩, distinct, others_distinct,
        fun d' member => (others_new d' member).2⟩
    · rintro ⟨⟨new, others_new⟩, distinct, others_distinct, different⟩
      obtain ⟨g1, one⟩ := add_iff.mpr ⟨new, distinct⟩
      obtain ⟨g', others⟩ : ∃ g', (g.push d).addAll ds = .ok g' := by
        refine ih.mpr ⟨fun d' member => ?_, others_distinct⟩
        rw [pushed, not_or]
        exact ⟨others_new d' member, different d' member⟩
      rw [← push_of_add one] at others
      exact ⟨g', addAll_cons_iff.mpr ⟨g1, one, others⟩⟩

end Globals
end LoopLang
