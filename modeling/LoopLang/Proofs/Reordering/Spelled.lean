import LoopLang.Proofs.Layout.Moving
import LoopLang.Proofs.Reordering.Checking
import LoopLang.Proofs.Reordering.Numbering

namespace LoopLang

namespace Definition

def function? : Definition → Option Function
  | function f => some f
  | _ => none

def struct? : Definition → Option Struct
  | struct s => some s
  | _ => none

def enum? : Definition → Option Enum
  | enum e => some e
  | _ => none

variable (r : Relabelling)

theorem relabelled_function? (d : Definition) :
    (d.relabelled r).function? = d.function?.map (Function.relabelled r) := by
  cases d <;> rfl

theorem relabelled_struct? (d : Definition) :
    (d.relabelled r).struct? = d.struct?.map (Struct.relabelled r) := by
  cases d <;> rfl

theorem relabelled_enum? (d : Definition) :
    (d.relabelled r).enum? = d.enum?.map (Enum.moved r.place) := by
  cases d <;> rfl

theorem relabelled_entities (d : Definition) : (d.relabelled r).entities = d.entities := by
  cases d with
  | function f | enum e => rfl
  | struct s =>
    have members : (s.members.map (Member.relabelled r)).map Member.name =
        s.members.map Member.name := by rw [List.map_map]; rfl
    simp only [relabelled, entities, parts, Struct.relabelled, members]
    rfl

theorem entities_numberedFrom (n : NodeId) (ds : List Definition) :
    (numberedFrom n ds).flatMap entities = ds.flatMap entities := by
  induction ds generalizing n with
  | nil => rfl
  | cons d ds ih =>
    rw [numberedFrom, List.flatMap_cons, List.flatMap_cons, ih, numberedAt, relabelled_entities]

theorem entity_sublist (ds : List Definition) : (ds.map entity).Sublist (ds.flatMap entities) := by
  induction ds with
  | nil => exact .slnil
  | cons d ds ih =>
    rw [List.map_cons, List.flatMap_cons, entities, List.cons_append]
    exact (ih.trans (List.sublist_append_right _ _)).cons_cons _

end Definition

namespace Globals

variable {g g' : Globals}

theorem distinct_of_addAll {ds : List Definition} (added : empty.addAll ds = .ok g) :
    g.Distinct := by
  have nodup : (g.byKind.map Definition.entity).Nodup := by
    have same : g.byKind.Perm ds := byKind_addAll added
    rw [(same.map Definition.entity).nodup_iff]
    exact (Definition.entity_sublist ds).nodup (addAll_iff.mp ⟨g, added⟩).2
  simp only [byKind, List.map_append, List.map_map] at nodup
  refine ⟨.of_map Grammar.Entity.function ?_, .of_map Grammar.Entity.type ?_,
    .of_map Grammar.Entity.type ?_⟩
  · rw [List.map_map]
    exact nodup.of_append_left.of_append_left
  · rw [List.map_map]
    exact nodup.of_append_left.of_append_right
  · rw [List.map_map]
    exact nodup.of_append_right

theorem byKind_moved (f : Relocation) (g : Globals) :
    (g.moved f).byKind = g.byKind.map (Definition.moved f) := by
  simp only [byKind, moved, List.map_append, List.map_map]
  rfl

theorem byKind_functions (g : Globals) :
    g.byKind.filterMap Definition.function? = g.functions := by
  simp [byKind, List.filterMap_map, Function.comp_def, Definition.function?]

theorem byKind_structs (g : Globals) : g.byKind.filterMap Definition.struct? = g.structs := by
  simp [byKind, List.filterMap_map, Function.comp_def, Definition.struct?]

theorem byKind_enums (g : Globals) : g.byKind.filterMap Definition.enum? = g.enums := by
  simp [byKind, List.filterMap_map, Function.comp_def, Definition.enum?]

section Kinds

variable {r : Relabelling} (same : g'.byKind.Perm (g.byKind.map (Definition.relabelled r)))
include same

theorem perm_of_kind {α : Type} {kind : Definition → Option α} {act : α → α}
    (keeps : ∀ d, kind (d.relabelled r) = (kind d).map act) :
    (g'.byKind.filterMap kind).Perm ((g.byKind.filterMap kind).map act) := by
  have there : kind ∘ Definition.relabelled r = fun d => (kind d).map act := funext keeps
  have kept := same.filterMap kind
  rwa [List.filterMap_map, there, ← List.map_filterMap] at kept

theorem reordered_of_byKind : g.Reordered r g' where
  functions := by
    have kept := perm_of_kind same (Definition.relabelled_function? r)
    rwa [byKind_functions, byKind_functions] at kept
  structs := by
    have kept := perm_of_kind same (Definition.relabelled_struct? r)
    rwa [byKind_structs, byKind_structs] at kept
  enums := by
    have kept := perm_of_kind same (Definition.relabelled_enum? r)
    rwa [byKind_enums, byKind_enums] at kept

end Kinds

section Texts

open Lexemes (tokensOf)

theorem exists_definitions {texts : List String} (valid : ∀ text ∈ texts, IsDefinition text)
    {fuel : Nat} (enough : 10 * (texts.flatMap tokensOf).length + 1 ≤ fuel) :
    ∃ ds, List.Forall₂ (Definition.ReadFrom fuel) texts ds := by
  induction texts with
  | nil => exact ⟨[], .nil⟩
  | cons text texts ih =>
    rw [List.flatMap_cons, List.length_append] at enough
    obtain ⟨first, others⟩ := List.forall_mem_cons.mp valid
    have enough_first : 10 * (tokensOf text).length + 1 ≤ fuel := by omega
    obtain ⟨d, read⟩ := first.exists_readFrom enough_first
    obtain ⟨ds, reads⟩ := ih others (by omega)
    exact ⟨d :: ds, .cons read reads⟩

theorem moved_nowhere (l : Lexemes) :
    l.moved Relocation.nowhere = ⟨Lexemes.bare l.tokens, .none⟩ := by
  rw [Lexemes.moved, Lexemes.bare, Lexemes.tokens, List.map_map]
  rfl

variable {texts : List String} {l : Lexemes} {ds : List Definition}

theorem ofLexemes_nowhere (tokens : l.tokens = texts.flatMap tokensOf)
    (read : List.Forall₂ (Definition.ReadFrom (10 * (l.list.length + 1))) texts ds) :
    ofLexemes (l.moved Relocation.nowhere) = .ok g ↔
      empty.addAll (Definition.numberedFrom 0 ds) = .ok g := by
  have spelled := Definition.spells_numberedFrom read 0
  have length : (Lexemes.bare l.tokens).length = l.list.length := by
    rw [Lexemes.bare, Lexemes.tokens, List.length_map, List.length_map]
  rw [moved_nowhere, ofLexemes, length]
  rw [← tokens] at spelled
  have enough : 10 * (Lexemes.bare l.tokens).length + 1 ≤ 10 * (l.list.length + 1) := by omega
  constructor
  · intro spells
    obtain ⟨ds', spelled', added⟩ := spells_of_parseOnto spells
    rwa [spelled.unique spelled' enough]
  · intro added
    exact parseOnto_of_spells spelled added enough (length ▸ spelled.length_le enough)

/-- In another order, the same definitions are spelled with their nodes renamed. -/
theorem exists_reordered {texts' : List String} {l' : Lexemes} (same : texts.Perm texts')
    (valid : ∀ text ∈ texts, IsDefinition text) (tokens : l.tokens = texts.flatMap tokensOf)
    (tokens' : l'.tokens = texts'.flatMap tokensOf) (read : ofLexemes l = .ok g) :
    ∃ g', ∃ rename : Equiv.Perm NodeId, ofLexemes l' = .ok g' ∧ g.Distinct ∧
      g.Reordered ⟨Relocation.nowhere, rename⟩ (g'.moved Relocation.nowhere) := by
  have count : l.list.length = (texts.flatMap tokensOf).length := by
    rw [← tokens, Lexemes.tokens, List.length_map]
  have length : l'.list.length = l.list.length := by
    rw [count, (same.flatMap_right tokensOf).length_eq, ← tokens', Lexemes.tokens, List.length_map]
  have enough : 10 * (texts.flatMap tokensOf).length + 1 ≤ 10 * (l.list.length + 1) := by omega
  obtain ⟨ds, reads⟩ := exists_definitions valid enough
  obtain ⟨ds', reads', order⟩ := List.perm_comp_forall₂ same.symm reads
  have tight : ∀ d ∈ ds, d.Tight := by
    intro d member
    obtain ⟨text, _, read⟩ := exists_of_forall₂ reads d member
    exact read.tight
  obtain ⟨rename, _, renamed⟩ := Definition.exists_renaming order.symm tight 0
  have spelled : ofLexemes (l.moved Relocation.nowhere) = .ok (g.moved Relocation.nowhere) := by
    rw [ofLexemes_moved, read]
    rfl
  have added := (ofLexemes_nowhere tokens reads).mp spelled
  obtain ⟨g0, added'⟩ : ∃ g0, empty.addAll (Definition.numberedFrom 0 ds') = .ok g0 := by
    obtain ⟨_, distinct⟩ := addAll_iff.mp ⟨_, added⟩
    refine addAll_iff.mpr ⟨fun d _ => List.not_mem_nil, ?_⟩
    rw [Definition.entities_numberedFrom] at distinct ⊢
    exact (order.flatMap_right _).nodup_iff.mpr distinct
  have spelled' := (ofLexemes_nowhere tokens' (length ▸ reads')).mpr added'
  rw [ofLexemes_moved] at spelled'
  obtain ⟨g', read', rfl⟩ := ok_of_carry spelled'
  obtain ⟨_, _, added_there⟩ := spells_of_parseOnto read
  refine ⟨g', rename, read', distinct_of_addAll added_there, reordered_of_byKind ?_⟩
  have here : (g.byKind.map (Definition.moved Relocation.nowhere)).Perm
      (Definition.numberedFrom 0 ds) := byKind_moved _ g ▸ byKind_addAll added
  have there : (g'.moved Relocation.nowhere).byKind.Perm (Definition.numberedFrom 0 ds') :=
    byKind_addAll added'
  refine there.trans (renamed.trans ((here.map _).symm.trans (.of_eq ?_)))
  rw [List.map_map, ← Definition.relabelled_ofPlaces]
  congr 1
  funext d
  exact d.relabelled_andThen (.ofPlaces Relocation.nowhere) (.ofNumbers rename)

end Texts
end Globals
end LoopLang
