import LoopLang.Proofs.Execution.Outcome
import LoopLang.Proofs.Layout
import LoopLang.Proofs.Reordering.Spelled

namespace LoopLang

open Relocation (nowhere)

namespace Function

def head (f : Function) : String × List Param × Option Ty :=
  (f.name, f.params.map Param.unplaced, f.returns)

theorem head_relabelled (r : Relabelling) (f : Function) : (f.relabelled r).head = f.head := by
  simp only [head, relabelled, List.map_map]
  rfl

theorem head_moved (place : Relocation) (f : Function) : (f.moved place).head = f.head := by
  rw [← relabelled_ofPlaces, head_relabelled]

end Function

namespace Outcome

/-- The number of a node shows in no outcome but that of a node without a type. -/
theorem relabelled_eq_moved (r : Relabelling) {outcome : Outcome}
    (sound : ∀ defect position, outcome ≠ .failed (.internal defect position)) :
    outcome.relabelled r = outcome.moved r.place := by
  cases outcome with
  | done | unfinished => rfl
  | failed fault =>
    cases fault with
    | runtime | assertion => rfl
    | internal defect position => exact absurd rfl (sound defect position)

end Outcome

namespace Program

/-- The programs are the same but for places and for the order of their definitions, by which their
    nodes are renamed. -/
structure SameUpToOrder (rename : Equiv.Perm NodeId) (p p' : Program) : Prop where
  definitions : p.globals.Reordered ⟨nowhere, rename⟩ (p'.globals.moved nowhere)
  heads (name : String) :
    (p'.globals.function? name).map Function.head = (p.globals.function? name).map Function.head
  types (id : NodeId) : p'.types[rename id]? = p.types[id]?
  runs (fuel : Nat) :
    (p'.runOn fuel Machine.initial).1.moved nowhere =
        (p.runOn fuel Machine.initial).1.moved nowhere ∧
      (p'.runOn fuel Machine.initial).2.moved nowhere =
        (p.runOn fuel Machine.initial).2.moved nowhere

theorem sameUpToOrder_of_reordered {source : String} {p p' : Program}
    {rename : Equiv.Perm NodeId}
    (compiled : compile source = .ok p)
    (definitions : p.globals.Reordered ⟨nowhere, rename⟩ (p'.globals.moved nowhere))
    (distinct : p.globals.Distinct) (types : ∀ id : NodeId, p'.types[rename id]? = p.types[id]?) :
    SameUpToOrder rename p p' := by
  have found := definitions.matches distinct
  refine ⟨definitions, fun name => ?_, types, fun fuel => ?_⟩
  · have same := congrArg (Option.map Function.head) (found.function? name)
    rw [Globals.moved_function?, Option.map_map, Option.map_map] at same
    have there : Function.head ∘ Function.moved nowhere = Function.head :=
      funext (Function.head_moved nowhere)
    have here : Function.head ∘ Function.relabelled ⟨nowhere, rename⟩ = Function.head :=
      funext (Function.head_relabelled _)
    rwa [there, here] at same
  · have alike : p.Matches ⟨nowhere, rename⟩ (p'.moved nowhere) := ⟨found, types⟩
    have ran := runOn_relabelled alike fuel .initial
    obtain ⟨ended, machine⟩ := Prod.mk.inj ((runOn_moved p' fuel .initial).symm.trans ran)
    have typed := typed_of_compile compiled
    exact ⟨ended.trans (Outcome.relabelled_eq_moved _ (not_internal typed .initial fuel)), machine⟩

/-- In another order, definitions that compile make up the same program. -/
theorem compile_reordered {texts texts' : List String} (same : texts.Perm texts')
    (valid : ∀ text ∈ texts, IsDefinition text) {p : Program}
    (compiled : compile (String.join texts) = .ok p) :
    ∃ p' rename, compile (String.join texts') = .ok p' ∧ SameUpToOrder rename p p' := by
  have valid' : ∀ text ∈ texts', IsDefinition text := fun text member =>
    valid text (same.mem_iff.mpr member)
  obtain ⟨l, cut, tokens⟩ := Lexemes.tokensOf_join valid
  obtain ⟨l', cut', tokens'⟩ := Lexemes.tokensOf_join valid'
  obtain ⟨g, parsed, checked⟩ := exists_of_bind compiled
  have read : Globals.ofLexemes l = .ok g := by rwa [Globals.parse, cut] at parsed
  obtain ⟨g', rename, read', distinct, definitions⟩ :=
    Globals.exists_reordered same valid tokens tokens' read
  have read_nowhere : Globals.ofLexemes (l'.moved nowhere) = .ok (g'.moved nowhere) := by
    rw [Globals.ofLexemes_moved, read']
    rfl
  obtain ⟨_, written⟩ := Globals.ofLexemes_written read
  obtain ⟨_, written'⟩ := Globals.ofLexemes_written read_nowhere
  obtain ⟨q, checked', resolved, types⟩ :=
    check_reordered written written' distinct definitions rename.injective checked
  rw [check_moved] at checked'
  obtain ⟨p', passed, rfl⟩ := ok_of_carry checked'
  have distinct_there := (passes_of_check written checked).1.distinct distinct
  refine ⟨p', rename, ?_, sameUpToOrder_of_reordered compiled resolved distinct_there types⟩
  rw [compile, Globals.parse, cut']
  change (Globals.ofLexemes l' >>= check) = _
  rw [read']
  exact passed

/-- The order of definitions does not matter: in every order they compile, to the same program up to
    the numbers of its nodes, or in none. -/
theorem order_irrelevant {texts texts' : List String} (same : texts.Perm texts')
    (valid : ∀ text ∈ texts, IsDefinition text) :
    ((∃ p, compile (String.join texts) = .ok p) ↔
      ∃ p', compile (String.join texts') = .ok p') ∧
    ∀ p p', compile (String.join texts) = .ok p → compile (String.join texts') = .ok p' →
      ∃ rename, SameUpToOrder rename p p' := by
  refine ⟨⟨?_, ?_⟩, fun p p' compiled compiled' => ?_⟩
  · rintro ⟨p, compiled⟩
    obtain ⟨p', _, compiled', _⟩ := compile_reordered same valid compiled
    exact ⟨p', compiled'⟩
  -- The other direction is the same for the permutation the other way round.
  · rintro ⟨p', compiled'⟩
    have valid' : ∀ text ∈ texts', IsDefinition text := fun text member =>
      valid text (same.mem_iff.mpr member)
    obtain ⟨p, _, compiled, _⟩ := compile_reordered same.symm valid' compiled'
    exact ⟨p, compiled⟩
  · obtain ⟨q, rename, again, alike⟩ := compile_reordered same valid compiled
    cases compiled'.symm.trans again
    exact ⟨rename, alike⟩

/-- Definitions of which each needs those after it. -/
def forward : List String :=
  ["main() \x7b p: Point; if (p.kind == Kind.far) \x7b print(p.x); \x7d \x7d",
    "struct Point \x7b x: i32 = 3, kind: Kind = Kind.far \x7d", "enum Kind \x7b near, far \x7d"]

set_option maxRecDepth 100000 in
theorem forward_reversed : ∃ p p', (∀ text ∈ forward, IsDefinition text) ∧
    compile (String.join forward) = .ok p ∧ compile (String.join forward.reverse) = .ok p' ∧
    (p.runOn 60 .initial).2.lines.toList.map (·.text) = ["3"] ∧ p.types[0]? ≠ p'.types[0]? ∧
    ∃ rename, SameUpToOrder rename p p' := by
  have valid : ∀ text ∈ forward, IsDefinition text := by decide +kernel
  have facts : (compile (String.join forward)).toOption.any fun p =>
      (compile (String.join forward.reverse)).toOption.any fun p' =>
        decide ((p.runOn 60 .initial).2.lines.toList.map (·.text) = ["3"] ∧
          p.types[0]? ≠ p'.types[0]?) := by decide +kernel
  obtain ⟨p, compiled, others⟩ := exists_of_any facts
  obtain ⟨p', compiled', both⟩ := exists_of_any others
  obtain ⟨printed, apart⟩ := of_decide_eq_true both
  have same : forward.Perm forward.reverse := (List.reverse_perm forward).symm
  exact ⟨p, p', valid, compiled, compiled', printed, apart,
    (order_irrelevant same valid).2 p p' compiled compiled'⟩

end Program
end LoopLang
