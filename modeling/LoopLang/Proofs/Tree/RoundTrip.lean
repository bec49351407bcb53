import LoopLang.Proofs.Tree.Rereading.Definition
import LoopLang.Proofs.Tree.Spelled

namespace LoopLang

namespace Globals

section Unplaced

variable (g : Globals)

theorem function?_unplaced (name : String) :
    g.unplaced.function? name = (g.function? name).map Function.unplaced :=
  List.find?_map

theorem struct?_unplaced (name : String) :
    g.unplaced.struct? name = (g.struct? name).map Struct.unplaced :=
  List.find?_map

theorem enum?_unplaced (name : String) :
    g.unplaced.enum? name = (g.enum? name).map Enum.unplaced :=
  List.find?_map

theorem definesType_unplaced (name : String) :
    g.unplaced.definesType name = g.definesType name := by
  rw [definesType, struct?_unplaced, enum?_unplaced, Option.isSome_map, Option.isSome_map]
  rfl

theorem firstRepeated?_unplaced (earlier : List String) (members : List Member) :
    firstRepeated? Member.name earlier (members.map Member.unplaced) =
      (firstRepeated? Member.name earlier members).map Member.unplaced := by
  induction members generalizing earlier with
  | nil => rfl
  | cons m members ih =>
    rw [List.map_cons, firstRepeated?, firstRepeated?, ih, apply_ite (Option.map Member.unplaced)]
    rfl

theorem push_unplaced (d : Definition) :
    g.unplaced.push d.unplaced = (g.push d).unplaced := by
  cases d <;> simp [push, unplaced, Definition.unplaced]

theorem add_unplaced (d : Definition) :
    (g.unplaced.add d.unplaced).toOption = (g.add d).toOption.map unplaced := by
  have pushed := congrArg some (push_unplaced g d)
  cases d with
  | function f =>
    rw [Definition.unplaced, add, add, function?_unplaced, Option.isSome_map,
      Function.unplaced_name]
    by_cases known : (g.function? f.name).isSome
    · rw [if_pos known, if_pos known]
      rfl
    · rw [if_neg known, if_neg known]
      exact pushed
  | struct s =>
    rw [Definition.unplaced, add, add, definesType_unplaced, Struct.unplaced_name,
      Struct.unplaced_members, firstRepeated?_unplaced]
    by_cases known : g.definesType s.name
    · rw [if_pos known, if_pos known]
      rfl
    · rw [if_neg known, if_neg known]
      cases firstRepeated? Member.name [] s.members with
      | some m => rfl
      | none => exact pushed
  | enum e =>
    rw [Definition.unplaced, add, add, definesType_unplaced, Enum.unplaced_name,
      Enum.unplaced_entries]
    by_cases known : g.definesType e.name
    · rw [if_pos known, if_pos known]
      rfl
    · rw [if_neg known, if_neg known]
      cases firstRepeated? id [] e.entries with
      | some entry => rfl
      | none => exact pushed

end Unplaced

section Again

variable {g g' g1 : Globals}

theorem add_again {d d' : Definition} (program : g'.unplaced = g.unplaced)
    (definition : d'.unplaced = d.unplaced) (h : g.add d = .ok g1) :
    ∃ g2, g'.add d' = .ok g2 ∧ g2.unplaced = g1.unplaced := by
  have both := (add_unplaced g' d').symm
  rw [program, definition, add_unplaced, h] at both
  cases again : g'.add d' with
  | error e =>
    rw [again] at both
    cases both
  | ok g2 =>
    rw [again] at both
    exact ⟨g2, rfl, Option.some.inj both⟩

theorem addAll_again {ds ds' : List Definition} (program : g'.unplaced = g.unplaced)
    (same : ds'.map Definition.unplaced = ds.map Definition.unplaced)
    (h : g.addAll ds = .ok g1) : ∃ g2, g'.addAll ds' = .ok g2 ∧ g2.unplaced = g1.unplaced := by
  induction ds generalizing g g' ds' with
  | nil =>
    cases h
    rw [List.map_eq_nil_iff.mp same]
    exact ⟨g', rfl, program⟩
  | cons d ds ih =>
    obtain ⟨d', rest, rfl, definition, sameRest⟩ := List.map_eq_cons_iff.mp same
    obtain ⟨g3, first, others⟩ := addAll_cons_iff.mp h
    obtain ⟨g4, again, sameFirst⟩ := add_again program definition first
    obtain ⟨g2, all, sameAll⟩ := ih sameFirst sameRest others
    exact ⟨g2, addAll_cons_iff.mpr ⟨g4, again, all⟩, sameAll⟩

end Again
end Globals

theorem Reader.spells_again {fuel : Nat} {r : Reader} {ds : List Definition} {n : NodeId}
    (numbered : Parse.Numbered r.nextId (ds.flatMap Definition.ids) n)
    (written : ∀ d ∈ ds, d.Written)
    (tokens : r.rest.map (·.token) = ds.flatMap Definition.tokens)
    (enough : 10 * r.rest.length + 1 ≤ fuel) :
    ∃ ds', r.Spells fuel ds' ∧ ds'.map Definition.unplaced = ds.map Definition.unplaced := by
  induction ds generalizing r with
  | nil =>
    exact ⟨[], .nil (List.map_eq_nil_iff.mp tokens), rfl⟩
  | cons d ds ih =>
    rw [List.flatMap_cons] at numbered tokens
    obtain ⟨middle, inFirst, inRest⟩ := numbered.split
    obtain ⟨first_written, rest_written⟩ := List.forall_mem_cons.mp written
    have restored : (Definition.parse fuel).Reads (d.tokens ++ ds.flatMap Definition.tokens) _ _ :=
      Definition.parse_restored inFirst first_written
    have reads := restored r tokens rfl
    -- Rereading may fail for its bound alone, which so much fuel does not let it reach.
    have progress := Definition.parse_leaves enough r rfl
    cases read : Definition.parse fuel r with
    | error e =>
      rw [read] at reads progress
      exact absurd reads progress
    | ok pair =>
      obtain ⟨d', r'⟩ := pair
      rw [read] at reads progress
      obtain ⟨same, tokens_left, rfl⟩ := reads
      obtain ⟨ds', others, same_rest⟩ := ih inRest rest_written tokens_left (by omega)
      refine ⟨d' :: ds', .cons read others, ?_⟩
      rw [List.map_cons, List.map_cons, same, same_rest]

namespace Globals

/-- The tokens of a program, wherever they stand, spell its definitions to the last token, and
    reading them gives back the program. The numbers of the nodes are the same in both. -/
theorem reread_of_parse {source : String} {g : Globals} (h : parse source = .ok g) (l : Lexemes)
    (printed : l.tokens = g.tokens) :
    ∃ g' ds, Reader.Spells (10 * (l.list.length + 1)) ⟨l.list, l.finish, 0⟩ ds ∧
      ds.map Definition.unplaced = g.inOrder.map Definition.unplaced ∧
      ofLexemes l = .ok g' ∧ g'.unplaced = g.unplaced := by
  rw [parse] at h
  split at h
  · cases h
  · rename_i original cut
    obtain ⟨ds, spelled, added⟩ := spells_of_parseOnto h
    have placed := spelled.positions (by dsimp only; omega)
    have in_order := inOrder_addAll added ((Lexemes.ordered cut).sublist placed)
    obtain ⟨n, numbered⟩ := spelled.numbered (Parse.Numbered.nil 0)
    rw [tokens, in_order] at printed
    obtain ⟨ds', again, same⟩ : ∃ ds',
        Reader.Spells (10 * (l.list.length + 1)) ⟨l.list, l.finish, 0⟩ ds' ∧
          ds'.map Definition.unplaced = ds.map Definition.unplaced :=
      Reader.spells_again numbered spelled.written printed (by dsimp only; omega)
    obtain ⟨g', added', same_program⟩ := addAll_again rfl same added
    have few := again.length_le (by dsimp only; omega)
    have reread := parseOnto_of_spells again added' (by dsimp only; omega) few
    rw [in_order]
    exact ⟨g', ds', again, same, reread, same_program⟩

def nested : String :=
  "enum Way { Up, Down, } " ++
  "take(by: *i8): i8 { const less: i8 = (by); return 1 - (less - (3) * 4); } " ++
  "struct Step { way: Way = Way.Up, by: i8 = -(5), } " ++
  "func main() \x7b s: Step = Step { by: - -5, }; steps: [Step]; steps.append(s); " ++
  "loop { if (not (s.by < 6) == true) { break; } elif ((1 + 2) * 3 > 4) { s.by = take(1); } } \x7d"

set_option maxRecDepth 100000 in
theorem nested_reread : ∃ g, parse nested = .ok g ∧ g.tokens.length = 132 ∧
    ∃ g' ds, Reader.Spells 1330 ⟨g.tokens.map fun t => ⟨t, .none⟩, .none, 0⟩ ds ∧
      ds.map Definition.unplaced = g.inOrder.map Definition.unplaced ∧
      ofLexemes ⟨g.tokens.map fun t => ⟨t, .none⟩, .none⟩ = .ok g' ∧ g'.unplaced = g.unplaced := by
  have facts : (parse nested).toOption.any fun g => g.tokens.length == 132 := by decide +kernel
  cases parsed : parse nested with
  | error e =>
    rw [parsed] at facts
    cases facts
  | ok g =>
    rw [parsed] at facts
    have length := eq_of_beq facts
    have printed : Lexemes.tokens ⟨g.tokens.map fun t => ⟨t, .none⟩, .none⟩ = g.tokens := by
      rw [Lexemes.tokens, List.map_map]
      exact List.map_id _
    have again := reread_of_parse parsed _ printed
    rw [List.length_map, length] at again
    exact ⟨g, rfl, length, again⟩

end Globals
end LoopLang
