import LoopLang.Proofs.Related
import LoopLang.Proofs.Tree.Printer
import LoopLang.Proofs.Tree.Progress
import LoopLang.Proofs.Tree.Source

namespace LoopLang

/-- The tokens that are left are read as these definitions, to the last one. -/
inductive Reader.Spells (fuel : Nat) : Reader → List Definition → Prop where
  | nil {r : Reader} (nothing_left : r.rest = []) : r.Spells fuel []
  | cons {r r' : Reader} {d : Definition} {ds : List Definition}
    (read : Definition.parse fuel r = .ok (d, r')) (others : r'.Spells fuel ds) :
    r.Spells fuel (d :: ds)

namespace Parse

def Placed {α : Type} (x : Parse α) (fuel : Nat) (position : α → Position) : Prop :=
  ∀ r a r', 10 * r.rest.length + 1 ≤ fuel → x r = .ok (a, r') →
    ∃ own : Lexeme, own.position = position a ∧ (own :: r'.rest).Sublist r.rest

section Positions

variable {α β : Type} {fuel : Nat}

theorem Placed.peek {f : Option Token → Parse α} {position : α → Position}
    (h : ∀ next, (f next).Placed fuel position) : (peek >>= f).Placed fuel position :=
  fun r => h _ r

theorem Placed.advance {f : Unit → Parse α} {position : α → Position}
    (h : (f ()).Placed fuel position) : (advance >>= f).Placed fuel position := by
  intro r a r' enough read
  have fewer : 10 * r.rest.tail.length + 1 ≤ fuel := by
    rw [List.length_tail]
    omega
  obtain ⟨own, place, taken⟩ := h _ a r' fewer read
  exact ⟨own, place, taken.trans (List.tail_sublist _)⟩

theorem Placed.result {x : Parse α} {make : α → β} {position : β → Position}
    (h : x.Placed fuel fun a => position (make a)) :
    (do return make (← x)).Placed fuel position := by
  intro r b r' enough read
  change (x r >>= fun pair => Except.ok (make pair.1, pair.2)) = .ok (b, r') at read
  cases run : x r with
  | error e =>
    rw [run] at read
    cases read
  | ok pair =>
    rw [run] at read
    cases read
    exact h r pair.1 pair.2 enough run

theorem Gives.after {x : Parse α} {f : α → Parse β} {post : β → Prop} {n : NodeId}
    (h : ∀ a n', (f a).Gives n' fun b _ => post b) : (x >>= f).Gives n fun b _ => post b :=
  Gives.bind (P := fun _ _ => True) (fun _ _ _ _ _ => trivial) fun a n' _ => h a n'

theorem Placed.here {f : Position → Parse α} {position : α → Position}
    (noted : ∀ start n, (f start).Gives n fun a _ => position a = start)
    (progress : ∀ {n}, 10 * n + 1 ≤ fuel → (here >>= f).Leaves n fun _ n' => n' < n) :
    (here >>= f).Placed fuel position := by
  intro r a r' enough read
  have now := progress enough r rfl
  rw [read] at now
  obtain ⟨back, fewer⟩ := now
  have begins := noted _ _ r a r' rfl read
  cases tokens : r.rest with
  | nil =>
    rw [tokens] at fewer
    cases fewer
  | cons first others =>
    rw [tokens] at back fewer begins
    refine ⟨first, begins.symm, ?_⟩
    rcases List.suffix_cons_iff.mp back with all | rest
    · rw [all] at fewer
      exact absurd fewer (Nat.lt_irrefl _)
    · exact rest.sublist.cons_cons first

theorem struct_placed (fuel : Nat) : (struct fuel).Placed fuel Struct.position :=
  .here (fun _ _ => .after fun _ _ => .after fun _ _ => .after fun _ _ => .after fun _ _ =>
    .pure rfl) struct_leaves

theorem enum_placed (fuel : Nat) : (enum fuel).Placed fuel Enum.position :=
  .here (fun _ _ => .after fun _ _ => .after fun _ _ => .after fun _ _ => .after fun _ _ =>
    .pure rfl) enum_leaves

theorem function_placed (fuel : Nat) : (function fuel).Placed fuel Function.position := by
  refine .here (fun start n => ?_) function_leaves
  refine .after fun name _ => .after fun _ _ => .after fun empty n1 => ?_
  have rest (params : List Param) (n2 : NodeId) :
      (do
        expect .rightParen "')' after parameters"
        let returns ← if ← accept .colon then some <$> type else pure none
        let body ← block fuel
        return (⟨name, params, returns, body, start⟩ : Function)).Gives n2
          fun f _ => f.position = start := by
    refine .after fun _ _ => .after fun typed n3 => ?_
    split <;> exact .after fun _ _ => .after fun _ _ => .pure rfl
  split <;> exact .after rest

theorem definition_placed (fuel : Nat) :
    (Definition.parse fuel).Placed fuel Definition.position := by
  refine .peek fun next => ?_
  split
  · exact .advance (.result (struct_placed fuel))
  · exact .advance (.result (enum_placed fuel))
  · exact .advance (.result (function_placed fuel))
  · exact .result (function_placed fuel)

end Positions
end Parse

namespace Reader.Spells

variable {fuel : Nat} {r : Reader} {ds : List Definition}

theorem positions (spelled : r.Spells fuel ds) (enough : 10 * r.rest.length + 1 ≤ fuel) :
    (ds.map Definition.position).Sublist (r.rest.map (·.position)) := by
  induction spelled with
  | nil nothing_left =>
    rw [nothing_left]
    exact .slnil
  | @cons r r' d ds read others ih =>
    obtain ⟨own, place, taken⟩ := Parse.definition_placed fuel r d r' enough read
    have shorter := taken.length_le
    rw [List.length_cons] at shorter
    refine List.Sublist.trans ?_ (taken.map _)
    rw [List.map_cons, List.map_cons, place]
    exact (ih (by omega)).cons_cons _

theorem length_le (spelled : r.Spells fuel ds) (enough : 10 * r.rest.length + 1 ≤ fuel) :
    ds.length ≤ r.rest.length := by
  simpa using (spelled.positions enough).length_le

theorem numbered {first : NodeId} {before : List NodeId} (spelled : r.Spells fuel ds)
    (h : Parse.Numbered first before r.nextId) :
    ∃ n, Parse.Numbered first (before ++ ds.flatMap Definition.ids) n := by
  induction spelled generalizing before with
  | nil nothing_left => exact ⟨_, by rwa [List.flatMap_nil, List.append_nil]⟩
  | @cons r r' d ds read others ih =>
    have own := (Parse.definition_reads h r d r' rfl read).1
    rw [List.flatMap_cons, ← List.append_assoc]
    exact ih own

theorem written (spelled : r.Spells fuel ds) : ∀ d ∈ ds, d.Written := by
  induction spelled with
  | nil nothing_left => exact List.forall_mem_nil _
  | @cons r r' d ds read others ih =>
    have first := (Parse.definition_reads (.nil r.nextId) r d r' rfl read).2
    exact List.forall_mem_cons.mpr ⟨first, ih⟩

end Reader.Spells

namespace Globals

def addAll (g : Globals) (ds : List Definition) : Except CompileError Globals := ds.foldlM add g

theorem addAll_cons_iff {g g' : Globals} {d : Definition} {ds : List Definition} :
    g.addAll (d :: ds) = .ok g' ↔ ∃ g1, g.add d = .ok g1 ∧ g1.addAll ds = .ok g' := by
  rw [addAll, List.foldlM_cons]
  constructor
  · exact exists_of_bind
  · intro both
    obtain ⟨g1, first, others⟩ := both
    rw [first]
    exact others

section Parsing

variable {g g' : Globals} {fuel definitions : Nat} {r : Reader} {ds : List Definition}

theorem spells_of_parseOnto (h : parseOnto g fuel definitions r = .ok g') :
    ∃ ds, r.Spells fuel ds ∧ g.addAll ds = .ok g' := by
  induction definitions generalizing g r with
  | zero =>
    rw [parseOnto] at h
    split at h
    · rename_i empty
      cases h
      exact ⟨[], .nil (List.isEmpty_iff.mp empty), rfl⟩
    · cases h
  | succ definitions ih =>
    rw [parseOnto] at h
    split at h
    · rename_i empty
      cases h
      exact ⟨[], .nil (List.isEmpty_iff.mp empty), rfl⟩
    · split at h
      · cases h
      · rename_i d r' read
        split at h
        · cases h
        · rename_i g1 added
          obtain ⟨ds, others, all⟩ := ih h
          exact ⟨d :: ds, .cons read others, addAll_cons_iff.mpr ⟨g1, added, all⟩⟩

theorem parseOnto_of_spells (spelled : r.Spells fuel ds) (added : g.addAll ds = .ok g')
    (enough : 10 * r.rest.length + 1 ≤ fuel) (few : ds.length ≤ definitions) :
    parseOnto g fuel definitions r = .ok g' := by
  induction spelled generalizing g definitions with
  | nil nothing_left =>
    cases added
    cases definitions <;> rw [parseOnto, nothing_left] <;> rfl
  | @cons r r' d ds read others ih =>
    have progress := Definition.parse_leaves enough r rfl
    rw [read] at progress
    cases definitions with
    | zero => cases few
    | succ definitions =>
      have some_left : r.rest.isEmpty = false := by
        rw [List.isEmpty_eq_false_iff, ← List.length_pos_iff]
        exact Nat.zero_lt_of_lt progress.2
      obtain ⟨g1, one, rest⟩ := addAll_cons_iff.mp added
      rw [parseOnto, some_left, if_neg Bool.false_ne_true, StateT.run, read]
      dsimp only
      rw [one]
      exact ih rest (by omega) (Nat.le_of_succ_le_succ few)

end Parsing

section Order

variable {g g' : Globals} {d : Definition} {ds : List Definition}

theorem byKind_push (g : Globals) (d : Definition) : (g.push d).byKind.Perm (g.byKind ++ [d]) := by
  cases d with
  | function f =>
    simp only [byKind, push, List.map_append, List.map_cons, List.map_nil, List.append_assoc]
    rw [← List.append_assoc (g.structs.map Definition.struct)]
    exact List.perm_append_comm.append_left _
  | struct s =>
    simp only [byKind, push, List.map_append, List.map_cons, List.map_nil, List.append_assoc]
    exact (List.perm_append_comm.append_left _).append_left _
  | enum e =>
    simp only [byKind, push, List.map_append, List.map_cons, List.map_nil, List.append_assoc]
    exact .rfl

theorem byKind_addAll (h : g.addAll ds = .ok g') : g'.byKind.Perm (g.byKind ++ ds) := by
  induction ds generalizing g with
  | nil =>
    cases h
    rw [List.append_nil]
  | cons d ds ih =>
    obtain ⟨g1, one, others⟩ := addAll_cons_iff.mp h
    have rest := ih others
    rw [push_of_add one] at rest
    have first := (byKind_push g d).append_right ds
    rw [List.append_assoc, List.singleton_append] at first
    exact rest.trans first

/-- Places that are strictly ordered tell things apart, so that only one order of them is sorted. -/
theorem insertionSort_eq {α : Type} {place : α → Position} {as bs : List α} (same : as.Perm bs)
    (ordered : (bs.map place).Pairwise (· < ·)) :
    as.insertionSort (fun a b => place a ≤ place b) = bs := by
  have total : Std.Total fun a b : α => place a ≤ place b := ⟨fun _ _ => le_total _ _⟩
  have transitive : IsTrans α fun a b => place a ≤ place b := ⟨fun _ _ _ => le_trans⟩
  have sorted : (as.insertionSort fun a b => place a ≤ place b).Pairwise fun a b =>
      place a ≤ place b := List.pairwise_insertionSort _ _
  have in_order : bs.Pairwise fun a b => place a ≤ place b :=
    (List.pairwise_map.mp ordered).imp le_of_lt
  have kept := (List.perm_insertionSort (fun a b => place a ≤ place b) as).trans same
  refine kept.eq_of_pairwise (fun a b mem mem' le ge => ?_) sorted in_order
  have same_place := le_antisymm le ge
  exact List.inj_on_of_nodup_map (ordered.imp ne_of_lt) (kept.mem_iff.mp mem) mem' same_place

theorem inOrder_addAll (h : empty.addAll ds = .ok g)
    (ordered : (ds.map Definition.position).Pairwise (· < ·)) : g.inOrder = ds :=
  insertionSort_eq (byKind_addAll h) ordered

theorem places_addAll (h : g.addAll ds = .ok g') :
    (g'.functions.map Function.position).Sublist
        (g.functions.map Function.position ++ ds.map Definition.position) ∧
      (g'.structs.map Struct.position).Sublist
        (g.structs.map Struct.position ++ ds.map Definition.position) := by
  induction ds generalizing g with
  | nil =>
    cases h
    simp
  | cons d ds ih =>
    obtain ⟨g1, one, others⟩ := addAll_cons_iff.mp h
    obtain ⟨functions, structs⟩ := ih others
    rw [push_of_add one] at functions structs
    refine ⟨functions.trans ?_, structs.trans ?_⟩
    · cases d <;> simp [push, Definition.position]
    · cases d <;> simp [push, Definition.position]

end Order
end Globals
end LoopLang
