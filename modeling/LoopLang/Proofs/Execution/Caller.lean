import LoopLang.Proofs.Execution.Points

namespace LoopLang

namespace Scopes.Rel

variable {α β : Type} {R : α → β → Prop} {s : Scopes α} {t : Scopes β}

theorem of_mem_values (h : Rel R s t) : ∀ b ∈ t.values, ∃ a, R a b := by
  have frames : List.Forall₂ (Frame.Rel R) s.frames t.frames := .cons h.inner h.outer
  intro b member
  obtain ⟨frame, inside, found⟩ := List.mem_flatMap.mp member
  obtain ⟨pair, bound, rfl⟩ := List.mem_map.mp found
  obtain ⟨_, _, related⟩ := exists_of_forall₂ frames frame inside
  obtain ⟨entry, _, both⟩ := exists_of_forall₂ related pair bound
  exact ⟨entry.2, both.2⟩

end Scopes.Rel

theorem Named.lt_of_mem {g : Globals} {d : CellTypes} {names : Scopes Binding}
    {scopes : Scopes CellId} {cell : CellId} (h : Named g d names scopes)
    (member : cell ∈ scopes.values) : cell < d.length := by
  obtain ⟨b, denotes⟩ := Scopes.Rel.of_mem_values h cell member
  exact (List.getElem?_eq_some_iff.mp denotes.1).1

namespace Program

variable {p : Program} {fuel : Nat} {f : Function} {cells : List CellId} {position : Position}
  {m : Machine} {names : Scopes Binding} {callers : List Activation}

theorem unshared_of_reached (typed : p.Typed)
    (reached : p.Reached ⟨fuel, .invoke f cells position, m, names, callers⟩) :
    ∀ a ∈ Point.activations ⟨fuel, .invoke f cells position, m, names, callers⟩,
      ∀ pair ∈ f.params.zip cells, pair.1.byReference = false → pair.2 ∉ a.scopes.values := by
  cases reached with
  | main _ _ none_taken =>
    rw [none_taken]
    exact fun _ _ => nofun
  | @part _ _ _ m0 _ _ _ before begins =>
    obtain ⟨d, ⟨stored, named, _⟩, waiting⟩ := before.fine typed
    rcases begins with inExpr | inCall | inStmt
    · cases inExpr
    · cases inCall with
      | @invoke _ args _ _ _ _ found ran =>
        have framed := (p.framing fuel).bindArguments f.params args m0
        unfold Run.Keeps at framed
        rw [ran] at framed
        obtain ⟨_, same, _, fresh⟩ := framed
        intro a member pair inside byValue shared
        have known : Named p.globals d a.names a.scopes := by
          rcases List.mem_cons.mp member with rfl | caller
          · exact same ▸ named
          · exact waiting a caller
        have old := known.lt_of_mem shared
        rw [stored.1.size] at old
        exact Nat.not_le.mpr old (fresh pair inside byValue)
    · cases inStmt
  | frame _ begins => cases begins

/-- A call changes no cell that there was before it, apart from those that it is given. Nobody else
    has a name for the cells of its parameters by value, so that its callers see a change only of
    what they pass by reference, and they have their names and their depth again afterwards,
    however the call ends. -/
theorem call_keeps_caller {source : String} (compiled : compile source = .ok p)
    (reached : p.Reached ⟨fuel, .invoke f cells position, m, names, callers⟩) :
    (∀ cell < m.cells.size, cell ∉ cells →
      ((p.invoke fuel f cells position).final m).cells[cell]? = m.cells[cell]?) ∧
    (∀ a ∈ Point.activations ⟨fuel, .invoke f cells position, m, names, callers⟩,
      (∀ pair ∈ f.params.zip cells, pair.1.byReference = false → pair.2 ∉ a.scopes.values) ∧
      ∀ cell ∈ a.scopes.values,
        (∀ pair ∈ f.params.zip cells, pair.1.byReference = true → pair.2 ≠ cell) →
        ((p.invoke fuel f cells position).final m).cells[cell]? = m.cells[cell]?) ∧
    ((p.invoke fuel f cells position).final m).scopes = m.scopes ∧
    ((p.invoke fuel f cells position).final m).depth = m.depth := by
  have typed := typed_of_compile compiled
  have called := (p.framing fuel).invoke f cells position m
  refine ⟨called.kept, fun a member => ?_, called.scopes, called.depth⟩
  have unshared := unshared_of_reached typed reached a member
  refine ⟨unshared, fun cell inside other => ?_⟩
  obtain ⟨d, ⟨stored, named, _, given⟩, waiting⟩ := reached.fine typed
  have known : Named p.globals d a.names a.scopes := by
    rcases List.mem_cons.mp member with rfl | caller
    · exact named
    · exact waiting a caller
  have old := known.lt_of_mem inside
  rw [stored.1.size] at old
  refine called.kept cell old fun passed => ?_
  obtain ⟨param, pair⟩ := exists_mem_zip given cell passed
  cases shared : param.byReference with
  | false => exact unshared _ pair shared inside
  | true => exact other _ pair shared rfl

def intAt? (m : Machine) (cell : CellId) : Option (Int × IntTy) :=
  match m.cells[cell]? with
  | some (.int v type) => some (v, type)
  | _ => none

def callsOn (p : Program) (m : Machine) (cells : List CellId) : Bool :=
  p.callsWhere m fun _ found m' => found = cells ∧ m'.depth = 1 ∧
    cells.map (intAt? m') = [some (3, .u8), some (2, .u8)]

theorem reached_of_callsOn (resting : p.Resting m) (h : callsOn p m cells = true) :
    ∃ main s callAt node callee args rest f m' names callers,
      p.globals.function? "main" = some main ∧
      main.body = s :: .call callAt node callee args :: rest ∧
      p.globals.function? callee = some f ∧
      p.Reached ⟨57, .invoke f cells node.position, m', names, callers⟩ ∧
      m'.depth = 1 ∧ cells.map (intAt? m') = [some (3, .u8), some (2, .u8)] := by
  obtain ⟨main, s, callAt, node, callee, args, rest, f, found, m', names, callers, main_found,
    body, called, reached, begins⟩ := reached_of_callsWhere resting h
  obtain ⟨rfl, shallow, held⟩ := of_decide_eq_true begins
  exact ⟨main, s, callAt, node, callee, args, rest, f, m', names, callers, main_found, body,
    called, reached, shallow, held⟩

set_option maxRecDepth 100000 in
theorem growing_keeps_caller : ∃ p fuel f cells position m names callers,
    compile growing = .ok p ∧ cells = [0, 1] ∧
    p.Reached ⟨fuel, .invoke f cells position, m, names, callers⟩ ∧
    (∀ cell < m.cells.size, cell ∉ cells →
      ((p.invoke fuel f cells position).final m).cells[cell]? = m.cells[cell]?) ∧
    (∀ a ∈ Point.activations ⟨fuel, .invoke f cells position, m, names, callers⟩,
      (∀ pair ∈ f.params.zip cells, pair.1.byReference = false → pair.2 ∉ a.scopes.values) ∧
      ∀ cell ∈ a.scopes.values,
        (∀ pair ∈ f.params.zip cells, pair.1.byReference = true → pair.2 ≠ cell) →
        ((p.invoke fuel f cells position).final m).cells[cell]? = m.cells[cell]?) ∧
    ((p.invoke fuel f cells position).final m).scopes = m.scopes ∧
    ((p.invoke fuel f cells position).final m).depth = m.depth := by
  have calls : (compile growing).toOption.any fun p =>
      callsOn p Machine.initial [0, 1] := by decide +kernel
  obtain ⟨p, compiled, calls⟩ := exists_of_any calls
  obtain ⟨main, s, callAt, node, callee, args, rest, f, m, names, callers, _, _, _, reached, _⟩ :=
    reached_of_callsOn .initial calls
  exact ⟨p, 57, f, [0, 1], node.position, m, names, callers, compiled, rfl, reached,
    call_keeps_caller compiled reached⟩

end Program
end LoopLang
