import LoopLang.Execution
import LoopLang.Proofs.Execution.Runs

namespace LoopLang

namespace Scopes

variable {α : Type}

/-- All that the names stand for, hidden ones included. -/
def values (s : Scopes α) : List α := s.frames.flatMap (·.map Prod.snd)

theorem mem_values_of_get? {s : Scopes α} {name : String} {a : α} (h : s.get? name = some a) :
    a ∈ s.values := by
  obtain ⟨frame, inside, found⟩ := List.exists_of_findSome?_eq_some h
  obtain ⟨front, back, rfl, _⟩ := List.lookup_eq_some_iff.mp found
  exact List.mem_flatMap.mpr ⟨_, inside, by simp⟩

theorem values_define? {s t : Scopes α} {name : String} {a : α}
    (h : s.define? name a = some t) : t.values = a :: s.values := by
  unfold define? at h
  split at h
  · cases h
  · cases h
    rfl

theorem values_clear_subset (s : Scopes α) : s.clear.values ⊆ s.values := by
  intro a member
  obtain ⟨frame, inside, found⟩ := List.mem_flatMap.mp member
  rcases List.mem_cons.mp inside with rfl | outside
  · cases found
  · exact List.mem_flatMap.mpr ⟨frame, .tail _ outside, found⟩

theorem values_foldl_subset (pairs : List (Param × α)) (s : Scopes α) :
    (pairs.foldl (fun s (param, a) => (s.define? param.name a).getD s) s).values ⊆
      s.values ++ pairs.map Prod.snd := by
  induction pairs generalizing s with
  | nil => simp
  | cons pair pairs ih =>
    obtain ⟨param, a⟩ := pair
    intro b member
    rw [List.foldl_cons] at member
    rcases List.mem_append.mp (ih _ member) with before | later
    · dsimp only at before
      cases defined : s.define? param.name a with
      | none =>
        rw [defined] at before
        exact List.mem_append_left _ before
      | some t =>
        rw [defined, Option.getD_some, values_define? defined] at before
        rcases List.mem_cons.mp before with rfl | old
        · exact List.mem_append_right _ List.mem_cons_self
        · exact List.mem_append_left _ old
    · exact List.mem_append_right _ (.tail _ later)

theorem values_ofArguments (params : List Param) (cells : List CellId) :
    (ofArguments params cells).values ⊆ cells := by
  intro cell member
  rcases List.mem_append.mp (values_foldl_subset _ _ member) with none_yet | given
  · cases none_yet
  · obtain ⟨pair, inside, rfl⟩ := List.mem_map.mp given
    exact (List.of_mem_zip inside).2

end Scopes

/-- What code may have made of the machine `m`: the cells without a name are as they were, new
    names are those of new cells, and the names outside of the innermost frame are the same. -/
structure Framed (m m' : Machine) : Prop where
  size : m.cells.size ≤ m'.cells.size
  kept : ∀ cell < m.cells.size, cell ∉ m.scopes.values → m'.cells[cell]? = m.cells[cell]?
  outer : m'.scopes.outer = m.scopes.outer
  depth : m'.depth = m.depth
  fresh : ∀ cell ∈ m'.scopes.values, cell ∈ m.scopes.values ∨ m.cells.size ≤ cell

/-- What a call may have made of the machine `m`: only the cells of its arguments have changed. -/
structure Called (cells : List CellId) (m m' : Machine) : Prop where
  size : m.cells.size ≤ m'.cells.size
  kept : ∀ cell < m.cells.size, cell ∉ cells → m'.cells[cell]? = m.cells[cell]?
  scopes : m'.scopes = m.scopes
  depth : m'.depth = m.depth

theorem Called.refl {cells : List CellId} (m : Machine) : Called cells m m :=
  ⟨Nat.le_refl _, fun _ _ _ => rfl, rfl, rfl⟩

namespace Framed

variable {m m1 m2 : Machine}

theorem refl (m : Machine) : Framed m m :=
  ⟨Nat.le_refl _, fun _ _ _ => rfl, rfl, rfl, fun _ named => .inl named⟩

theorem trans (first : Framed m m1) (second : Framed m1 m2) : Framed m m2 := by
  refine ⟨Nat.le_trans first.size second.size, fun cell old unnamed => ?_,
    second.outer.trans first.outer, second.depth.trans first.depth, fun cell named => ?_⟩
  · have still : cell ∉ m1.scopes.values := fun named =>
      (first.fresh cell named).elim unnamed (Nat.not_le.mpr old)
    rw [second.kept cell (Nat.lt_of_lt_of_le old first.size) still, first.kept cell old unnamed]
  · rcases second.fresh cell named with before | new
    · exact first.fresh cell before
    · exact .inr (Nat.le_trans first.size new)

theorem store {cell : CellId} (named : cell ∈ m.scopes.values) (v : Value) :
    Framed m (m.store cell v) := by
  refine ⟨by simp [Machine.store], fun other _ unnamed => ?_, rfl, rfl, fun _ member => .inl member⟩
  have different : cell ≠ other := fun same => unnamed (same ▸ named)
  rw [Machine.store, Array.getElem?_setIfInBounds, if_neg different]

theorem push (m : Machine) (v : Value) : Framed m { m with cells := m.cells.push v } := by
  refine ⟨by simp, fun cell old _ => ?_, rfl, rfl, fun _ member => .inl member⟩
  rw [Array.getElem?_push_lt old]
  simp [old]

theorem bound {name : String} {scopes : Scopes CellId} (v : Value)
    (h : m.scopes.define? name m.cells.size = some scopes) :
    Framed m { m with cells := m.cells.push v, scopes } := by
  refine ⟨(push m v).size, (push m v).kept, Scopes.define?_outer h, rfl, fun cell named => ?_⟩
  rw [Scopes.values_define? h] at named
  rcases List.mem_cons.mp named with rfl | before
  · exact .inr (Nat.le_refl _)
  · exact .inl before

theorem printed (m : Machine) (line : Line) :
    Framed m { m with lines := m.lines.push line } :=
  ⟨Nat.le_refl _, fun _ _ _ => rfl, rfl, rfl, fun _ named => .inl named⟩

theorem clear (h : Framed m m1) : Framed m { m1 with scopes := m1.scopes.clear } :=
  ⟨h.size, h.kept, h.outer, h.depth, fun cell named =>
    h.fresh cell (m1.scopes.values_clear_subset named)⟩

theorem pop (h : Framed { m with scopes := m.scopes.push } m1) : m1.scopes.pop = m.scopes := by
  rw [Scopes.pop, h.outer]
  rfl

theorem popped (h : Framed { m with scopes := m.scopes.push } m1) :
    Framed m { m1 with scopes := m1.scopes.pop } :=
  ⟨h.size, h.kept, congrArg Scopes.outer h.pop, h.depth, fun _ named => .inl (h.pop ▸ named)⟩

theorem call {cells : List CellId} (first : Framed m m1)
    (given : ∀ cell ∈ cells, cell ∈ m.scopes.values ∨ m.cells.size ≤ cell)
    (called : Called cells m1 m2) : Framed m m2 := by
  refine ⟨Nat.le_trans first.size called.size, fun cell old unnamed => ?_, ?_, ?_, ?_⟩
  · have other : cell ∉ cells := fun member =>
      (given cell member).elim unnamed (Nat.not_le.mpr old)
    rw [called.kept cell (Nat.lt_of_lt_of_le old first.size) other, first.kept cell old unnamed]
  · rw [called.scopes, first.outer]
  · rw [called.depth, first.depth]
  · rw [called.scopes]
    exact first.fresh

end Framed

namespace Run

/-- A computation that leaves what it has no name for as it is, and ends with something that
    satisfies `post`, or else stops. -/
def Keeps {α : Type} (x : Run α) (m : Machine) (post : α → Machine → Prop) : Prop :=
  match x m with
  | .ok a m' => Framed m m' ∧ post a m'
  | .error _ m' => Framed m m'

variable {α β : Type} {m : Machine} {P : α → Machine → Prop} {post : β → Machine → Prop}

theorem Keeps.pure {b : β} (h : post b m) : (pure b : Run β).Keeps m post := ⟨.refl m, h⟩

theorem Keeps.bind {x : Run α} {f : α → Run β} (first : x.Keeps m P)
    (second : ∀ a m', Framed m m' → P a m' → (f a).Keeps m' post) : (x >>= f).Keeps m post := by
  unfold Keeps at first ⊢
  cases run : x m with
  | error stop m' =>
    rw [run] at first
    rw [bind_of_error run]
    exact first
  | ok a m' =>
    rw [run] at first
    rw [bind_of_ok run]
    have rest := second a m' first.1 first.2
    unfold Keeps at rest
    split at rest
    · exact ⟨first.1.trans rest.1, rest.2⟩
    · exact first.1.trans rest

theorem Keeps.final {x : Run β} (h : x.Keeps m post) : Framed m (x.final m) := by
  unfold Keeps at h
  unfold Run.final
  cases run : x m with
  | error stop m' =>
    rw [run] at h
    exact h
  | ok b m' =>
    rw [run] at h
    exact h.1

theorem Keeps.mono {x : Run β} {Q : β → Machine → Prop} (h : x.Keeps m Q)
    (imp : ∀ b m', Framed m m' → Q b m' → post b m') : x.Keeps m post := by
  unfold Keeps at h ⊢
  split at h
  · exact ⟨h.1, imp _ _ h.1 h.2⟩
  · exact h

theorem Keeps.stop {stop : Stop} : (throw stop : Run β).Keeps m post := Framed.refl m

theorem Keeps.lift {x : Except Fault β} (h : ∀ b, post b m) : (Run.lift x).Keeps m post := by
  cases x with
  | error fault => exact .refl m
  | ok b => exact ⟨.refl m, h b⟩

theorem Keeps.lift_bind {x : Except Fault α} {f : α → Run β}
    (rest : ∀ a, x = .ok a → (f a).Keeps m post) : (Run.lift x >>= f).Keeps m post := by
  cases x with
  | error fault => exact .refl m
  | ok a => exact rest a rfl

theorem Keeps.get_bind {f : Machine → Run β} (rest : (f m).Keeps m post) :
    (get >>= f).Keeps m post := rest

theorem Keeps.cellOf_bind {f : CellId → Run β} {name : String} {position : Position}
    (rest : ∀ cell ∈ m.scopes.values, (f cell).Keeps m post) :
    (Run.cellOf name position >>= f).Keeps m post := by
  unfold Keeps
  cases found : m.scopes.get? name with
  | none =>
    rw [bind_of_error (cellOf_of_free position found)]
    exact .refl m
  | some cell =>
    rw [bind_of_ok (cellOf_of_get? position found)]
    exact rest cell (Scopes.mem_values_of_get? found)

theorem Keeps.modify_bind {g : Machine → Machine} {f : Unit → Run β} (framed : Framed m (g m))
    (rest : (f ()).Keeps (g m) post) : ((modify g : Run Unit) >>= f).Keeps m post :=
  Keeps.bind (P := fun _ m' => m' = g m) ⟨framed, rfl⟩ fun _ _ _ same => same ▸ rest

theorem Keeps.fetch_bind {f : Value → Run β} {cell : CellId} {position : Position}
    (rest : ∀ v, (f v).Keeps m post) : (Run.fetch cell position >>= f).Keeps m post := by
  unfold Keeps
  by_cases held : cell ∈ m.borrowed
  · rw [bind_of_error (fetch_of_borrowed position held)]
    exact .refl m
  · rw [bind_of_ok (fetch_of_free position held)]
    exact rest (m.load cell)

theorem Keeps.change {act : Value → Except Fault (β × Value)} {cell : CellId}
    {position : Position} (named : cell ∈ m.scopes.values)
    (ends : ∀ b v, post b (m.store cell v)) : (Run.change cell position act).Keeps m post := by
  unfold Keeps
  by_cases held : cell ∈ m.borrowed
  · rw [change_of_borrowed position held]
    exact .refl m
  · cases done : act (m.load cell) with
    | error fault =>
      rw [change_of_error position held done]
      exact .refl m
    | ok pair =>
      obtain ⟨b, v⟩ := pair
      rw [change_of_ok position held done]
      exact ⟨.store named v, ends b v⟩

theorem Keeps.newCell {v : Value} : (Run.newCell v).Keeps m fun cell m' =>
    cell = m.cells.size ∧ m'.scopes = m.scopes := ⟨.push m v, rfl, rfl⟩

theorem Keeps.call {x : Run (List CellId)} {f : List CellId → Run β}
    (first : x.Keeps m fun cells m' => m'.scopes = m.scopes ∧
      ∀ cell ∈ cells, cell ∈ m.scopes.values ∨ m.cells.size ≤ cell)
    (second : ∀ cells m', Called cells m' ((f cells).final m')) :
    (x >>= f).Keeps m fun _ m' => m'.scopes = m.scopes := by
  unfold Keeps at first ⊢
  cases run : x m with
  | error stop m' =>
    rw [run] at first
    rw [bind_of_error run]
    exact first
  | ok cells m1 =>
    rw [run] at first
    rw [bind_of_ok run]
    obtain ⟨framed, same, origins⟩ := first
    have called := second cells m1
    unfold Run.final at called
    split
    · rename_i ran
      rw [ran] at called
      exact ⟨framed.call origins called, called.scopes.trans same⟩
    · rename_i ran
      rw [ran] at called
      exact framed.call origins called

theorem Keeps.define {name : String} {v : Value} {position : Position} :
    (Run.define name v position).Keeps m fun _ _ => True := by
  unfold Keeps
  cases defined : m.scopes.define? name m.cells.size with
  | none =>
    rw [define_of_none v position defined]
    exact .push m v
  | some scopes =>
    rw [define_of_some v position defined]
    exact ⟨.bound v defined, trivial⟩

theorem Keeps.inFrame {body : Run β}
    (h : body.Keeps { m with scopes := m.scopes.push } fun b _ => ∀ m', post b m') :
    (Run.inFrame body).Keeps m post := by
  unfold Keeps Run.inFrame at *
  cases ran : body { m with scopes := m.scopes.push } with
  | ok b m' =>
    rw [ran] at h
    exact ⟨h.1.popped, h.2 _⟩
  | error stop m' =>
    rw [ran] at h
    exact h.popped

end Run

namespace Program

structure Framing (p : Program) (n : Nat) : Prop where
  eval : ∀ e m, (p.eval n e).Keeps m fun _ m' => m'.scopes = m.scopes
  evalList : ∀ args m, (p.evalList n args).Keeps m fun _ m' => m'.scopes = m.scopes
  evalSteps : ∀ steps m, (p.evalSteps n steps).Keeps m fun _ m' => m'.scopes = m.scopes
  evalFields : ∀ s fields given m,
    (p.evalFields n s fields given).Keeps m fun _ m' => m'.scopes = m.scopes
  evalMethod : ∀ position root steps name nameAt args m,
    (p.evalMethod n position root steps name nameAt args).Keeps m fun _ m' =>
      m'.scopes = m.scopes
  evalCall : ∀ callee args position m,
    (p.evalCall n callee args position).Keeps m fun _ m' => m'.scopes = m.scopes
  bindArguments : ∀ params args m, (p.bindArguments n params args).Keeps m fun cells m' =>
    m'.scopes = m.scopes ∧ (∀ cell ∈ cells, cell ∈ m.scopes.values ∨ m.cells.size ≤ cell) ∧
      ∀ pair ∈ params.zip cells, pair.1.byReference = false → m.cells.size ≤ pair.2
  invoke : ∀ f cells position m, Called cells m ((p.invoke n f cells position).final m)
  execBlock : ∀ body m, (p.execBlock n body).Keeps m fun _ _ => True
  exec : ∀ s m, (p.exec n s).Keeps m fun _ _ => True
  execBranches : ∀ branches otherwise m,
    (p.execBranches n branches otherwise).Keeps m fun _ _ => True
  repeatBlock : ∀ body m, (p.repeatBlock n body).Keeps m fun _ _ => True

variable {p : Program} {n : Nat}

theorem framing_zero : p.Framing 0 := by
  constructor <;> intros
  · rw [eval]; exact .stop
  · rw [evalList]; exact .stop
  · rw [evalSteps]; exact .stop
  · rw [evalFields]; exact .stop
  · rw [evalMethod]; exact .stop
  · rw [evalCall]; exact .stop
  · rw [bindArguments]; exact .stop
  · rw [invoke]; exact ⟨Nat.le_refl _, fun _ _ _ => rfl, rfl, rfl⟩
  · rw [execBlock]; exact .stop
  · rw [exec]; exact .stop
  · rw [execBranches]; exact .stop
  · rw [repeatBlock]; exact .stop

section Expressions

variable (ih : p.Framing n) (m : Machine)
include ih

theorem eval_framed (e : Expr) :
    (p.eval (n + 1) e).Keeps m fun _ m' => m'.scopes = m.scopes := by
  cases e with
  | literal node value =>
    rw [eval]
    exact .lift fun _ => rfl
  | place node root steps =>
    rw [eval.eq_def]
    apply Run.Keeps.get_bind
    split
    · refine Run.Keeps.cellOf_bind fun cell _ => (ih.evalSteps steps m).bind ?_
      intro path m1 _ same
      exact Run.Keeps.fetch_bind fun _ => .lift fun _ => same
    · split
      · split
        · exact .pure rfl
        · exact .stop
      · exact .stop
  | method node root steps name nameAt args =>
    rw [eval]
    apply (ih.evalMethod node.position root steps name nameAt args m).bind
    intro result m1 _ same
    rcases result with _ | v
    · exact .stop
    · exact .pure same
  | call node callee args =>
    rw [eval]
    apply (ih.evalCall callee args node.position m).bind
    intro result m1 _ same
    rcases result with _ | v
    · exact .stop
    · exact .pure same
  | math node op left right | compare node op left right =>
    rw [eval]
    refine (ih.eval left m).bind fun a m1 _ same1 => ?_
    refine (ih.eval right m1).bind fun b m2 _ same2 => ?_
    exact .lift fun _ => same2.trans same1
  | unary node op operand =>
    rw [eval]
    exact (ih.eval operand m).bind fun v m1 _ same => .lift fun _ => same
  | build node name given =>
    rw [eval]
    split
    · exact .stop
    · refine (ih.evalFields _ [] given m).bind fun fields m1 _ same => ?_
      exact .lift_bind fun _ _ => .pure same

theorem evalList_framed (args : List Expr) :
    (p.evalList (n + 1) args).Keeps m fun _ m' => m'.scopes = m.scopes := by
  cases args with
  | nil =>
    rw [evalList]
    exact .pure rfl
  | cons e es =>
    rw [evalList]
    refine (ih.eval e m).bind fun v m1 _ same1 => ?_
    exact (ih.evalList es m1).bind fun vs m2 _ same2 => .pure (same2.trans same1)

theorem evalSteps_framed (steps : List Step) :
    (p.evalSteps (n + 1) steps).Keeps m fun _ m' => m'.scopes = m.scopes := by
  cases steps with
  | nil =>
    rw [evalSteps]
    exact .pure rfl
  | cons step steps =>
    cases step with
    | member name position =>
      rw [evalSteps]
      exact (ih.evalSteps steps m).bind fun path m1 _ same => .pure same
    | index e =>
      rw [evalSteps]
      refine (ih.eval e m).bind fun v m1 _ same1 => ?_
      split
      · exact (ih.evalSteps steps m1).bind fun path m2 _ same2 => .pure (same2.trans same1)
      · exact .stop

theorem evalFields_framed (s : Struct) (fields : List (String × Value)) (given : List Field) :
    (p.evalFields (n + 1) s fields given).Keeps m fun _ m' => m'.scopes = m.scopes := by
  cases given with
  | nil =>
    rw [evalFields]
    exact .pure rfl
  | cons field rest =>
    obtain ⟨name, position, value⟩ := field
    rw [evalFields]
    split
    · exact .stop
    · refine (ih.eval value m).bind fun v m1 _ same1 => ?_
      exact (ih.evalFields s _ rest m1).mono fun _ m2 _ same2 => same2.trans same1

theorem evalMethod_framed (position : Position) (root : String) (steps : List Step)
    (name : String) (nameAt : Position) (args : List Expr) :
    (p.evalMethod (n + 1) position root steps name nameAt args).Keeps m fun _ m' =>
      m'.scopes = m.scopes := by
  rw [evalMethod]
  refine Run.Keeps.cellOf_bind fun cell named => ?_
  refine (ih.evalSteps steps m).bind fun path m1 _ same1 => ?_
  refine (ih.evalList args m1).bind fun vs m2 _ same2 => ?_
  have named2 : cell ∈ m2.scopes.values := by rwa [same2, same1]
  exact .change named2 fun _ _ => same2.trans same1

theorem bindArguments_framed (params : List Param) (args : List Expr) :
    (p.bindArguments (n + 1) params args).Keeps m fun cells m' => m'.scopes = m.scopes ∧
      (∀ cell ∈ cells, cell ∈ m.scopes.values ∨ m.cells.size ≤ cell) ∧
      ∀ pair ∈ params.zip cells, pair.1.byReference = false → m.cells.size ≤ pair.2 := by
  rcases params with _ | ⟨param, params⟩
  · rw [bindArguments]
    · exact .pure ⟨rfl, nofun, nofun⟩
    · simp
  rcases args with _ | ⟨arg, args⟩
  · rw [bindArguments]
    · exact .pure ⟨rfl, nofun, by simp⟩
    · simp
  rw [bindArguments]
  split
  · rename_i shared
    split
    · refine Run.Keeps.cellOf_bind fun cell named => ?_
      apply (ih.bindArguments params args m).bind
      intro cells m1 _ ends1
      obtain ⟨same, origins, fresh⟩ := ends1
      refine .pure ⟨same, List.forall_mem_cons.mpr ⟨.inl named, origins⟩, ?_⟩
      refine List.forall_mem_cons.mpr ⟨fun byValue => ?_, fresh⟩
      rw [shared] at byValue
      cases byValue
    · exact .stop
  · refine (ih.eval arg m).bind fun v m1 grown1 same1 => ?_
    apply Run.Keeps.newCell.bind
    intro cell m2 grown2 ends2
    obtain ⟨rfl, same2⟩ := ends2
    apply (ih.bindArguments params args m2).bind
    intro cells m3 _ ends3
    obtain ⟨same3, origins, fresh⟩ := ends3
    have size := Nat.le_trans grown1.size grown2.size
    rw [same2, same1] at origins same3
    refine .pure ⟨same3, List.forall_mem_cons.mpr ⟨.inr grown1.size, fun cell member => ?_⟩, ?_⟩
    · exact (origins cell member).imp_right (Nat.le_trans size)
    · refine List.forall_mem_cons.mpr ⟨fun _ => grown1.size, fun pair member byValue => ?_⟩
      exact Nat.le_trans size (fresh pair member byValue)

theorem evalCall_framed (callee : String) (args : List Expr) (position : Position) :
    (p.evalCall (n + 1) callee args position).Keeps m fun _ m' => m'.scopes = m.scopes := by
  rw [evalCall]
  split
  · rename_i f _
    refine .call ((ih.bindArguments f.params args m).mono fun _ _ _ bound => ?_)
      fun cells m1 => ih.invoke f cells position m1
    exact ⟨bound.1, bound.2.1⟩
  · split
    · exact .stop
    · rename_i b _
      refine (ih.evalList args m).bind fun vs m1 _ same => .lift_bind ?_
      intro result _
      rcases result with _ | line
      · exact .pure same
      · exact ⟨.printed m1 line, same⟩

theorem invoke_framed (f : Function) (cells : List CellId) (position : Position) :
    Called cells m ((p.invoke (n + 1) f cells position).final m) := by
  rw [invoke]
  change Called cells m (Run.final (if _ then _ else _) m)
  split
  · exact .refl m
  · rw [Run.final_bind, Run.final_inCall]
    · have body := (ih.execBlock f.body { m with
        scopes := Scopes.ofArguments f.params cells, depth := m.depth + 1 }).final
      refine ⟨body.size, fun cell old other => body.kept cell old fun named => ?_, rfl, rfl⟩
      exact other (Scopes.values_ofArguments f.params cells named)
    · intro flow m1
      split <;> rfl

end Expressions

section Statements

variable (ih : p.Framing n) (m : Machine)
include ih

theorem execBlock_framed (body : List Stmt) :
    (p.execBlock (n + 1) body).Keeps m fun _ _ => True := by
  cases body with
  | nil =>
    rw [execBlock]
    exact .pure trivial
  | cons s rest =>
    rw [execBlock]
    refine (ih.exec s m).bind fun flow m1 _ _ => ?_
    split
    · exact ih.execBlock rest m1
    · exact .pure trivial

theorem inFrame_framed (body : List Stmt) :
    (Run.inFrame (p.execBlock n body)).Keeps m fun _ _ => True :=
  .inFrame ((ih.execBlock body _).mono fun _ _ _ _ _ => trivial)

theorem execBranches_framed (branches : List (Branch Stmt)) (otherwise : Option (List Stmt)) :
    (p.execBranches (n + 1) branches otherwise).Keeps m fun _ _ => True := by
  rcases branches with _ | ⟨branch, branches⟩
  · rcases otherwise with _ | body
    · rw [execBranches]
      exact .pure trivial
    · rw [execBranches]
      exact inFrame_framed ih m body
  · rw [execBranches]
    refine (ih.eval branch.condition m).bind fun v m1 _ _ => ?_
    split
    · exact inFrame_framed ih m1 branch.body
    · exact ih.execBranches branches otherwise m1
    · exact .stop

theorem repeatBlock_framed (body : List Stmt) :
    (p.repeatBlock (n + 1) body).Keeps m fun _ _ => True := by
  rw [repeatBlock]
  refine (ih.execBlock body m).bind fun flow m1 _ _ => ?_
  split
  · exact .modify_bind (.clear (.refl m1)) (ih.repeatBlock body _)
  · exact .modify_bind (.clear (.refl m1)) (ih.repeatBlock body _)
  · exact .pure trivial
  · exact .pure trivial

theorem exec_framed (s : Stmt) : (p.exec (n + 1) s).Keeps m fun _ _ => True := by
  cases s with
  | declare node name type =>
    rw [exec]
    refine .lift_bind fun type _ => .lift_bind fun v _ => ?_
    exact Run.Keeps.define.bind fun _ _ _ _ => .pure trivial
  | define node name type value isConst =>
    rw [exec]
    refine .lift_bind fun type _ => (ih.eval value m).bind fun v m1 _ _ => ?_
    exact Run.Keeps.define.bind fun _ _ _ _ => .pure trivial
  | assign position target root steps value =>
    rw [exec]
    refine (ih.eval value m).bind fun v m1 _ _ => .lift_bind fun type _ => ?_
    refine .cellOf_bind fun cell named => (ih.evalSteps steps m1).bind fun path m2 _ same => ?_
    exact .change (same ▸ named) fun _ _ => trivial
  | loop position body =>
    rw [exec]
    exact .inFrame ((ih.repeatBlock body _).mono fun _ _ _ _ _ => trivial)
  | choose position first elifs otherwise =>
    rw [exec]
    exact ih.execBranches (first :: elifs) otherwise m
  | «return» position value =>
    rcases value with _ | e
    · rw [exec]
      exact .pure trivial
    · rw [exec]
      exact (ih.eval e m).bind fun _ _ _ _ => .pure trivial
  | «break» position | «continue» position =>
    rw [exec]
    exact .pure trivial
  | call position node callee args =>
    rw [exec]
    exact (ih.evalCall callee args node.position m).bind fun _ _ _ _ => .pure trivial
  | place position node root steps =>
    rw [exec]
    exact (ih.eval (.place node root steps) m).bind fun _ _ _ _ => .pure trivial
  | method position node root steps name nameAt args =>
    rw [exec]
    exact (ih.evalMethod node.position root steps name nameAt args m).bind
      fun _ _ _ _ => .pure trivial

end Statements

theorem framing (p : Program) (n : Nat) : p.Framing n := by
  induction n with
  | zero => exact framing_zero
  | succ n ih =>
    constructor
    · exact fun e m => eval_framed ih m e
    · exact fun args m => evalList_framed ih m args
    · exact fun steps m => evalSteps_framed ih m steps
    · exact fun s fields given m => evalFields_framed ih m s fields given
    · exact fun position root steps name nameAt args m =>
        evalMethod_framed ih m position root steps name nameAt args
    · exact fun callee args position m => evalCall_framed ih m callee args position
    · exact fun params args m => bindArguments_framed ih m params args
    · exact fun f cells position m => invoke_framed ih m f cells position
    · exact fun body m => execBlock_framed ih m body
    · exact fun s m => exec_framed ih m s
    · exact fun branches otherwise m => execBranches_framed ih m branches otherwise
    · exact fun body m => repeatBlock_framed ih m body

end Program
end LoopLang
