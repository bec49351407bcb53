import LoopLang.Proofs.Execution.Course
import Mathlib.Data.List.Pairwise

namespace LoopLang

namespace Scopes.Rel

variable {α β : Type} {R : α → β → Prop} {s : Scopes α} {t : Scopes β}

theorem related (h : Rel R s t) {name : String} {a : α} {b : β} (found : s.get? name = some a)
    (found' : t.get? name = some b) : R a b := by
  have both := h.get? name
  rw [found, found'] at both
  cases both with
  | some related => exact related

theorem ofArguments {R : Binding → CellId → Prop} {params : List Param} {cells : List CellId}
    (given : List.Forall₂ (fun param cell => R (ofParam param) cell) params cells) :
    Rel R (ofParams params) (Scopes.ofArguments params cells) := by
  have entries : Frame.Rel R (params.map fun param => (param.name, ofParam param))
      ((params.zip cells).map fun pair => (pair.1.name, pair.2)) := by
    induction given with
    | nil => exact .nil
    | cons related _ ih => exact .cons ⟨rfl, related⟩ ih
  have bound := Scopes.Rel.foldl entries .empty
  rw [List.foldl_map, List.foldl_map] at bound
  exact bound

end Scopes.Rel

namespace Stmt

def name? : Stmt → Option String
  | .declare _ name _ | .define _ name _ _ _ => some name
  | _ => none

end Stmt

theorem Run.Keeps.lookup_bind {β : Type} {m : Machine} {f : CellId → Run β}
    {post : β → Machine → Prop} {name : String} {position : Position}
    (rest : ∀ cell, m.scopes.get? name = some cell → (f cell).Keeps m post) :
    (Run.cellOf name position >>= f).Keeps m post := by
  unfold Keeps
  cases found : m.scopes.get? name with
  | none =>
    rw [bind_of_error (cellOf_of_free position found)]
    exact .refl m
  | some cell =>
    rw [bind_of_ok (cellOf_of_get? position found)]
    exact rest cell found

namespace Program

variable {p : Program} {pt next root : Point} {parts : List Point} {cells cells' : Array Value}
  {cell : Nat} {b : Binding} {v : Value}

section Sizes

theorem Begins.fuel (h : p.Begins pt next) : pt.fuel = next.fuel + 1 := by
  cases h <;> rfl

/-- The course of a point from below: cells are only added, and what is begun follows one after
    the other. -/
theorem Course.ordered (h : p.Course pt parts cells cells')
    (grows : ∀ next, p.Begins pt next → next.machine.cells.size ≤ (next.final p).cells.size) :
    cells.size ≤ cells'.size ∧
      (∀ next ∈ parts, cells.size ≤ next.machine.cells.size ∧
        (next.final p).cells.size ≤ cells'.size) ∧
      parts.Pairwise fun a b => (a.final p).cells.size ≤ b.machine.cells.size := by
  induction h with
  | done => exact ⟨Nat.le_refl _, nofun, .nil⟩
  | begins begun _ ih =>
    obtain ⟨size, inside, ordered⟩ := ih
    have grown := grows _ begun
    refine ⟨Nat.le_trans grown size, ?_, .cons (fun b member => (inside b member).1) ordered⟩
    refine List.forall_mem_cons.mpr ⟨⟨Nat.le_refl _, size⟩, fun b member => ?_⟩
    exact ⟨Nat.le_trans grown (inside b member).1, (inside b member).2⟩
  | creates _ _ ih =>
    obtain ⟨size, inside, ordered⟩ := ih
    rw [Array.size_push] at size inside
    exact ⟨by omega, fun b member => ⟨by have := (inside b member).1; omega,
      (inside b member).2⟩, ordered⟩
  | writes _ _ ih =>
    obtain ⟨size, inside, ordered⟩ := ih
    rw [Array.size_setIfInBounds] at size inside
    exact ⟨size, inside, ordered⟩

theorem size_le_final (p : Program) (pt : Point) :
    pt.machine.cells.size ≤ (pt.final p).cells.size := by
  induction fuel : pt.fuel generalizing pt with
  | zero =>
    obtain ⟨parts, course, _⟩ := p.charted pt
    refine (course.ordered fun next begun => ?_).1
    have := begun.fuel
    omega
  | succ n ih =>
    obtain ⟨parts, course, _⟩ := p.charted pt
    refine (course.ordered fun next begun => ih next ?_).1
    have := begun.fuel
    omega

theorem Begins.size (h : p.Begins pt next) :
    pt.machine.cells.size ≤ next.machine.cells.size ∧
      (next.final p).cells.size ≤ (pt.final p).cells.size := by
  obtain ⟨parts, course, all⟩ := p.charted pt
  exact (course.ordered fun next _ => p.size_le_final next).2.1 next (all next h)

/-- Two points are the same, or one of them has ended when the other begins. -/
def Apart (p : Program) (a b : Point) : Prop :=
  a = b ∨ (a.final p).cells.size ≤ b.machine.cells.size ∨
    (b.final p).cells.size ≤ a.machine.cells.size

theorem apart_symm (p : Program) : Std.Symm p.Apart := by
  refine ⟨fun a b h => ?_⟩
  rcases h with same | earlier | later
  · exact .inl same.symm
  · exact .inr (.inr earlier)
  · exact .inr (.inl later)

theorem Begins.apart {other : Point} (h : p.Begins pt next) (h' : p.Begins pt other) :
    p.Apart next other := by
  obtain ⟨parts, course, all⟩ := p.charted pt
  have ordered := (course.ordered fun next _ => p.size_le_final next).2.2
  have either : parts.Pairwise p.Apart := ordered.imp fun earlier => .inr (.inl earlier)
  have symmetric := p.apart_symm
  exact either.forall_of_forall (fun _ _ => .inl rfl) (all next h) (all other h')

theorem Within.size (h : p.Within root pt) :
    root.machine.cells.size ≤ pt.machine.cells.size ∧
      (pt.final p).cells.size ≤ (root.final p).cells.size := by
  induction h with
  | refl => exact ⟨Nat.le_refl _, Nat.le_refl _⟩
  | tail _ begun ih =>
    have size := begun.size
    exact ⟨Nat.le_trans ih.1 size.1, Nat.le_trans size.2 ih.2⟩

end Sizes

section Uniqueness

theorem cells_define_bind {name : String} {position : Position} {flow : Flow} (v : Value)
    (m : Machine) :
    ((Run.define name v position >>= fun _ => pure flow : Run Flow).final m).cells =
      m.cells.push v := by
  unfold Run.final
  cases defined : m.scopes.define? name m.cells.size with
  | none => rw [Run.bind_of_error (Run.define_of_none v position defined)]
  | some scopes =>
    rw [Run.bind_of_ok (Run.define_of_some v position defined)]
    rfl

theorem Creates.size (h : p.Creates pt cell b v) :
    pt.machine.cells.size ≤ cell ∧ cell < (pt.final p).cells.size := by
  cases h with
  | @declared n node name written m names callers type v noted default =>
    have made : (Point.final p ⟨n + 1, .statement (.declare node name written), m, names,
        callers⟩).cells = m.cells.push v := by
      change ((p.exec (n + 1) (.declare node name written)).final m).cells = _
      rw [exec, noted, Run.lift_ok_bind, default, Run.lift_ok_bind]
      exact cells_define_bind v m
    rw [made, Array.size_push]
    exact ⟨Nat.le_refl _, Nat.lt_succ_self _⟩
  | @defined n node name written value isConst m m' names callers type v noted ran =>
    have made : (Point.final p ⟨n + 1, .statement (.define node name written value isConst), m,
        names, callers⟩).cells = m'.cells.push (v.coerce type) := by
      change ((p.exec (n + 1) (.define node name written value isConst)).final m).cells = _
      rw [exec, noted, Run.lift_ok_bind, Run.final, Run.bind_of_ok ran]
      exact cells_define_bind _ m'
    rw [made, Array.size_push]
    exact ⟨(((p.framing n).eval value m).ok ran).1.size, Nat.lt_succ_self _⟩
  | @parameter n param params arg args m m' names callers v byValue ran =>
    have rest : p.Begins ⟨n + 1, .bind (param :: params) (arg :: args), m, names, callers⟩
        ⟨n, .bind params args, { m' with cells := m'.cells.push (v.coerce param.type) }, names,
          callers⟩ := .part (.inr (.inl (.afterValue byValue ran (Run.newCell_eq _))))
    have before := (((p.framing n).eval arg m).ok ran).1.size
    have later := Nat.le_trans (p.size_le_final _) rest.size.2
    simp only [Array.size_push] at later
    exact ⟨before, later⟩

/-- A point makes its cell before or after what it begins. -/
theorem Creates.apart (h : p.Creates pt cell b v) (begun : p.Begins pt next) :
    (next.final p).cells.size ≤ cell ∨ cell < next.machine.cells.size := by
  cases h with
  | declared =>
    cases begun with
    | part h => rcases h with h | h | h <;> cases h
    | frame h => cases h
  | defined _ ran =>
    cases begun with
    | part h =>
      rcases h with h | h | h <;> cases h
      exact .inl (by simp only [Point.final, Task.final, Run.final, ran, Nat.le_refl])
    | frame h => cases h
  | parameter byValue ran =>
    cases begun with
    | part h =>
      rcases h with h | h | h
      · cases h
      · cases h with
        | argument =>
          exact .inl (by simp only [Point.final, Task.final, Run.final, ran, Nat.le_refl])
        | afterValue _ again new =>
          rw [ran] at again
          cases again
          rw [Run.newCell_eq] at new
          cases new
          exact .inr (by simp)
        | afterReference byReference =>
          rw [byValue] at byReference
          cases byReference
      · cases h
    | frame h => cases h

theorem Creates.point_unique {pt' : Point} {b' : Binding} {v' : Value}
    (h : p.Creates pt cell b v) (h' : p.Creates pt' cell b' v') (inside : p.Within root pt)
    (inside' : p.Within root pt') : pt = pt' := by
  -- Both points are followed down from the root until their ways part. From there on the one has
  -- ended when the other begins, so that they cannot make the same cell.
  induction inside using Relation.ReflTransGen.head_induction_on with
  | refl =>
    cases Relation.ReflTransGen.cases_head inside' with
    | inl same => exact same
    | inr deeper =>
      obtain ⟨next, begun, deeper⟩ := deeper
      have span := Within.size deeper
      have made := h'.size
      rcases h.apart begun with before | after <;> omega
  | @head root next begun deeper ih =>
    have span := Within.size deeper
    have made := h.size
    cases Relation.ReflTransGen.cases_head inside' with
    | inl same =>
      subst same
      rcases h'.apart begun with before | after <;> omega
    | inr deeper' =>
      obtain ⟨next', begun', deeper'⟩ := deeper'
      have span' := Within.size deeper'
      have made' := h'.size
      rcases begun.apart begun' with rfl | earlier | later
      · exact ih deeper'
      · omega
      · omega

theorem Creates.unique {cell' : Nat} {b' : Binding} {v' : Value} (h : p.Creates pt cell b v)
    (h' : p.Creates pt cell' b' v') : b = b' ∧ v = v' := by
  cases h with
  | declared noted default =>
    cases h' with
    | declared noted' default' =>
      rw [noted] at noted'
      cases noted'
      rw [default] at default'
      cases default'
      exact ⟨rfl, rfl⟩
  | defined noted ran =>
    cases h' with
    | defined noted' ran' =>
      rw [noted] at noted'
      cases noted'
      rw [ran] at ran'
      cases ran'
      exact ⟨rfl, rfl⟩
  | parameter _ ran =>
    cases h' with
    | parameter _ ran' =>
      rw [ran] at ran'
      cases ran'
      exact ⟨rfl, rfl⟩

end Uniqueness

section Names

variable {n : Nat} {m m' : Machine} {names names' : Scopes Binding} {callers : List Activation}

theorem inFrame_keeps {body : Run Flow}
    (h : body.Keeps { m with scopes := m.scopes.push } fun _ _ => True) :
    (Run.inFrame body).Keeps m fun _ m' => m'.scopes = m.scopes := by
  unfold Run.Keeps Run.inFrame at *
  cases ran : body { m with scopes := m.scopes.push } with
  | ok b m' =>
    rw [ran] at h
    exact ⟨h.1.popped, h.1.pop⟩
  | error stop m' =>
    rw [ran] at h
    exact h.popped

theorem execBranches_keeps (choices : List (Branch Stmt)) (otherwise : Option (List Stmt)) :
    (p.execBranches n choices otherwise).Keeps m fun _ m' => m'.scopes = m.scopes := by
  induction n generalizing choices m with
  | zero =>
    rw [execBranches]
    exact .stop
  | succ n ih =>
    rcases choices with _ | ⟨branch, branches⟩
    · rcases otherwise with _ | body
      · rw [execBranches]
        exact .pure rfl
      · rw [execBranches]
        exact inFrame_keeps ((p.framing n).execBlock body _)
    · rw [execBranches]
      refine ((p.framing n).eval branch.condition m).bind fun v m1 _ same => ?_
      split
      · exact (inFrame_keeps ((p.framing n).execBlock branch.body _)).mono
          fun _ _ _ same' => same'.trans same
      · exact (ih branches).mono fun _ _ _ same' => same'.trans same
      · exact .stop

/-- What a statement has done to the names when it has ended: nothing, or it has bound the name that
    it declares to the cell that it has made for it. -/
def Introduces (p : Program) (pt : Point) :
    (name : Option String) → Scopes Binding → Scopes CellId → Prop
  | none, names', scopes' => names' = pt.names ∧ scopes' = pt.machine.scopes
  | some name, names', scopes' => ∃ b cell v, p.Creates pt cell b v ∧
      pt.names.define? name b = some names' ∧ pt.machine.scopes.define? name cell = some scopes'

theorem define_keeps {name : String} {position : Position} {v : Value}
    {post : Scopes CellId → Prop}
    (h : ∀ scopes, m.scopes.define? name m.cells.size = some scopes → post scopes) :
    (Run.define name v position >>= fun _ => pure .normal : Run Flow).Keeps m
      fun _ m' => post m'.scopes := by
  unfold Run.Keeps
  cases defined : m.scopes.define? name m.cells.size with
  | none =>
    rw [Run.bind_of_error (Run.define_of_none v position defined)]
    exact .push m v
  | some scopes =>
    rw [Run.bind_of_ok (Run.define_of_some v position defined)]
    exact ⟨.bound v defined, h scopes defined⟩

theorem exec_keeps (callers : List Activation) {returns : Option Ty} {inLoop : Bool} {s : Stmt}
    (typed : s.Typed p returns inLoop names names') :
    (p.exec n s).Keeps m fun _ m' =>
      p.Introduces ⟨n, .statement s, m, names, callers⟩ s.name? names' m'.scopes := by
  cases n with
  | zero =>
    rw [exec]
    exact .stop
  | succ n =>
    have framing := p.framing n
    cases typed with
    | declare _ _ _ noted defined =>
      rw [exec, typeOf_eq noted, Run.lift_ok_bind]
      refine .lift_bind fun v default => define_keeps fun scopes bound => ?_
      exact ⟨_, _, v, .declared (typeOf_eq noted) default, defined, bound⟩
    | define _ _ _ _ noted defined =>
      rw [exec, typeOf_eq noted, Run.lift_ok_bind]
      refine (framing.eval _ m).result.bind fun v m1 _ ends => define_keeps fun scopes bound => ?_
      rw [ends.2] at bound
      exact ⟨_, _, _, .defined (typeOf_eq noted) ends.1, defined, bound⟩
    | assign _ _ _ _ _ _ _ =>
      rw [exec]
      refine (framing.eval _ m).bind fun v m1 _ same1 => .lift_bind fun type _ => ?_
      refine .cellOf_bind fun cell named => ?_
      refine (framing.evalSteps _ m1).bind fun path m2 _ same2 => ?_
      exact .change (same2 ▸ named) fun _ _ => ⟨rfl, same2.trans same1⟩
    | loop _ =>
      rw [exec]
      exact (inFrame_keeps (framing.repeatBlock _ _)).mono fun _ _ _ same => ⟨rfl, same⟩
    | choose _ =>
      rw [exec]
      exact (execBranches_keeps _ _).mono fun _ _ _ same => ⟨rfl, same⟩
    | returnValue _ _ _ =>
      rw [exec]
      exact (framing.eval _ m).bind fun _ _ _ same => .pure ⟨rfl, same⟩
    | returnNothing _ | «break» | «continue» =>
      rw [exec]
      exact .pure ⟨rfl, rfl⟩
    | call _ _ =>
      rw [exec]
      exact (framing.evalCall _ _ _ m).bind fun _ _ _ same => .pure ⟨rfl, same⟩
    | method _ _ _ _ _ =>
      rw [exec]
      exact (framing.evalMethod _ _ _ _ _ _ m).bind fun _ _ _ same => .pure ⟨rfl, same⟩

end Names

theorem Reached.begins (h : p.Reached pt) (begun : p.Begins pt next) : p.Reached next := by
  cases begun with
  | part parts => exact h.part parts
  | frame inFrame => exact h.frame inFrame
  | rest ran => exact h.rest ran
  | body shallow => exact h.body shallow

theorem Reached.within (h : p.Reached root) (inside : p.Within root pt) : p.Reached pt := by
  induction inside with
  | refl => exact h
  | tail _ begun ih => exact ih.begins begun

section Origins

variable {n : Nat} {m m' : Machine} {task task' : Task} {names : Scopes Binding}
  {callers : List Activation}

/-- In a run the cell was made for the variable, or else for one that the variable is another name
    of: no name may be given to a variable that cannot be assigned to. -/
def MadeFor (p : Program) (root : Point) (b : Binding) (cell : CellId) : Prop :=
  ∃ pt made v, p.Within root pt ∧ p.Creates pt cell made v ∧
    (b = made ∨ b.mutability = .mutable ∧ made.mutability = .mutable)

/-- All variables at a point denote cells that were made for them, and so do the parameters of a
    call that is about to begin. -/
structure Accounted (p : Program) (root pt : Point) : Prop where
  names : Scopes.Rel (p.MadeFor root) pt.names pt.machine.scopes
  given : ∀ f cells position, pt.task = .invoke f cells position →
    List.Forall₂ (fun param cell => p.MadeFor root (Scopes.ofParam param) cell) f.params cells

theorem InExpr.scopes (h : p.InExpr n m task task' m') : m'.scopes = m.scopes := by
  have framing := p.framing n
  cases h with
  | mathRight ran | compareRight ran | others ran | indexed ran _ | moreFields _ ran =>
    exact ((framing.eval _ m).ok ran).2
  | _ => rfl

theorem InCall.scopes (h : p.InCall n m task task' m') : m'.scopes = m.scopes := by
  have framing := p.framing n
  cases h with
  | methodArguments _ ran => exact ((framing.evalSteps _ m).ok ran).2
  | invoke _ ran => exact ((framing.bindArguments _ _ m).ok ran).2.1
  | afterValue _ ran new =>
    rw [Run.newCell_eq] at new
    cases new
    exact ((framing.eval _ m).ok ran).2
  | _ => rfl

theorem InStmt.scopes (h : p.InStmt n m task task' m')
    (empty : ∀ body, task = .pass body → m.scopes.inner = []) : m'.scopes = m.scopes := by
  have framing := p.framing n
  cases h with
  | assignedPlace ran _ _ | nextBranch ran _ => exact ((framing.eval _ m).ok ran).2
  | @nextPass body _ m1 ran _ =>
    have outer := ((framing.execBlock body m).ok ran).1.outer
    change (⟨[], m1.scopes.outer⟩ : Scopes CellId) = m.scopes
    rw [outer, ← empty body rfl]
  | _ => rfl

theorem Fine.inner_of_pass {d : CellTypes} {body : List Stmt}
    (fine : p.Fine d names (.pass body) m) : m.scopes.inner = [] := by
  obtain ⟨_, named, returns, outer, inner, rfl, _⟩ := fine
  exact List.forall₂_nil_left_iff.mp named.inner

theorem Fine.part_scopes {d : CellTypes} (fine : p.Fine d names task m)
    (h : p.InExpr n m task task' m' ∨ p.InCall n m task task' m' ∨ p.InStmt n m task task' m') :
    m'.scopes = m.scopes := by
  rcases h with inExpr | inCall | inStmt
  · exact inExpr.scopes
  · exact inCall.scopes
  · refine inStmt.scopes fun body same => ?_
    subst same
    exact fine.inner_of_pass

theorem InFrame.scopes (h : p.InFrame n m task task' m') : m'.scopes = m.scopes := by
  cases h with
  | branch ran _ => exact (((p.framing n).eval _ m).ok ran).2
  | _ => rfl

/-- The cells of a call's parameters: an argument by value is a new variable, and one by reference
    is another name of a variable that may be assigned to. -/
theorem bindArguments_keeps {params : List Param} {args : List Expr}
    (inside : p.Within root ⟨n, .bind params args, m, names, callers⟩)
    (known : Scopes.Rel (p.MadeFor root) names m.scopes)
    (fit : Expr.Match p names params args) :
    (p.bindArguments n params args).Keeps m fun cells _ =>
      List.Forall₂ (fun param cell => p.MadeFor root (Scopes.ofParam param) cell) params cells := by
  induction n generalizing params args m with
  | zero =>
    rw [bindArguments]
    exact .stop
  | succ n ih =>
    cases fit with
    | nil =>
      rw [bindArguments]
      · exact .pure .nil
      · simp
    | @value param params arg args type byValue arg_typed accepted rest =>
      rw [bindArguments, byValue, if_neg Bool.false_ne_true]
      apply ((p.framing n).eval arg m).result.bind
      intro v m1 _ ends1
      obtain ⟨ran, same1⟩ := ends1
      apply Run.Keeps.newCell.result.bind
      intro cell m2 _ ends2
      obtain ⟨new, rfl, same2⟩ := ends2
      have begun : p.Within root ⟨n, .bind params args, m2, names, callers⟩ :=
        inside.tail (.part (.inr (.inl (.afterValue byValue ran new))))
      refine (ih begun (by rwa [same2, same1]) rest).bind fun cells m3 _ given => .pure ?_
      exact .cons ⟨_, _, _, inside, .parameter byValue ran, .inl rfl⟩ given
    | @reference param params node name args shared bound rest =>
      rw [bindArguments, if_pos shared]
      refine .lookup_bind fun cell found => ?_
      have begun : p.Within root ⟨n, .bind params args, m, names, callers⟩ :=
        inside.tail (.part (.inr (.inl (.afterReference shared rfl found))))
      refine (ih begun known rest).bind fun cells m1 _ given => .pure (.cons ?_ given)
      rw [Scopes.ofParam, if_pos shared]
      exact known.related bound found

theorem Accounted.begins (typed : p.Typed) (reached : p.Reached pt) (inside : p.Within root pt)
    (h : p.Accounted root pt) (begun : p.Begins pt next) : p.Accounted root next := by
  obtain ⟨d, fine, _⟩ := reached.fine typed
  cases begun with
  | @part n task task' m m' names callers parts =>
    refine ⟨by rw [fine.part_scopes parts]; exact h.names, fun f cells position calls => ?_⟩
    change task' = _ at calls
    subst calls
    rcases parts with inExpr | inCall | inStmt
    · cases inExpr
    · cases inCall with
      | invoke found ran =>
        obtain ⟨_, _, s, lookup, fit⟩ := fine
        rw [Globals.signature?, found] at lookup
        cases lookup
        have begun := inside.tail (.part (.inr (.inl (.arguments found))))
        exact ((bindArguments_keeps begun h.names fit).ok ran).2
    · cases inStmt
  | @frame n task task' m m' names callers inFrame =>
    refine ⟨?_, fun f cells position calls => ?_⟩
    · rw [inFrame.scopes]
      exact h.names.push
    · change task' = _ at calls
      subst calls
      cases inFrame
  | @rest n s rest m m' names callers ran =>
    obtain ⟨_, _, returns, inLoop, names', body⟩ := fine
    refine ⟨?_, fun f cells position calls => by cases calls⟩
    cases body with
    | @cons _ _ now _ _ _ first _ =>
      rw [first.declared]
      have introduced := ((exec_keeps callers first).ok ran).2
      cases declares : s.name? with
      | none =>
        rw [declares] at introduced
        obtain ⟨rfl, same⟩ := introduced
        rw [same]
        exact h.names
      | some name =>
        rw [declares] at introduced
        obtain ⟨b, cell, v, creates, defined, bound⟩ := introduced
        have begun := inside.tail (.part (.inr (.inr .statement)))
        have both := h.names.define? ⟨_, _, _, begun, creates, .inl rfl⟩ name
        rw [defined, bound] at both
        cases both with
        | some named => exact named
  | @body n f cells position m names callers shallow =>
    refine ⟨Scopes.Rel.ofArguments (h.given f cells position rfl), fun f cells position calls => ?_⟩
    cases calls

/-- Wherever a run is, every variable denotes a cell that the run has made for it. -/
theorem Within.accounted (typed : p.Typed) (reached : p.Reached root)
    (start : p.Accounted root root) (inside : p.Within root pt) : p.Accounted root pt := by
  induction inside with
  | refl => exact start
  | tail inside begun ih => exact ih.begins typed (reached.within inside) inside begun

end Origins

end Program
end LoopLang
