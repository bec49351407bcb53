import LoopLang.Proofs.Execution.Points
import LoopLang.Proofs.Value.Unchanged
import Mathlib.Logic.Relation

namespace LoopLang

namespace Point

def final (p : Program) (pt : Point) : Machine := pt.task.final p pt.fuel pt.machine

end Point

namespace Flow

def onwards (next : Point) : Flow → List Point
  | .normal => [next]
  | _ => []

def again (next : Point) : Flow → List Point
  | .normal | .continue => [next]
  | _ => []

end Flow

namespace Value

def choice (holds fails : Point) (v : Value) : List Point :=
  match v.bool? with
  | some true => [holds]
  | some false => [fails]
  | none => []

end Value

namespace Task

def isExpr : Task → Bool
  | value _ | values _ | path _ | fields _ _ _ => true
  | _ => false

def isCall : Task → Bool
  | method _ _ _ _ _ _ | call _ _ _ | bind _ _ => true
  | _ => false

def isStmt : Task → Bool
  | statement _ | branches _ _ | pass _ => true
  | _ => false

end Task

namespace Program

inductive Begins (p : Program) : Point → Point → Prop where
  | part {n task task' m m' names callers} :
    p.InExpr n m task task' m' ∨ p.InCall n m task task' m' ∨ p.InStmt n m task task' m' →
    Begins p ⟨n + 1, task, m, names, callers⟩ ⟨n, task', m', names, callers⟩
  | frame {n task task' m m' names callers} :
    p.InFrame n m task task' m' →
    Begins p ⟨n + 1, task, m, names, callers⟩
      ⟨n, task', { m' with scopes := m'.scopes.push }, names.push, callers⟩
  | rest {n s rest m m' names callers} :
    p.exec n s m = .ok .normal m' →
    Begins p ⟨n + 1, .block (s :: rest), m, names, callers⟩
      ⟨n, .block rest, m', s.declared p.globals names, callers⟩
  | body {n f cells position m names callers} :
    m.depth < Machine.maxDepth →
    Begins p ⟨n + 1, .invoke f cells position, m, names, callers⟩
      ⟨n, .block f.body,
        { m with scopes := Scopes.ofArguments f.params cells, depth := m.depth + 1 },
        Scopes.ofParams f.params, ⟨names, m.scopes⟩ :: callers⟩

/-- A point and all that is begun there, by itself or by what it begins. -/
def Within (p : Program) : Point → Point → Prop := Relation.ReflTransGen p.Begins

/-- At a point a cell is made for a variable: what is known of the variable, and the value that the
    cell holds at first. -/
inductive Creates (p : Program) : Point → CellId → Binding → Value → Prop where
  | declared {n node name written m names callers type v} :
    p.typeOf node = .ok type →
    p.defaultValue node.position type = .ok v →
    Creates p ⟨n + 1, .statement (.declare node name written), m, names, callers⟩ m.cells.size
      ⟨type, .mutable⟩ v
  | defined {n node name written value isConst m m' names callers type v} :
    p.typeOf node = .ok type →
    p.eval n value m = .ok v m' →
    Creates p ⟨n + 1, .statement (.define node name written value isConst), m, names, callers⟩
      m'.cells.size ⟨type, if isConst then .constant else .mutable⟩ (v.coerce type)
  | parameter {n param params arg args m m' names callers v} :
    param.byReference = false →
    p.eval n arg m = .ok v m' →
    Creates p ⟨n + 1, .bind (param :: params) (arg :: args), m, names, callers⟩ m'.cells.size
      (Scopes.ofParam param) (v.coerce param.type)

/-- At a point the value of a cell may be replaced: by an assignment to a part of the variable, or
    by a method that changes its receiver. -/
inductive Writes (p : Program) : Point → CellId → Prop where
  | assigned {n position target root steps value m names callers cell} :
    m.scopes.get? root = some cell →
    Writes p ⟨n + 1, .statement (.assign position target root steps value), m, names, callers⟩ cell
  | changed {n position root steps method nameAt args m names callers cell} :
    m.scopes.get? root = some cell →
    Method.mutates method = true →
    Writes p
      ⟨n + 1, .method position root steps method.name nameAt args, m, names, callers⟩ cell

/-- What becomes of the cells at a point, with what is begun there in order. -/
inductive Course (p : Program) (pt : Point) : List Point → Array Value → Array Value → Prop where
  | done {cells} : Course p pt [] cells cells
  | begins {next rest cells} :
    p.Begins pt next →
    Course p pt rest (next.final p).cells cells →
    Course p pt (next :: rest) next.machine.cells cells
  | creates {rest cells cells' b v} :
    p.Creates pt cells.size b v →
    Course p pt rest (cells.push v) cells' →
    Course p pt rest cells cells'
  | writes {rest cells cells' cell v} :
    p.Writes pt cell →
    Course p pt rest (cells.setIfInBounds cell v) cells' →
    Course p pt rest cells cells'

end Program

namespace Run

variable {α β : Type}

theorem cells_lift (a : Except Fault α) (m : Machine) :
    ((Run.lift a).final m).cells = m.cells := by
  cases a <;> rfl

theorem cells_lift_bind {a : Except Fault α} {f : α → Run β} (m : Machine)
    (looks : ∀ b, ((f b).final m).cells = m.cells) :
    ((Run.lift a >>= f).final m).cells = m.cells := by
  cases a with
  | error fault => rfl
  | ok b => exact looks b

theorem Keeps.ok {m m' : Machine} {x : Run β} {b : β} {post : β → Machine → Prop}
    (h : x.Keeps m post) (ran : x m = .ok b m') : Framed m m' ∧ post b m' := by
  unfold Keeps at h
  rw [ran] at h
  exact h

theorem Keeps.result {m : Machine} {x : Run β} {post : β → Machine → Prop}
    (h : x.Keeps m post) : x.Keeps m fun b m' => x m = .ok b m' ∧ post b m' := by
  unfold Keeps at *
  split at h
  · rename_i ran
    exact ⟨h.1, ran, h.2⟩
  · exact h

/-- What is begun after a computation, which depends on its result. There is nothing after one
    that stops. -/
def after (x : Run α) (m : Machine) (k : α → Machine → List Point) : List Point :=
  match x m with
  | .ok a m' => k a m'
  | .error _ _ => []

theorem mem_after {x : Run α} {m m' : Machine} {k : α → Machine → List Point} {a : α}
    {pt : Point} (ran : x m = .ok a m') (member : pt ∈ k a m') : pt ∈ after x m k := by
  rw [after, ran]
  exact member

/-- A computation at a point begins `parts`, and nothing else changes the cells. -/
def Goes (p : Program) (pt : Point) (parts : List Point) (x : Run α) (m : Machine) : Prop :=
  p.Course pt parts m.cells (x.final m).cells

variable {p : Program} {pt next : Point} {parts : List Point} {m : Machine} {x : Run α}
  {f : α → Run β} {k : α → Machine → List Point}

theorem Goes.quiet (same : (x.final m).cells = m.cells) : Goes p pt [] x m := by
  unfold Goes
  rw [same]
  exact .done

theorem Goes.fail {fault : Fault} : Goes p pt [] (Run.fail fault : Run α) m := .quiet rfl

theorem Goes.pure {a : α} : Goes p pt [] (Pure.pure a : Run α) m := .quiet rfl

theorem Goes.lift {a : Except Fault α} : Goes p pt [] (Run.lift a) m := .quiet (cells_lift a m)

theorem Goes.get_bind {g : Machine → Run β} (rest : Goes p pt parts (g m) m) :
    Goes p pt parts (get >>= g) m := rest

theorem Goes.modify_bind {g : Machine → Machine} {h : Unit → Run β}
    (same : (g m).cells = m.cells) (rest : Goes p pt parts (h ()) (g m)) :
    Goes p pt parts ((modify g : Run Unit) >>= h) m := by
  unfold Goes at rest
  rw [same] at rest
  exact rest

theorem Goes.lift_bind {a : Except Fault α} {l : α → List Point}
    (rest : ∀ b, a = .ok b → Goes p pt (l b) (f b) m) :
    Goes p pt (a.toOption.elim [] l) (Run.lift a >>= f) m := by
  cases a with
  | error fault => exact .fail
  | ok b => exact rest b rfl

theorem Goes.cellOf_bind {name : String} {position : Position} {g : CellId → Run β}
    {l : CellId → List Point}
    (rest : ∀ cell, m.scopes.get? name = some cell → Goes p pt (l cell) (g cell) m) :
    Goes p pt ((m.scopes.get? name).elim [] l) (Run.cellOf name position >>= g) m := by
  unfold Goes final
  cases found : m.scopes.get? name with
  | none =>
    rw [bind_of_error (cellOf_of_free position found)]
    exact .done
  | some cell =>
    rw [bind_of_ok (cellOf_of_get? position found)]
    exact rest cell found

theorem Goes.fetch_bind {cell : CellId} {position : Position} {g : Value → Run β}
    (rest : ∀ v, Goes p pt [] (g v) m) : Goes p pt [] (Run.fetch cell position >>= g) m := by
  unfold Goes final
  by_cases held : cell ∈ m.borrowed
  · rw [bind_of_error (fetch_of_borrowed position held)]
    exact .done
  · rw [bind_of_ok (fetch_of_free position held)]
    exact rest _

theorem Goes.newCell_bind {b : Binding} {v : Value} {g : CellId → Run β}
    (creates : p.Creates pt m.cells.size b v)
    (rest : Goes p pt parts (g m.cells.size) { m with cells := m.cells.push v }) :
    Goes p pt parts (Run.newCell v >>= g) m := .creates creates rest

theorem Goes.define_bind {b : Binding} {v : Value} {name : String} {position : Position}
    {flow : Flow} (creates : p.Creates pt m.cells.size b v) :
    Goes p pt [] (Run.define name v position >>= fun _ => Pure.pure flow) m := by
  unfold Goes final
  cases defined : m.scopes.define? name m.cells.size with
  | none =>
    rw [bind_of_error (define_of_none v position defined)]
    exact .creates creates .done
  | some scopes =>
    rw [bind_of_ok (define_of_some v position defined)]
    exact .creates creates .done

theorem Goes.change {cell : CellId} {position : Position}
    {act : Value → Except Fault (α × Value)}
    (writes : ∀ v a v', act v = .ok (a, v') → v' = v ∨ p.Writes pt cell) :
    Goes p pt [] (Run.change cell position act) m := by
  unfold Goes final
  by_cases held : cell ∈ m.borrowed
  · rw [change_of_borrowed position held]
    exact .done
  · cases done : act (m.load cell) with
    | error fault =>
      rw [change_of_error position held done]
      exact .done
    | ok pair =>
      obtain ⟨a, v⟩ := pair
      rw [change_of_ok position held done]
      rcases writes _ a v done with rfl | written
      · have same : m.cells.setIfInBounds cell (m.load cell) = m.cells :=
          congrArg Machine.cells (m.store_load cell)
        exact same.symm ▸ .done
      · exact .writes written .done

theorem Goes.part (begins : p.Begins pt next) (start : next.machine.cells = m.cells)
    (ends : (next.final p).cells = (x.final m).cells)
    (rest : ∀ a m', x m = .ok a m' → Goes p pt (k a m') (f a) m') :
    Goes p pt (next :: after x m k) (x >>= f) m := by
  unfold Goes after final at *
  rw [← start]
  apply Program.Course.begins begins
  rw [ends]
  cases ran : x m with
  | error stop m' =>
    rw [bind_of_error ran]
    exact .done
  | ok a m' =>
    rw [bind_of_ok ran]
    exact rest a m' ran

theorem Goes.last (begins : p.Begins pt next) (start : next.machine.cells = m.cells)
    (ends : (next.final p).cells = (x.final m).cells)
    (looks : ∀ a m', ((f a).final m').cells = m'.cells) : Goes p pt [next] (x >>= f) m := by
  unfold Goes final at *
  rw [← start]
  apply Program.Course.begins begins
  rw [ends]
  cases ran : x m with
  | error stop m' =>
    rw [bind_of_error ran]
    exact .done
  | ok a m' =>
    rw [bind_of_ok ran]
    exact looks a m' ▸ .done

theorem Goes.only (begins : p.Begins pt next) (start : next.machine.cells = m.cells)
    (ends : (next.final p).cells = (x.final m).cells) : Goes p pt [next] x m := by
  unfold Goes
  rw [← start, ← ends]
  exact .begins begins .done

end Run

namespace Program

variable {p : Program} {n : Nat} {m : Machine} {names : Scopes Binding}
  {callers : List Activation}

def Charted (p : Program) (pt : Point) : Prop :=
  ∃ parts, p.Course pt parts pt.machine.cells (pt.final p).cells ∧
    ∀ next, p.Begins pt next → next ∈ parts

theorem Charted.of_run {α : Type} {pt : Point} {x y : Run α} {parts : List Point}
    (opens : y = x) (ends : (pt.final p).cells = (y.final pt.machine).cells)
    (goes : x.Goes p pt parts pt.machine)
    (all : ∀ next, p.Begins pt next → next ∈ parts) : p.Charted pt := by
  refine ⟨parts, ?_, all⟩
  rw [ends, opens]
  exact goes

section Expressions

theorem Charted.of_expr {α : Type} {task : Task} {x y : Run α} {parts : List Point}
    (expr : task.isExpr = true) (opens : y = x)
    (ends : (Point.final p ⟨n + 1, task, m, names, callers⟩).cells = (y.final m).cells)
    (goes : x.Goes p ⟨n + 1, task, m, names, callers⟩ parts m)
    (all : ∀ task' m', p.InExpr n m task task' m' → ⟨n, task', m', names, callers⟩ ∈ parts) :
    p.Charted ⟨n + 1, task, m, names, callers⟩ := by
  refine .of_run opens ends goes fun next h => ?_
  cases h with
  | part h =>
    rcases h with inExpr | inCall | inStmt
    · exact all _ _ inExpr
    · cases inCall <;> cases expr
    · cases inStmt <;> cases expr
  | frame h => cases h <;> cases expr
  | rest | body => cases expr

theorem value_charted (e : Expr) : p.Charted ⟨n + 1, .value e, m, names, callers⟩ := by
  have opens := eval.eq_def p (n + 1) e
  cases e with
  | literal node value =>
    apply Charted.of_expr rfl opens rfl .lift
    intro _ _ h
    cases h
  | place node root steps =>
    by_cases bound : m.scopes.contains root = true
    · apply Charted.of_expr rfl opens rfl
      · apply Run.Goes.get_bind
        rw [if_pos bound]
        exact .cellOf_bind fun cell _ => .part (.part (.inl (.place bound))) rfl rfl
          fun path m1 _ => .fetch_bind fun v => .lift
      · intro _ _ h
        cases h with
        | place _ =>
          obtain ⟨cell, found⟩ := Option.isSome_iff_exists.mp bound
          simp [found]
    · apply Charted.of_expr rfl opens rfl
      · apply Run.Goes.get_bind
        rw [if_neg bound]
        apply Run.Goes.quiet
        split
        · split <;> rfl
        · rfl
      · intro _ _ h
        cases h with
        | place found => exact (bound found).elim
  | method node root steps name nameAt args =>
    apply Charted.of_expr rfl opens rfl
    · exact .last (.part (.inl .method)) rfl rfl fun result m1 => by cases result <;> rfl
    · intro _ _ h
      cases h with
      | method => exact .head _
  | call node callee args =>
    apply Charted.of_expr rfl opens rfl
    · exact .last (.part (.inl .call)) rfl rfl fun result m1 => by cases result <;> rfl
    · intro _ _ h
      cases h with
      | call => exact .head _
  | math node op left right =>
    apply Charted.of_expr rfl opens rfl
    · exact .part (.part (.inl .mathLeft)) rfl rfl fun a m1 ran =>
        .last (.part (.inl (.mathRight ran))) rfl rfl fun b => Run.cells_lift _
    · intro _ _ h
      cases h with
      | mathLeft => exact .head _
      | mathRight ran => exact .tail _ (Run.mem_after ran (.head _))
  | compare node op left right =>
    apply Charted.of_expr rfl opens rfl
    · exact .part (.part (.inl .compareLeft)) rfl rfl fun a m1 ran =>
        .last (.part (.inl (.compareRight ran))) rfl rfl fun b => Run.cells_lift _
    · intro _ _ h
      cases h with
      | compareLeft => exact .head _
      | compareRight ran => exact .tail _ (Run.mem_after ran (.head _))
  | unary node op operand =>
    apply Charted.of_expr rfl opens rfl
    · exact .last (.part (.inl .operand)) rfl rfl fun v => Run.cells_lift _
    · intro _ _ h
      cases h with
      | operand => exact .head _
  | build node name given =>
    cases found : p.globals.struct? name with
    | none =>
      simp only [found] at opens
      apply Charted.of_expr rfl opens rfl .fail
      intro _ _ h
      cases h with
      | build defined =>
        rw [found] at defined
        cases defined
    | some s =>
      simp only [found] at opens
      apply Charted.of_expr rfl opens rfl
      · exact .last (.part (.inl (.build found))) rfl rfl fun fields m1 =>
          Run.cells_lift_bind m1 fun _ => rfl
      · intro _ _ h
        cases h with
        | build defined =>
          rw [found] at defined
          cases defined
          exact .head _

theorem values_charted (args : List Expr) :
    p.Charted ⟨n + 1, .values args, m, names, callers⟩ := by
  have opens := evalList.eq_def p (n + 1) args
  cases args with
  | nil =>
    apply Charted.of_expr rfl opens rfl .pure
    intro _ _ h
    cases h
  | cons e es =>
    apply Charted.of_expr rfl opens rfl
    · exact .part (.part (.inl .first)) rfl rfl fun v m1 ran =>
        .last (.part (.inl (.others ran))) rfl rfl fun vs m2 => rfl
    · intro _ _ h
      cases h with
      | first => exact .head _
      | others ran => exact .tail _ (Run.mem_after ran (.head _))

theorem path_charted (steps : List Step) :
    p.Charted ⟨n + 1, .path steps, m, names, callers⟩ := by
  have opens := evalSteps.eq_def p (n + 1) steps
  rcases steps with _ | ⟨⟨e⟩ | ⟨name, position⟩, steps⟩
  · apply Charted.of_expr rfl opens rfl .pure
    intro _ _ h
    cases h
  · apply Charted.of_expr rfl opens rfl
    · refine .part (k := fun v m1 => if v.int?.isSome then
        [⟨n, .path steps, m1, names, callers⟩] else []) (.part (.inl .index)) rfl rfl
        fun v m1 ran => ?_
      cases integer : v.int? with
      | none => exact .fail
      | some i =>
        have isInt : v.int?.isSome = true := by rw [integer]; rfl
        exact .last (.part (.inl (.indexed ran isInt))) rfl rfl fun path m2 => rfl
    · intro _ _ h
      cases h with
      | index => exact .head _
      | indexed ran isInt =>
        refine .tail _ (Run.mem_after ran ?_)
        rw [if_pos isInt]
        exact .head _
  · apply Charted.of_expr rfl opens rfl
    · exact .last (.part (.inl .member)) rfl rfl fun path m1 => rfl
    · intro _ _ h
      cases h with
      | member => exact .head _

theorem fields_charted (s : Struct) (before : List (String × Value)) (given : List Field) :
    p.Charted ⟨n + 1, .fields s before given, m, names, callers⟩ := by
  have opens := evalFields.eq_def p (n + 1) s before given
  rcases given with _ | ⟨⟨name, position, value⟩, rest⟩
  · apply Charted.of_expr rfl opens rfl .pure
    intro _ _ h
    cases h
  · cases found : s.member? name with
    | none =>
      simp only [found] at opens
      apply Charted.of_expr rfl opens rfl .fail
      intro _ _ h
      cases h with
      | field declared | moreFields declared _ =>
        rw [found] at declared
        cases declared
    | some k =>
      simp only [found] at opens
      apply Charted.of_expr rfl opens rfl
      · exact .part (.part (.inl (.field found))) rfl rfl fun v m1 ran =>
          .only (.part (.inl (.moreFields found ran))) rfl rfl
      · intro _ _ h
        cases h with
        | field _ => exact .head _
        | moreFields declared ran =>
          rw [found] at declared
          cases declared
          exact .tail _ (Run.mem_after ran (.head _))

end Expressions

section Calls

theorem Charted.of_call {α : Type} {task : Task} {x y : Run α} {parts : List Point}
    (call : task.isCall = true) (opens : y = x)
    (ends : (Point.final p ⟨n + 1, task, m, names, callers⟩).cells = (y.final m).cells)
    (goes : x.Goes p ⟨n + 1, task, m, names, callers⟩ parts m)
    (all : ∀ task' m', p.InCall n m task task' m' → ⟨n, task', m', names, callers⟩ ∈ parts) :
    p.Charted ⟨n + 1, task, m, names, callers⟩ := by
  refine .of_run opens ends goes fun next h => ?_
  cases h with
  | part h =>
    rcases h with inExpr | inCall | inStmt
    · cases inExpr <;> cases call
    · exact all _ _ inCall
    · cases inStmt <;> cases call
  | frame h => cases h <;> cases call
  | rest | body => cases call

theorem method_charted (position : Position) (root : String) (steps : List Step) (name : String)
    (nameAt : Position) (args : List Expr) :
    p.Charted ⟨n + 1, .method position root steps name nameAt args, m, names, callers⟩ := by
  apply Charted.of_call rfl (evalMethod.eq_def p (n + 1) position root steps name nameAt args) rfl
  · refine .cellOf_bind (l := fun _ => _) fun cell found =>
      .part (.part (.inr (.inl (.methodPath found)))) rfl rfl fun path m1 ran =>
      .part (.part (.inr (.inl (.methodArguments found ran)))) rfl rfl fun vs m2 _ =>
      .change fun v a v' changed => ?_
    by_cases looks : ∀ k : Method, k.name = name → k.mutates = false
    · exact .inl (Value.update_eq_self (fun _ _ _ => Method.call_eq_self looks) changed)
    · simp only [not_forall, Bool.not_eq_false] at looks
      obtain ⟨k, rfl, mutates⟩ := looks
      exact .inr (.changed found mutates)
  · intro _ _ h
    cases h with
    | methodPath found =>
      rw [found]
      exact .head _
    | methodArguments found ran =>
      rw [found]
      exact .tail _ (Run.mem_after ran (.head _))

theorem call_charted (callee : String) (args : List Expr) (position : Position) :
    p.Charted ⟨n + 1, .call callee args position, m, names, callers⟩ := by
  have opens := evalCall.eq_def p (n + 1) callee args position
  cases defined : p.globals.function? callee with
  | some f =>
    simp only [defined] at opens
    apply Charted.of_call rfl opens rfl
    · exact .part (.part (.inr (.inl (.arguments defined)))) rfl rfl fun cells m1 ran =>
        .only (.part (.inr (.inl (.invoke defined ran)))) rfl rfl
    · intro _ _ h
      cases h with
      | arguments found =>
        rw [defined] at found
        cases found
        exact .head _
      | invoke found ran =>
        rw [defined] at found
        cases found
        exact .tail _ (Run.mem_after ran (.head _))
      | builtin missing _ =>
        rw [defined] at missing
        cases missing
  | none =>
    cases builtin : Builtin.ofName? callee with
    | none =>
      simp only [defined, builtin] at opens
      apply Charted.of_call rfl opens rfl .fail
      intro _ _ h
      cases h with
      | arguments found | invoke found _ =>
        rw [defined] at found
        cases found
      | builtin _ found =>
        rw [builtin] at found
        cases found
    | some b =>
      simp only [defined, builtin] at opens
      apply Charted.of_call rfl opens rfl
      · refine .last (.part (.inr (.inl (.builtin defined builtin)))) rfl rfl fun vs m1 =>
          Run.cells_lift_bind m1 fun line => ?_
        cases line <;> rfl
      · intro _ _ h
        cases h with
        | arguments found | invoke found _ =>
          rw [defined] at found
          cases found
        | builtin _ _ => exact .head _

theorem bind_charted (params : List Param) (args : List Expr) :
    p.Charted ⟨n + 1, .bind params args, m, names, callers⟩ := by
  rcases params with _ | ⟨param, params⟩
  · apply Charted.of_call rfl (x := pure []) (by rw [bindArguments]; simp) rfl .pure
    intro _ _ h
    cases h
  rcases args with _ | ⟨arg, args⟩
  · apply Charted.of_call rfl (x := pure []) (by rw [bindArguments]; simp) rfl .pure
    intro _ _ h
    cases h
  have opens := bindArguments.eq_def p (n + 1) (param :: params) (arg :: args)
  cases passed : param.byReference with
  | true =>
    cases bare : arg.bareName? with
    | none =>
      simp only [passed, bare, if_true] at opens
      apply Charted.of_call rfl opens rfl (.quiet rfl)
      intro _ _ h
      cases h with
      | argument byValue | afterValue byValue _ _ =>
        rw [passed] at byValue
        cases byValue
      | afterReference _ found _ =>
        rw [bare] at found
        cases found
    | some name =>
      simp only [passed, bare, if_true] at opens
      apply Charted.of_call rfl opens rfl
      · exact .cellOf_bind fun cell found =>
          .last (.part (.inr (.inl (.afterReference passed bare found)))) rfl rfl fun _ _ => rfl
      · intro _ _ h
        cases h with
        | argument byValue | afterValue byValue _ _ =>
          rw [passed] at byValue
          cases byValue
        | afterReference _ same found =>
          rw [bare] at same
          cases same
          rw [found]
          exact .head _
  | false =>
    simp only [passed, Bool.false_eq_true, if_false] at opens
    apply Charted.of_call rfl opens rfl
    · exact .part (.part (.inr (.inl (.argument passed)))) rfl rfl fun v m1 ran =>
        .newCell_bind (.parameter passed ran)
          (.last (.part (.inr (.inl (.afterValue passed ran (Run.newCell_eq _))))) rfl rfl
            fun _ _ => rfl)
    · intro _ _ h
      cases h with
      | argument _ => exact .head _
      | afterValue _ ran new =>
        rw [Run.newCell_eq] at new
        cases new
        exact .tail _ (Run.mem_after ran (.head _))
      | afterReference byReference _ _ =>
        rw [passed] at byReference
        cases byReference

end Calls

section Statements

theorem Charted.of_stmt {α : Type} {task : Task} {x y : Run α} {parts : List Point}
    (stmt : task.isStmt = true) (opens : y = x)
    (ends : (Point.final p ⟨n + 1, task, m, names, callers⟩).cells = (y.final m).cells)
    (goes : x.Goes p ⟨n + 1, task, m, names, callers⟩ parts m)
    (all : ∀ task' m', p.InStmt n m task task' m' → ⟨n, task', m', names, callers⟩ ∈ parts)
    (frames : ∀ task' m', p.InFrame n m task task' m' →
      ⟨n, task', { m' with scopes := m'.scopes.push }, names.push, callers⟩ ∈ parts) :
    p.Charted ⟨n + 1, task, m, names, callers⟩ := by
  refine .of_run opens ends goes fun next h => ?_
  cases h with
  | part h =>
    rcases h with inExpr | inCall | inStmt
    · cases inExpr <;> cases stmt
    · cases inCall <;> cases stmt
    · exact all _ _ inStmt
  | frame h => exact frames _ _ h
  | rest | body => cases stmt

theorem cells_inFrame {α : Type} (body : Run α) (m : Machine) :
    ((Run.inFrame body).final m).cells =
      (body.final { m with scopes := m.scopes.push }).cells := by
  unfold Run.final Run.inFrame
  cases body { m with scopes := m.scopes.push } <;> rfl

theorem statement_charted (s : Stmt) :
    p.Charted ⟨n + 1, .statement s, m, names, callers⟩ := by
  have opens := exec.eq_def p (n + 1) s
  cases s with
  | declare node name written =>
    apply Charted.of_stmt rfl opens rfl
    · exact .lift_bind fun type noted => .lift_bind fun v default =>
        .define_bind (.declared noted default)
    · intro _ _ h
      cases h
    · intro _ _ h
      cases h
  | define node name written value isConst =>
    apply Charted.of_stmt rfl opens rfl
    · exact .lift_bind fun type noted =>
        .part (.part (.inr (.inr (.defined noted)))) rfl rfl fun v m1 ran =>
        .define_bind (.defined noted ran)
    · intro _ _ h
      cases h with
      | defined noted =>
        rw [noted]
        exact .head _
    · intro _ _ h
      cases h
  | assign position target root steps value =>
    apply Charted.of_stmt rfl opens rfl
    · exact .part (.part (.inr (.inr .assigned))) rfl rfl fun v m1 ran =>
        .lift_bind fun type noted => .cellOf_bind fun cell found =>
        .part (.part (.inr (.inr (.assignedPlace ran noted found)))) rfl rfl fun path m2 _ =>
        .change fun _ _ _ _ => .inr (.assigned (by
          rwa [(((p.framing n).eval value m).ok ran).2] at found))
    · intro _ _ h
      cases h with
      | assigned => exact .head _
      | assignedPlace ran noted found =>
        refine .tail _ (Run.mem_after ran ?_)
        rw [noted, found]
        exact .head _
    · intro _ _ h
      cases h
  | loop position body =>
    apply Charted.of_stmt rfl opens rfl
    · exact .only (.frame .loop) rfl (cells_inFrame _ m).symm
    · intro _ _ h
      cases h
    · intro _ _ h
      cases h with
      | loop => exact .head _
  | choose position first elifs otherwise =>
    apply Charted.of_stmt rfl opens rfl
    · exact .only (.part (.inr (.inr .choose))) rfl rfl
    · intro _ _ h
      cases h with
      | choose => exact .head _
    · intro _ _ h
      cases h
  | «return» position value =>
    cases value with
    | none =>
      apply Charted.of_stmt rfl opens rfl .pure
      · intro _ _ h
        cases h
      · intro _ _ h
        cases h
    | some e =>
      apply Charted.of_stmt rfl opens rfl
      · exact .last (.part (.inr (.inr .returned))) rfl rfl fun _ _ => rfl
      · intro _ _ h
        cases h with
        | returned => exact .head _
      · intro _ _ h
        cases h
  | «break» position | «continue» position =>
    apply Charted.of_stmt rfl opens rfl .pure
    · intro _ _ h
      cases h
    · intro _ _ h
      cases h
  | call position node callee args =>
    apply Charted.of_stmt rfl opens rfl
    · exact .last (.part (.inr (.inr .callStatement))) rfl rfl fun _ _ => rfl
    · intro _ _ h
      cases h with
      | callStatement => exact .head _
    · intro _ _ h
      cases h
  | place position node root steps =>
    apply Charted.of_stmt rfl opens rfl
    · exact .last (.part (.inr (.inr .placeStatement))) rfl rfl fun _ _ => rfl
    · intro _ _ h
      cases h with
      | placeStatement => exact .head _
    · intro _ _ h
      cases h
  | method position node root steps name nameAt args =>
    apply Charted.of_stmt rfl opens rfl
    · exact .last (.part (.inr (.inr .methodStatement))) rfl rfl fun _ _ => rfl
    · intro _ _ h
      cases h with
      | methodStatement => exact .head _
    · intro _ _ h
      cases h

theorem branches_charted (choices : List (Branch Stmt)) (otherwise : Option (List Stmt)) :
    p.Charted ⟨n + 1, .branches choices otherwise, m, names, callers⟩ := by
  have opens := execBranches.eq_def p (n + 1) choices otherwise
  rcases choices with _ | ⟨branch, branches⟩
  · rcases otherwise with _ | body
    · apply Charted.of_stmt rfl opens rfl .pure
      · intro _ _ h
        cases h
      · intro _ _ h
        cases h
    · apply Charted.of_stmt rfl opens rfl
      · exact .only (.frame .otherwise) rfl (cells_inFrame _ m).symm
      · intro _ _ h
        cases h
      · intro _ _ h
        cases h with
        | otherwise => exact .head _
  · apply Charted.of_stmt rfl opens rfl
    · refine .part (k := fun v m1 => v.choice
          ⟨n, .block branch.body, { m1 with scopes := m1.scopes.push }, names.push, callers⟩
          ⟨n, .branches branches otherwise, m1, names, callers⟩)
        (.part (.inr (.inr .condition))) rfl rfl fun v m1 ran => ?_
      unfold Value.choice
      cases chosen : v.bool? with
      | none => exact .fail
      | some holds =>
        cases holds with
        | true => exact .only (.frame (.branch ran chosen)) rfl (cells_inFrame _ m1).symm
        | false => exact .only (.part (.inr (.inr (.nextBranch ran chosen)))) rfl rfl
    · intro _ _ h
      cases h with
      | condition => exact .head _
      | nextBranch ran chosen =>
        refine .tail _ (Run.mem_after ran ?_)
        rw [Value.choice, chosen]
        exact .head _
    · intro _ _ h
      cases h with
      | branch ran chosen =>
        refine .tail _ (Run.mem_after ran ?_)
        rw [Value.choice, chosen]
        exact .head _

theorem pass_charted (body : List Stmt) : p.Charted ⟨n + 1, .pass body, m, names, callers⟩ := by
  have opens := repeatBlock.eq_def p (n + 1) body
  apply Charted.of_stmt rfl opens rfl
  · refine .part (k := fun flow m1 => flow.again
        ⟨n, .pass body, { m1 with scopes := m1.scopes.clear }, names, callers⟩)
      (.part (.inr (.inr .passBlock))) rfl rfl fun flow m1 ran => ?_
    cases flow with
    | normal =>
      apply Run.Goes.modify_bind
      · rfl
      · exact .only (.part (.inr (.inr (.nextPass ran (.inl rfl))))) rfl rfl
    | «continue» =>
      apply Run.Goes.modify_bind
      · rfl
      · exact .only (.part (.inr (.inr (.nextPass ran (.inr rfl))))) rfl rfl
    | «break» | «return» value => exact .pure
  · intro _ _ h
    cases h with
    | passBlock => exact .head _
    | nextPass ran goesOn =>
      refine .tail _ (Run.mem_after ran ?_)
      rcases goesOn with rfl | rfl <;> exact .head _
  · intro _ _ h
    cases h

end Statements

theorem block_charted (body : List Stmt) :
    p.Charted ⟨n + 1, .block body, m, names, callers⟩ := by
  have opens := execBlock.eq_def p (n + 1) body
  rcases body with _ | ⟨s, rest⟩
  · apply Charted.of_run opens rfl .pure
    rintro next (h | h)
    · rcases h with h | h | h <;> cases h
    · cases h
  · apply Charted.of_run opens rfl
    · refine .part (k := fun flow m1 => flow.onwards
          ⟨n, .block rest, m1, s.declared p.globals names, callers⟩)
        (.part (.inr (.inr .statement))) rfl rfl fun flow m1 ran => ?_
      cases flow with
      | normal => exact .only (.rest ran) rfl rfl
      | _ => exact .pure
    · rintro next (h | h | ran)
      · rcases h with h | h | h <;> cases h
        exact .head _
      · cases h
      · exact .tail _ (Run.mem_after ran (.head _))

theorem invoke_charted (f : Function) (cells : List CellId) (position : Position) :
    p.Charted ⟨n + 1, .invoke f cells position, m, names, callers⟩ := by
  have opens := invoke.eq_def p (n + 1) f cells position
  by_cases deep : Machine.maxDepth ≤ m.depth
  · apply Charted.of_run opens rfl
    · apply Run.Goes.get_bind
      rw [if_pos deep]
      exact .fail
    · rintro next (h | h | h | shallow)
      · rcases h with h | h | h <;> cases h
      · cases h
      · exact (Nat.not_le.mpr shallow deep).elim
  · apply Charted.of_run opens rfl
    · apply Run.Goes.get_bind
      rw [if_neg deep]
      refine .last (.body (Nat.not_le.mp deep)) rfl ?_ fun flow m1 => ?_
      · rw [Run.final_inCall]
        rfl
      · split <;> rfl
    · rintro next (h | h | h | shallow)
      · rcases h with h | h | h <;> cases h
      · cases h
      · exact .head _

/-- Every point begins what it begins in an order, and all that becomes of the cells there is
    accounted for. -/
theorem charted (p : Program) (pt : Point) : p.Charted pt := by
  obtain ⟨n, task, m, names, callers⟩ := pt
  cases n with
  | zero =>
    refine ⟨[], ?_, fun next h => ?_⟩
    · have stopped : (task.final p 0 m) = m := by
        cases task <;> rfl
      unfold Point.final
      dsimp only
      rw [stopped]
      exact .done
    · cases h
  | succ n =>
    cases task with
    | value e => exact value_charted e
    | values args => exact values_charted args
    | path steps => exact path_charted steps
    | fields s before given => exact fields_charted s before given
    | method position root steps name nameAt args =>
      exact method_charted position root steps name nameAt args
    | call callee args position => exact call_charted callee args position
    | bind params args => exact bind_charted params args
    | invoke f cells position => exact invoke_charted f cells position
    | block body => exact block_charted body
    | statement s => exact statement_charted s
    | branches choices otherwise => exact branches_charted choices otherwise
    | pass body => exact pass_charted body

end Program
end LoopLang
