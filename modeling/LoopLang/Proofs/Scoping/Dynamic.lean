import LoopLang.Proofs.Scoping.Place

namespace LoopLang

namespace Program

/-- A call begins with the body of a function, on these cells for the parameters. -/
inductive Enters (p : Program) (f : Function) (cells : List CellId) : Point → Prop where
  | body {call position root} :
    p.Reached call →
    call.task = .invoke f cells position →
    p.Begins call root →
    Enters p f cells root

/-- From `root` on a run goes along a way, over as many passes of each loop as it takes. -/
inductive Follows (p : Program) (root : Point) : Way → Point → Prop where
  | here : Follows p root [] root
  | turn {way pt t next} :
    Follows p root way pt →
    p.Begins pt next →
    pt.task.turn? t = some next.task →
    Follows p root (t :: way) next
  | again {way pt body next} :
    Follows p root way pt →
    p.Begins pt next →
    pt.task = .pass body →
    next.task = .pass body →
    Follows p root way next

/-- A call gets the cell of its next parameter: one that is made for it, or the cell of a variable
    of the caller. -/
inductive Gives (p : Program) : Point → CellId → Prop where
  | value {pt cell b v} : p.Creates pt cell b v → Gives p pt cell
  | reference {n param params arg args m names callers name cell} :
    param.byReference = true →
    arg.bareName? = some name →
    m.scopes.get? name = some cell →
    Gives p ⟨n, .bind (param :: params) (arg :: args), m, names, callers⟩ cell

def GivesAll (p : Program) (pt : Point) (params : List Param) (cells : List CellId) : Prop :=
  ∀ number cell, cells[number]? = some cell → ∃ binds args,
    p.Within pt binds ∧ binds.task = .bind (params.drop number) args ∧ p.Gives binds cell

/-- The cell of the variable that comes about there, for the call and for the rest of its block. -/
inductive Made (p : Program) (f : Function) (cells : List CellId) (root pt : Point) :
    Origin → CellId → Prop where
  | parameter {number cell call invoked binds position args} :
    cells[number]? = some cell →
    p.Reached call →
    p.Begins call invoked →
    invoked.task = .invoke f cells position →
    p.Begins invoked root →
    p.Within call binds →
    binds.task = .bind (f.params.drop number) args →
    p.Gives binds cell →
    Made p f cells root pt (.parameter number) cell
  | declaration {block before declares after way cell b v} :
    p.Follows root block before →
    p.Begins before declares →
    before.task.turn? .first = some declares.task →
    p.Creates declares cell b v →
    p.Begins before after →
    before.task.turn? .next = some after.task →
    p.Follows after way pt →
    Made p f cells root pt (.declaration block) cell

variable {p : Program} {f : Function} {cells : List CellId} {root pt next : Point} {way : Way}
  {t : Turn}

section Turns

variable {α : Type} {n : Nat} {m m' : Machine} {task task' : Task}

theorem scopes_of_part
    (h : p.InExpr n m task task' m' ∨ p.InCall n m task task' m' ∨ p.InStmt n m task task' m')
    (turn : task.turn? t = some task') (declare : Stmt → Scopes α → Scopes α) (before : Scopes α) :
    t.scopes declare task before = before := by
  rcases h with h | h | h <;> cases h <;> cases t <;> first | rfl | cases turn

theorem scopes_of_frame (h : p.InFrame n m task task' m') (turn : task.turn? t = some task')
    (declare : Stmt → Scopes α → Scopes α) (before : Scopes α) :
    t.scopes declare task before = before.push := by
  cases h <;> cases t <;> first | rfl | cases turn

end Turns

section Parameters

variable {n : Nat} {m : Machine} {names : Scopes Binding} {callers : List Activation}

theorem GivesAll.cons {param : Param} {params : List Param} {args : List Expr} {cell : CellId}
    (binds : pt.task = .bind (param :: params) args) (gives : p.Gives pt cell)
    (begun : p.Begins pt next) (rest : p.GivesAll next params cells) :
    p.GivesAll pt (param :: params) (cell :: cells) := by
  intro number other given
  cases number with
  | zero =>
    cases given
    exact ⟨pt, args, .refl, binds, gives⟩
  | succ number =>
    obtain ⟨later, others, inside, task, gives⟩ := rest number other given
    exact ⟨later, others, .head begun inside, task, gives⟩

theorem GivesAll.nil {params : List Param} : p.GivesAll pt params [] := by
  intro number cell given
  cases given

theorem bindArguments_gives (params : List Param) (args : List Expr) :
    (p.bindArguments n params args).Keeps m fun cells _ =>
      p.GivesAll ⟨n, .bind params args, m, names, callers⟩ params cells := by
  induction n generalizing params args m with
  | zero =>
    rw [bindArguments]
    exact .stop
  | succ n ih =>
    rcases params with _ | ⟨param, params⟩
    · rw [bindArguments]
      · exact .pure .nil
      · simp
    rcases args with _ | ⟨arg, args⟩
    · rw [bindArguments]
      · exact .pure .nil
      · simp
    rw [bindArguments]
    split
    · rename_i shared
      split
      · rename_i name bare
        refine .lookup_bind fun cell found => ?_
        refine (ih params args).bind fun cells m1 _ rest => .pure ?_
        exact .cons rfl (.reference shared bare found)
          (.part (.inr (.inl (.afterReference shared bare found)))) rest
      · exact .stop
    · rename_i notShared
      have byValue : param.byReference = false := Bool.eq_false_iff.mpr notShared
      apply ((p.framing n).eval arg m).result.bind
      intro v m1 _ ends1
      apply Run.Keeps.newCell.result.bind
      intro cell m2 _ ends2
      obtain ⟨new, rfl, _⟩ := ends2
      refine (ih params args).bind fun cells m3 _ rest => .pure ?_
      exact .cons rfl (.value (.parameter byValue ends1.1))
        (.part (.inr (.inl (.afterValue byValue ends1.1 new)))) rest

theorem Reached.invoked {position : Position} (reached : p.Reached pt)
    (calls : pt.task = .invoke f cells position) : f ∈ p.globals.functions ∧ (cells = [] ∨
      ∃ call bound, p.Reached call ∧ p.Begins call pt ∧ p.Begins call bound ∧
        p.GivesAll bound f.params cells) := by
  cases reached with
  | main _ found none_taken =>
    cases calls
    exact ⟨List.mem_of_find?_eq_some found, .inl rfl⟩
  | @part n task task' m m' names callers reached parts =>
    cases calls
    rcases parts with h | h | h
    · cases h
    · cases h with
      | invoke found ran =>
        refine ⟨List.mem_of_find?_eq_some found, .inr ⟨_, _, reached,
          .part (.inr (.inl (.invoke found ran))), .part (.inr (.inl (.arguments found))), ?_⟩⟩
        exact ((bindArguments_gives _ _).ok ran).2
    · cases h
  | frame _ inFrame =>
    cases calls
    cases inFrame
  | rest _ _ | body _ _ => cases calls

theorem Enters.function (h : p.Enters f cells root) : f ∈ p.globals.functions := by
  cases h with
  | body reached calls _ => exact (reached.invoked calls).1

theorem Enters.given {number : Nat} {cell : CellId} (h : p.Enters f cells root)
    (given : cells[number]? = some cell) : p.Made f cells root pt (.parameter number) cell := by
  cases h with
  | body reached calls begun =>
    rcases (reached.invoked calls).2 with rfl | ⟨call, bound, called, invokes, first, all⟩
    · cases given
    · obtain ⟨binds, args, inside, task, gives⟩ := all number cell given
      exact .parameter given called invokes calls begun (.head first inside) task gives

end Parameters

theorem Enters.reached (h : p.Enters f cells root) : p.Reached root := by
  cases h with
  | body reached _ begun => exact reached.begins begun

theorem Follows.within (h : p.Follows root way pt) : p.Within root pt := by
  induction h with
  | here => exact .refl
  | turn _ begun _ ih | again _ begun _ _ ih => exact ih.tail begun

theorem Enters.begins (h : p.Enters f cells root) : root.task = .block f.body ∧
    root.names = Scopes.ofParams f.params ∧
    root.machine.scopes = Scopes.ofArguments f.params cells := by
  cases h with
  | body _ calls begun =>
    cases begun with
    | part parts =>
      cases calls
      rcases parts with h | h | h <;> cases h
    | frame inFrame =>
      cases calls
      cases inFrame
    | rest _ => cases calls
    | body _ =>
      cases calls
      exact ⟨rfl, rfl, rfl⟩

theorem Enters.length (typed : p.Typed) (h : p.Enters f cells root) :
    cells.length = f.params.length := by
  cases h with
  | body reached calls _ =>
    obtain ⟨d, fine, _⟩ := reached.fine typed
    obtain ⟨_, _, obeys⟩ := fine
    rw [calls] at obeys
    exact obeys.2.length_eq.symm

theorem Follows.code (entered : p.Enters f cells root) (h : p.Follows root way pt) :
    f.codeAt way = some pt.task := by
  induction h with
  | here => exact congrArg some entered.begins.1.symm
  | turn _ _ turn ih =>
    rw [Function.codeAt, ih, Option.bind_some]
    exact turn
  | again _ _ before after ih => rw [ih, before, after]

theorem Begins.names (begun : p.Begins pt next) (turn : pt.task.turn? t = some next.task) :
    next.names = t.scopes (fun s names => s.declared p.globals names) pt.task pt.names := by
  cases begun with
  | part parts => exact (scopes_of_part parts turn _ _).symm
  | frame inFrame => exact (scopes_of_frame inFrame turn _ _).symm
  | rest ran =>
    cases t <;> cases turn
    rfl
  | body _ => cases turn

/-- The scopes after a turn. What comes after a statement is left open here. -/
theorem Begins.scopes (typed : p.Typed) (reached : p.Reached pt) (begun : p.Begins pt next)
    (turn : pt.task.turn? t = some next.task) :
    next.machine.scopes = t.scopes (fun _ _ => next.machine.scopes) pt.task pt.machine.scopes := by
  obtain ⟨d, fine, _⟩ := reached.fine typed
  cases begun with
  | part parts =>
    rw [scopes_of_part parts turn]
    exact fine.part_scopes parts
  | frame inFrame =>
    rw [scopes_of_frame inFrame turn]
    exact congrArg Scopes.push inFrame.scopes
  | rest ran =>
    cases t <;> cases turn
    rfl
  | body _ => cases turn

/-- A pass of a loop begins what it begins with the scopes that it has found, as the frame of the
    loop is empty then. -/
theorem Begins.of_pass {body : List Stmt} (typed : p.Typed) (reached : p.Reached pt)
    (begun : p.Begins pt next) (pass : pt.task = .pass body) :
    next.names = pt.names ∧ next.machine.scopes = pt.machine.scopes := by
  obtain ⟨d, fine, _⟩ := reached.fine typed
  cases begun with
  | part parts => exact ⟨rfl, fine.part_scopes parts⟩
  | frame inFrame =>
    cases pass
    cases inFrame
  | rest _ | body _ => cases pass

/-- A cell that was made for a variable is still its cell wherever the block goes on to. -/
theorem Made.goes {o : Origin} {cell : CellId} (h : p.Made f cells root pt o cell)
    (goes : ∀ from' way, p.Follows from' way pt → ∃ way', p.Follows from' way' next) :
    p.Made f cells root next o cell := by
  cases h with
  | parameter given called invokes calls begun inside task gives =>
    exact .parameter given called invokes calls begun inside task gives
  | declaration there declares first creates begun past follows =>
    obtain ⟨way', follows⟩ := goes _ _ follows
    exact .declaration there declares first creates begun past follows

theorem Follows.past {n : Nat} {s : Stmt} {rest : List Stmt} {m m' : Machine}
    {names : Scopes Binding} {callers : List Activation} {origins : Scopes Origin}
    (typed : p.Typed) (entered : p.Enters f cells root)
    (follows : p.Follows root way ⟨n + 1, .block (s :: rest), m, names, callers⟩)
    (ran : p.exec n s m = .ok .normal m')
    (known : Scopes.Rel (p.Made f cells root
      ⟨n, .block rest, m', s.declared p.globals names, callers⟩) origins m.scopes) :
    Scopes.Rel (p.Made f cells root ⟨n, .block rest, m', s.declared p.globals names, callers⟩)
      (s.introduce (.declaration way) origins) m'.scopes := by
  obtain ⟨d, ⟨_, _, _, _, _, block⟩, _⟩ := (entered.reached.within follows.within).fine typed
  cases block with
  | cons first _ =>
    have introduced := ((exec_keeps callers first).ok ran).2
    unfold Stmt.introduce
    cases declares : s.name? with
    | none =>
      rw [declares] at introduced
      rw [introduced.2]
      exact known
    | some name =>
      rw [declares] at introduced
      obtain ⟨b, cell, v, creates, _, bound⟩ := introduced
      have made : p.Made f cells root ⟨n, .block rest, m', s.declared p.globals names, callers⟩
          (.declaration way) cell :=
        .declaration follows (.part (.inr (.inr .statement))) rfl creates (.rest ran) rfl .here
      have both := known.define? made name
      rw [bound] at both
      dsimp only
      generalize origins.define? name (.declaration way) = found at both ⊢
      cases both with
      | some named => exact named

/-- A run has the variables in scope that the way to the place tells of. -/
theorem Follows.scopes (typed : p.Typed) (entered : p.Enters f cells root)
    (h : p.Follows root way pt) :
    Scopes.Rel (p.Made f cells root pt) (f.scopesAt way) pt.machine.scopes := by
  induction h with
  | here =>
    rw [entered.begins.2.2]
    exact f.scopesAt_nil cells (entered.length typed) fun _ _ => entered.given
  | @turn way pt t next follows begun turn ih =>
    have kept := ih.mono fun _ _ made => made.goes fun _ _ before => ⟨_, before.turn begun turn⟩
    rw [begun.scopes typed (entered.reached.within follows.within) turn]
    unfold Function.scopesAt
    rw [follows.code entered]
    -- Only a turn past a statement brings a name about; no other one leaves a statement behind.
    refine Turn.rel kept fun s rest past block => ?_
    subst past
    cases begun with
    | rest ran =>
      cases block
      exact follows.past typed entered ran kept
    | part parts =>
      cases block
      cases turn
      rcases parts with h | h | h <;> cases h
    | frame inFrame =>
      cases block
      cases inFrame
    | body _ => cases block
  | @again way pt body next follows begun before after ih =>
    have kept := ih.mono fun _ _ made =>
      made.goes fun _ _ there => ⟨_, there.again begun before after⟩
    rw [(begun.of_pass typed (entered.reached.within follows.within) before).2]
    exact kept

end Program
end LoopLang
