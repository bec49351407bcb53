import LoopLang.Proofs.Execution.Context
import LoopLang.Proofs.Scoping.Agreement

namespace LoopLang

namespace Flow

/-- A statement that ends so leaves no loop, neither a pass of it nor all of it. -/
def Outermost (flow : Flow) : Prop := flow = .normal ∨ ∃ result, flow = .return result

theorem Suits.outermost {g : Globals} {returns : Option Ty} {flow : Flow}
    (h : flow.Suits g returns false) : flow.Outermost := by
  cases flow with
  | normal => exact .inl rfl
  | «break» | «continue» => cases h
  | «return» result => exact .inr ⟨result, rfl⟩

theorem Suits.isSome {g : Globals} {returns : Option Ty} {inLoop : Bool} {result : Option Value}
    (h : (Flow.return result).Suits g returns inLoop) : result.isSome = returns.isSome := by
  cases h <;> rfl

end Flow

namespace Task

def Belongs (p : Program) (returns : Option Ty) (names : Scopes Binding) : Task → Prop
  | block body => ∃ inLoop names', Stmt.BlockTyped p returns inLoop names body names'
  | statement s => ∃ inLoop names', s.Typed p returns inLoop names names'
  | branches choices otherwise => ∃ inLoop,
      Stmt.BranchesTyped p returns inLoop names choices otherwise
  | pass body => ∃ outer inner, names = Scopes.push outer ∧
      Stmt.BlockTyped p returns true names body inner
  | _ => True

theorem Belongs.turn {p : Program} {returns : Option Ty} {names : Scopes Binding}
    {task next : Task} {t : Turn} (h : task.Belongs p returns names)
    (turn : task.turn? t = some next) :
    next.Belongs p returns (t.scopes (fun s names => s.declared p.globals names) task names) := by
  unfold turn? at turn
  split at turn <;> cases turn
  · obtain ⟨inLoop, names', body⟩ := h
    cases body with
    | cons first _ => exact ⟨inLoop, _, first⟩
  · obtain ⟨inLoop, names', body⟩ := h
    cases body with
    | cons first others =>
      rw [← first.declared] at others
      exact ⟨inLoop, names', others⟩
  · obtain ⟨inLoop, names', s_typed⟩ := h
    cases s_typed with
    | loop body => exact ⟨names, _, rfl, body⟩
  · obtain ⟨outer, inner, rfl, body⟩ := h
    exact ⟨true, inner, body⟩
  · obtain ⟨inLoop, names', s_typed⟩ := h
    cases s_typed with
    | choose branches => exact ⟨inLoop, branches⟩
  · trivial
  · obtain ⟨inLoop, branches⟩ := h
    cases branches with
    | cons _ body _ => exact ⟨inLoop, _, body⟩
  · obtain ⟨inLoop, branches⟩ := h
    cases branches with
    | cons _ _ others => exact ⟨inLoop, others⟩
  · obtain ⟨inLoop, branches⟩ := h
    cases branches with
    | otherwise body => exact ⟨inLoop, _, body⟩

end Task

namespace Program

inductive Ends (p : Program) : Point → Flow → Prop where
  | block {n body m names callers flow m'} :
    p.execBlock n body m = .ok flow m' →
    Ends p ⟨n, .block body, m, names, callers⟩ flow
  | statement {n s m names callers flow m'} :
    p.exec n s m = .ok flow m' →
    Ends p ⟨n, .statement s, m, names, callers⟩ flow
  | branches {n choices otherwise m names callers flow m'} :
    p.execBranches n choices otherwise m = .ok flow m' →
    Ends p ⟨n, .branches choices otherwise, m, names, callers⟩ flow
  | pass {n body m names callers flow m'} :
    p.repeatBlock n body m = .ok flow m' →
    Ends p ⟨n, .pass body, m, names, callers⟩ flow

variable {p : Program} {f : Function} {cells : List CellId} {position : Position}
  {root pt call : Point} {way : Way} {flow : Flow}

theorem Follows.belongs (typed : p.Typed) (entered : p.Enters f cells root)
    (follows : p.Follows root way pt) : pt.task.Belongs p f.returns pt.names := by
  induction follows with
  | here =>
    obtain ⟨task, names, _⟩ := entered.begins
    obtain ⟨names', body⟩ := (typed.functions f entered.function).body
    rw [task, names]
    exact ⟨false, names', body⟩
  | turn _ begun turn ih =>
    rw [begun.names turn]
    exact ih.turn turn
  | again follows begun before after ih =>
    rw [(begun.of_pass typed (entered.reached.within follows.within) before).1, after, ← before]
    exact ih

theorem Ends.suits (typed : p.Typed) {returns : Option Ty} (reached : p.Reached pt)
    (belongs : pt.task.Belongs p returns pt.names) (ends : p.Ends pt flow) :
    ∃ inLoop, flow.Suits p.globals returns inLoop := by
  obtain ⟨d, ⟨stored, named, _⟩, _⟩ := reached.fine typed
  cases ends with
  | block ran =>
    obtain ⟨inLoop, names', body⟩ := belongs
    obtain ⟨_, _, _, left⟩ := ((p.sound typed _).execBlock body stored named).ok ran
    exact ⟨inLoop, left.suits⟩
  | statement ran =>
    obtain ⟨inLoop, names', s_typed⟩ := belongs
    obtain ⟨_, _, _, left⟩ := ((p.sound typed _).exec s_typed stored named).ok ran
    exact ⟨inLoop, left.suits⟩
  | branches ran =>
    obtain ⟨inLoop, choices⟩ := belongs
    obtain ⟨_, _, _, left⟩ := ((p.sound typed _).execBranches choices stored named).ok ran
    exact ⟨inLoop, left.suits⟩
  | pass ran =>
    obtain ⟨outer, inner, same, body⟩ := belongs
    dsimp only at same
    subst same
    obtain ⟨_, _, _, left⟩ := ((p.sound typed _).repeatBlock body stored named).ok ran
    exact ⟨false, left.suits⟩

theorem Enters.outermost (typed : p.Typed) (entered : p.Enters f cells root)
    (ends : p.Ends root flow) : flow.Outermost := by
  obtain ⟨task, names, _⟩ := entered.begins
  obtain ⟨d, ⟨stored, named, _⟩, _⟩ := entered.reached.fine typed
  obtain ⟨names', body⟩ := (typed.functions f entered.function).body
  cases ends with
  | block ran =>
    cases task
    dsimp only at names
    subst names
    obtain ⟨_, _, _, left⟩ := ((p.sound typed _).execBlock body stored named).ok ran
    exact left.suits.outermost
  | statement _ | branches _ | pass _ => cases task

theorem repeatBlock_outermost (p : Program) (n : Nat) (body : List Stmt) {m m' : Machine}
    (ran : p.repeatBlock n body m = .ok flow m') : flow.Outermost := by
  induction n generalizing m with
  | zero =>
    rw [repeatBlock] at ran
    cases ran
  | succ n ih =>
    rw [repeatBlock] at ran
    cases pass : p.execBlock n body m with
    | error stop m1 =>
      rw [Run.bind_of_error pass] at ran
      cases ran
    | ok flow1 m1 =>
      rw [Run.bind_of_ok pass] at ran
      cases flow1 with
      | normal | «continue» => exact ih ran
      | «break» =>
        cases ran
        exact .inl rfl
      | «return» result =>
        cases ran
        exact .inr ⟨result, rfl⟩

theorem exec_loop_outermost (p : Program) (n : Nat) {body : List Stmt} {m m' : Machine}
    (ran : p.exec n (.loop position body) m = .ok flow m') : flow.Outermost := by
  cases n with
  | zero =>
    rw [exec] at ran
    cases ran
  | succ n =>
    rw [exec, Run.inFrame] at ran
    cases passes : p.repeatBlock n body { m with scopes := m.scopes.push } with
    | error stop m1 =>
      rw [passes] at ran
      cases ran
    | ok flow1 m1 =>
      rw [passes] at ran
      cases ran
      exact repeatBlock_outermost p n body passes

end Program

namespace Function

def outcome (f : Function) (position : Position) (flow : Flow) : Except Stop (Option Value) :=
  match f.returns, flow.returned? with
  | some type, some v => .ok (some (v.coerce type))
  | some _, none => .error (.fault (.runtime (.missingReturnValue f.name position)))
  | none, _ => .ok none

end Function

namespace Program

variable {p : Program} {f : Function} {cells : List CellId} {position : Position}
  {root call : Point} {flow : Flow}

theorem Enters.ends_iff (entered : p.Enters f cells root) :
    p.Ends root flow ↔ (p.execBlock root.fuel f.body).result root.machine = .ok flow := by
  obtain ⟨fuel, task, m, names, callers⟩ := root
  have body : task = .block f.body := entered.begins.1
  subst body
  dsimp only
  unfold Run.result
  constructor
  · intro ends
    cases ends with
    | block ran => rw [ran]
  · intro result
    split at result
    · rename_i ran
      cases result
      exact .block ran
    · cases result

theorem Begins.of_invoke (begun : p.Begins call root)
    (calls : call.task = .invoke f cells position) :
    ∃ n m names callers, m.depth < Machine.maxDepth ∧
      call = ⟨n + 1, .invoke f cells position, m, names, callers⟩ ∧
      root = ⟨n, .block f.body,
        { m with scopes := Scopes.ofArguments f.params cells, depth := m.depth + 1 },
        Scopes.ofParams f.params, ⟨names, m.scopes⟩ :: callers⟩ := by
  cases begun with
  | part parts =>
    cases calls
    rcases parts with h | h | h <;> cases h
  | frame inFrame =>
    cases calls
    cases inFrame
  | rest _ => cases calls
  | body shallow =>
    cases calls
    exact ⟨_, _, _, _, shallow, rfl, rfl⟩

theorem Begins.result (begun : p.Begins call root)
    (calls : call.task = .invoke f cells position) :
    (p.invoke call.fuel f cells position).result call.machine =
      (p.execBlock root.fuel f.body).result root.machine >>= f.outcome position := by
  obtain ⟨n, m, names, callers, shallow, rfl, rfl⟩ := begun.of_invoke calls
  dsimp only
  unfold Run.result
  rw [invoke, Run.get_bind, if_neg (Nat.not_le.mpr shallow)]
  cases ran : p.execBlock n f.body
      { m with scopes := Scopes.ofArguments f.params cells, depth := m.depth + 1 } with
  | error stop m' =>
    have ended : Run.inCall (Scopes.ofArguments f.params cells) (p.execBlock n f.body) m =
        .error stop { m' with scopes := m.scopes, depth := m.depth } := by
      rw [Run.inCall, ran]
    rw [Run.bind_of_error ended]
    rfl
  | ok flow m' =>
    have ended : Run.inCall (Scopes.ofArguments f.params cells) (p.execBlock n f.body) m =
        .ok flow { m' with scopes := m.scopes, depth := m.depth } := by
      rw [Run.inCall, ran]
    rw [Run.bind_of_ok ended]
    change _ = f.outcome position flow
    unfold Function.outcome
    cases f.returns with
    | none => rfl
    | some type => cases flow.returned? <;> rfl

theorem begins_of_missing (calls : call.task = .invoke f cells position)
    (missing : (p.invoke call.fuel f cells position).result call.machine =
      .error (.fault (.runtime (.missingReturnValue f.name position)))) :
    ∃ root, p.Begins call root := by
  obtain ⟨fuel, task, m, names, callers⟩ := call
  dsimp only at calls missing
  subst calls
  unfold Run.result at missing
  cases fuel with
  | zero =>
    rw [invoke] at missing
    cases missing
  | succ n =>
    by_cases shallow : m.depth < Machine.maxDepth
    · exact ⟨_, .body shallow⟩
    · rw [invoke, Run.get_bind, if_pos (Nat.not_lt.mp shallow)] at missing
      cases missing

/-- What leaves a part of a body is caught within it, and a function returns a value if and only if
    it declares one. -/
structure Bracketed (p : Program) : Prop where
  body : ∀ {f cells root flow}, p.Enters f cells root → p.Ends root flow → flow.Outermost
  loop : ∀ {pt position body flow}, p.Reached pt → pt.task = .statement (.loop position body) →
    p.Ends pt flow → flow.Outermost
  returned : ∀ {f cells root way pt result}, p.Enters f cells root → p.Follows root way pt →
    p.Ends pt (.return result) → result.isSome = f.returns.isSome
  missing : ∀ {call f cells position}, p.Reached call →
    call.task = .invoke f cells position →
    ((p.invoke call.fuel f cells position).result call.machine =
        .error (.fault (.runtime (.missingReturnValue f.name position))) ∧
      (∀ root, p.Begins call root → ∃ flow, p.Ends root flow) ↔
      f.returns.isSome ∧ ∃ root, p.Begins call root ∧ p.Ends root .normal)
  kept : ∀ {call f cells position root v}, p.Reached call →
    call.task = .invoke f cells position → p.Begins call root →
    p.Ends root (.return (some v)) → ∃ type, f.returns = some type ∧
      (p.invoke call.fuel f cells position).result call.machine = .ok (some (v.coerce type))

theorem Follows.returned (typed : p.Typed) {way : Way} {pt : Point} {result : Option Value}
    (entered : p.Enters f cells root) (follows : p.Follows root way pt)
    (ends : p.Ends pt (.return result)) : result.isSome = f.returns.isSome := by
  obtain ⟨_, suits⟩ :=
    ends.suits typed (entered.reached.within follows.within) (follows.belongs typed entered)
  exact suits.isSome

theorem missing_iff (typed : p.Typed) (reached : p.Reached call)
    (calls : call.task = .invoke f cells position) :
    (p.invoke call.fuel f cells position).result call.machine =
        .error (.fault (.runtime (.missingReturnValue f.name position))) ∧
      (∀ root, p.Begins call root → ∃ flow, p.Ends root flow) ↔
      f.returns.isSome ∧ ∃ root, p.Begins call root ∧ p.Ends root .normal := by
  constructor
  · intro both
    obtain ⟨missing, bodyEnds⟩ := both
    obtain ⟨root, begun⟩ := begins_of_missing calls missing
    obtain ⟨flow, ends⟩ := bodyEnds root begun
    have entered := Enters.body reached calls begun
    rw [begun.result calls, entered.ends_iff.mp ends] at missing
    change f.outcome position flow = _ at missing
    unfold Function.outcome at missing
    cases declared : f.returns with
    | none =>
      rw [declared] at missing
      cases missing
    | some type =>
      refine ⟨rfl, root, begun, ?_⟩
      rcases entered.outermost typed ends with rfl | ⟨result, rfl⟩
      · exact ends
      · have valued := Follows.returned typed entered .here ends
        rw [declared] at valued missing
        obtain ⟨v, rfl⟩ := Option.isSome_iff_exists.mp valued
        cases missing
  · intro both
    obtain ⟨valued, root, begun, ends⟩ := both
    obtain ⟨type, declared⟩ := Option.isSome_iff_exists.mp valued
    have entered := Enters.body reached calls begun
    refine ⟨?_, fun other begun' => ?_⟩
    · rw [begun.result calls, entered.ends_iff.mp ends]
      change f.outcome position .normal = _
      rw [Function.outcome, declared]
      rfl
    · obtain ⟨_, _, _, _, _, rfl, rfl⟩ := begun.of_invoke calls
      obtain ⟨_, _, _, _, _, same, rfl⟩ := begun'.of_invoke rfl
      cases same
      exact ⟨.normal, ends⟩

theorem returned_value (typed : p.Typed) {v : Value} (reached : p.Reached call)
    (calls : call.task = .invoke f cells position) (begun : p.Begins call root)
    (ends : p.Ends root (.return (some v))) : ∃ type, f.returns = some type ∧
      (p.invoke call.fuel f cells position).result call.machine = .ok (some (v.coerce type)) := by
  have entered := Enters.body reached calls begun
  have valued := Follows.returned typed entered .here ends
  obtain ⟨type, declared⟩ := Option.isSome_iff_exists.mp valued.symm
  refine ⟨type, declared, ?_⟩
  rw [begun.result calls, entered.ends_iff.mp ends]
  change f.outcome position (.return (some v)) = _
  rw [Function.outcome, declared]
  rfl

/-- In all runs of a compiled program, whatever leaves a statement is caught where it has to be. -/
theorem bracketed_of_compile {source : String} (compiled : compile source = .ok p) :
    p.Bracketed := by
  have typed := typed_of_compile compiled
  refine ⟨?_, ?_, ?_, ?_, ?_⟩
  · exact fun entered ends => entered.outermost typed ends
  · intro pt position body flow _ task ends
    cases ends with
    | statement ran =>
      cases task
      exact exec_loop_outermost p _ ran
    | block _ | branches _ | pass _ => cases task
  · exact fun entered follows ends => Follows.returned typed entered follows ends
  · exact fun reached calls => missing_iff typed reached calls
  · exact fun reached calls begun ends => returned_value typed reached calls begun ends

def picking : String :=
  "func pick(n: u8): u8 \x7b loop \x7b loop { if (n == 1) { return 7; } break; } " ++
  "if (n > 1) { break; } n2: u8 = n; continue; \x7d \x7d " ++
  "func main() { print(pick(1)); print(pick(2)); }"

set_option maxRecDepth 100000 in
theorem bracketed_picking : ∃ p, compile picking = .ok p ∧
    (p.runOn 80 .initial).1 =
      .failed (.runtime (.missingReturnValue "pick" ⟨1, 157⟩)) ∧ p.Bracketed := by
  have facts : (compile picking).toOption.any fun p => (p.runOn 80 .initial).1 =
      .failed (.runtime (.missingReturnValue "pick" ⟨1, 157⟩)) := by decide +kernel
  obtain ⟨p, compiled, facts⟩ := exists_of_any facts
  exact ⟨p, compiled, of_decide_eq_true facts, bracketed_of_compile compiled⟩

end Program
end LoopLang
