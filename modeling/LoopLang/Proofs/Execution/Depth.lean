import LoopLang.Proofs.Execution.ReadOnly
import LoopLang.Proofs.Execution.Stops
import LoopLang.Proofs.Tree.Calls

namespace LoopLang

namespace Task

def callees : Task → List String
  | value e => e.callees
  | values args | bind _ args => Expr.calleesOf args
  | path steps => Step.calleesOf steps
  | fields _ _ given => Field.calleesOf given
  | method _ _ steps _ _ args => Step.calleesOf steps ++ Expr.calleesOf args
  | call callee args _ => callee :: Expr.calleesOf args
  | invoke _ _ _ => []
  | block body | pass body => Stmt.calleesOf body
  | statement s => s.callees
  | branches choices none => Stmt.calleesOfBranches choices
  | branches choices (some body) => Stmt.calleesOfBranches choices ++ Stmt.calleesOf body

def isInvoke : Task → Bool
  | invoke _ _ _ => true
  | _ => false

/-- The functions `active`, the innermost first, are a chain of calls, and the task is part of the
    text of the first one or is a further call. -/
def Stands (g : Globals) (active : List Function) : Task → Prop
  | invoke f _ _ => g.Chain (f :: active)
  | task => ∃ f rest, active = f :: rest ∧ g.Chain active ∧ task.callees ⊆ Stmt.calleesOf f.body

theorem stands_iff {g : Globals} {active : List Function} {task : Task}
    (within : task.isInvoke = false) : task.Stands g active ↔
      ∃ f rest, active = f :: rest ∧ g.Chain active ∧ task.callees ⊆ Stmt.calleesOf f.body := by
  cases task with
  | invoke => cases within
  | _ => exact Iff.rfl

theorem Stands.sub {g : Globals} {active : List Function} {task task' : Task}
    (h : task.Stands g active) (within : task.isInvoke = false) (within' : task'.isInvoke = false)
    (sub : task'.callees ⊆ task.callees) : task'.Stands g active := by
  obtain ⟨f, rest, same, chain, calls⟩ := (stands_iff within).mp h
  exact (stands_iff within').mpr ⟨f, rest, same, chain, List.Subset.trans sub calls⟩

end Task

namespace Program

variable {p : Program} {n : Nat} {m m' : Machine} {task task' : Task} {pt next : Point}
  {active : List Function}

section Chains

theorem InExpr.stands (h : p.InExpr n m task task' m') (stands : task.Stands p.globals active) :
    task'.Stands p.globals active := by
  cases h <;> refine stands.sub rfl rfl ?_ <;>
    simp [Task.callees, Expr.callees, Expr.calleesOf, Step.calleesOf, Field.calleesOf]

theorem InCall.stands (h : p.InCall n m task task' m') (stands : task.Stands p.globals active) :
    task'.Stands p.globals active := by
  cases h with
  | @invoke callee args position f cells m' found ran =>
    obtain ⟨caller, rest, rfl, chain, calls⟩ := stands
    exact chain.call (calls List.mem_cons_self) found
  | _ =>
    refine stands.sub rfl rfl ?_
    simp [Task.callees, Expr.calleesOf]

theorem InStmt.stands (h : p.InStmt n m task task' m') (stands : task.Stands p.globals active) :
    task'.Stands p.globals active := by
  cases h with
  | @choose position first elifs otherwise =>
    refine stands.sub rfl rfl ?_
    cases otherwise <;> simp [Task.callees, Stmt.callees, Stmt.calleesOfBranches]
  | @condition branch branches otherwise | @nextBranch branch branches otherwise =>
    refine stands.sub rfl rfl ?_
    cases otherwise <;> simp [Task.callees, Stmt.calleesOfBranches]
  | _ =>
    refine stands.sub rfl rfl ?_
    simp [Task.callees, Stmt.callees, Stmt.calleesOf, Expr.callees]

theorem InFrame.stands (h : p.InFrame n m task task' m') (stands : task.Stands p.globals active) :
    task'.Stands p.globals active := by
  cases h with
  | @branch branch branches otherwise =>
    refine stands.sub rfl rfl ?_
    cases otherwise <;> simp [Task.callees, Stmt.calleesOfBranches]
  | _ =>
    refine stands.sub rfl rfl ?_
    simp [Task.callees, Stmt.callees, Stmt.calleesOfBranches]

theorem Reached.stands (h : p.Reached pt) : ∃ active, active.length = pt.callers.length ∧
    pt.task.Stands p.globals active := by
  induction h with
  | main _ found _ => exact ⟨[], rfl, .main found⟩
  | part _ parts ih =>
    obtain ⟨active, same, stands⟩ := ih
    refine ⟨active, same, ?_⟩
    rcases parts with inExpr | inCall | inStmt
    · exact inExpr.stands stands
    · exact inCall.stands stands
    · exact inStmt.stands stands
  | frame _ inFrame ih =>
    obtain ⟨active, same, stands⟩ := ih
    exact ⟨active, same, inFrame.stands stands⟩
  | rest _ _ ih =>
    obtain ⟨active, same, stands⟩ := ih
    exact ⟨active, same, stands.sub rfl rfl (by simp [Task.callees, Stmt.calleesOf])⟩
  | @body n f cells position m names callers _ _ ih =>
    obtain ⟨active, same, chain⟩ := ih
    exact ⟨f :: active, congrArg (· + 1) same, f, active, rfl, chain, List.Subset.refl _⟩

end Chains

section Counting

theorem InExpr.framed (h : p.InExpr n m task task' m') : Framed m m' := by
  have framing := p.framing n
  cases h with
  | mathRight ran | compareRight ran | others ran | indexed ran _ | moreFields _ ran =>
    exact ((framing.eval _ m).ok ran).1
  | _ => exact .refl m

theorem InCall.framed (h : p.InCall n m task task' m') : Framed m m' := by
  have framing := p.framing n
  cases h with
  | methodArguments _ ran => exact ((framing.evalSteps _ m).ok ran).1
  | invoke _ ran => exact ((framing.bindArguments _ _ m).ok ran).1
  | afterValue _ ran new =>
    rw [Run.newCell_eq] at new
    cases new
    exact ((framing.eval _ m).ok ran).1.trans (.push _ _)
  | _ => exact .refl m

theorem InStmt.framed (h : p.InStmt n m task task' m') : Framed m m' := by
  have framing := p.framing n
  cases h with
  | assignedPlace ran _ _ | nextBranch ran _ => exact ((framing.eval _ m).ok ran).1
  | nextPass ran _ => exact ((framing.execBlock _ m).ok ran).1.clear
  | _ => exact .refl m

theorem InFrame.framed (h : p.InFrame n m task task' m') : Framed m m' := by
  cases h with
  | branch ran _ => exact (((p.framing n).eval _ m).ok ran).1
  | _ => exact .refl m

/-- The machine counts the calls that are active, and there are never too many. -/
theorem Reached.depth (h : p.Reached pt) :
    pt.machine.depth = pt.callers.length ∧ pt.callers.length ≤ Machine.maxDepth := by
  induction h with
  | main resting _ _ => exact ⟨resting.idle.2, Nat.zero_le _⟩
  | part _ parts ih =>
    refine ⟨Eq.trans ?_ ih.1, ih.2⟩
    rcases parts with inExpr | inCall | inStmt
    · exact inExpr.framed.depth
    · exact inCall.framed.depth
    · exact inStmt.framed.depth
  | frame _ inFrame ih => exact ⟨inFrame.framed.depth.trans ih.1, ih.2⟩
  | rest _ ran ih => exact ⟨(((p.framing _).exec _ _).ok ran).1.depth.trans ih.1, ih.2⟩
  | body _ shallow ih => exact ⟨congrArg (· + 1) ih.1, ih.1 ▸ shallow⟩

end Counting

section Overflow

variable {fuel : Nat} {f : Function} {fault : Fault}

theorem runOn_eq_failed_iff (found : p.globals.function? "main" = some f)
    (none_taken : f.params = []) : (p.runOn fuel m).1 = .failed fault ↔
      (Point.ofMain fuel f m).stop? p = some (.fault fault) := by
  unfold runOn
  change _ ↔ (p.invoke fuel f [] f.position).stop? m = _
  rw [main_eq found none_taken, Run.stop?]
  cases ran : p.invoke fuel f [] f.position m with
  | ok result m' =>
    rw [Run.bind_of_ok ran]
    constructor <;> rintro ⟨⟩
  | error stop m' =>
    rw [Run.bind_of_error ran]
    cases stop with
    | outOfFuel => constructor <;> rintro ⟨⟩
    | fault fault' => constructor <;> rintro ⟨⟩ <;> rfl

theorem exists_main_of_overflow {name : String} {limit : Nat} {position : Position}
    (failed : (p.runOn fuel m).1 = .failed (.runtime (.stackOverflow name limit position))) :
    ∃ f, p.globals.function? "main" = some f ∧ f.params = [] := by
  cases found : p.globals.function? "main" with
  | none =>
    have fails : p.main fuel m = .error (.fault (.runtime .noMain)) m := by
      rw [main, found]
      rfl
    rw [runOn, fails] at failed
    cases failed
  | some f =>
    cases taken : f.params with
    | nil => exact ⟨f, rfl, taken⟩
    | cons param params =>
      have fails : p.main fuel m = .error (.fault (.runtime (.mainWithParams f.position))) m := by
        rw [main, found]
        dsimp only
        rw [taken]
        rfl
      rw [runOn, fails] at failed
      cases failed

/-- In a run, a call of the function comes while as many calls are active as there may be. -/
def CallsTooDeep (p : Program) (fuel : Nat) (m : Machine) (name : String) (position : Position) :
    Prop :=
  ∃ main n f cells m' names callers, p.globals.function? "main" = some main ∧ main.params = [] ∧
    p.Within (.ofMain fuel main m) ⟨n + 1, .invoke f cells position, m', names, callers⟩ ∧
    callers.length = Machine.maxDepth ∧ f.name = name

theorem runOn_overflow_iff (resting : p.Resting m) {name : String} {limit : Nat}
    {position : Position} :
    (p.runOn fuel m).1 = .failed (.runtime (.stackOverflow name limit position)) ↔
      p.CallsTooDeep fuel m name position ∧ limit = Machine.maxDepth := by
  have counted : ∀ main pt, p.globals.function? "main" = some main → main.params = [] →
      p.Within (.ofMain fuel main m) pt →
      pt.machine.depth = pt.callers.length ∧ pt.callers.length ≤ Machine.maxDepth :=
    fun main pt found none_taken inside =>
      (Reached.within (.main resting found none_taken) inside).depth
  constructor
  · intro failed
    obtain ⟨main, found, none_taken⟩ := exists_main_of_overflow failed
    rw [runOn_eq_failed_iff found none_taken, stops_iff rfl] at failed
    obtain ⟨deep, inside, due⟩ := failed
    cases due with
    | invoke full =>
      obtain ⟨same, bound⟩ := counted main _ found none_taken inside
      exact ⟨⟨main, _, _, _, _, _, _, found, none_taken, inside,
        Nat.le_antisymm bound (same ▸ full), rfl⟩, rfl⟩
  · rintro ⟨⟨main, n, f, cells, m', names, callers, found, none_taken, inside, full, rfl⟩, rfl⟩
    rw [runOn_eq_failed_iff found none_taken, stops_iff rfl]
    have same := (counted main _ found none_taken inside).1
    exact ⟨_, inside, .invoke (Nat.le_of_eq (full.symm.trans same.symm))⟩

/-- Calls nest no deeper than the machine counts and allows, a run ends in a stack overflow just
    if one more call would become active, and none does where the text has no long chain of
    calls. -/
theorem depth_bounded (resting : p.Resting m) :
    (∀ pt, p.Reached pt →
      pt.machine.depth = pt.callers.length ∧ pt.callers.length ≤ Machine.maxDepth) ∧
    (∀ fuel name limit position,
      (p.runOn fuel m).1 = .failed (.runtime (.stackOverflow name limit position)) ↔
        p.CallsTooDeep fuel m name position ∧ limit = Machine.maxDepth) ∧
    ((∀ chain, p.globals.Chain chain → chain.length ≤ Machine.maxDepth) →
      ∀ fuel name limit position,
        (p.runOn fuel m).1 ≠ .failed (.runtime (.stackOverflow name limit position))) := by
  refine ⟨fun pt reached => reached.depth, fun _ _ _ _ => runOn_overflow_iff resting, ?_⟩
  intro short fuel name limit position failed
  -- The calls that are active at the overflow, with the one that is due, are too long a chain.
  obtain ⟨⟨main, n, f, cells, m', names, callers, found, none_taken, inside, full, _⟩, _⟩ :=
    (runOn_overflow_iff resting).mp failed
  obtain ⟨active, same, chain⟩ := (Reached.within (.main resting found none_taken) inside).stands
  have length := short _ chain
  change active.length = callers.length at same
  rw [List.length_cons] at length
  omega

def nesting : String :=
  "struct Box { size: u8 } func one(): u8 { return 1; } " ++
  "func two(): u8 { return one() + one(); } func box(): Box { return Box { size: two() }; } " ++
  "func main() { xs: [Box]; loop { if (xs[one()].size > two()) { break; } xs.append(box()); } }"

def nestingRank : String → Nat
  | "main" => 3
  | "box" => 2
  | "two" => 1
  | _ => 0

set_option maxRecDepth 100000 in
theorem nesting_stays : ∃ p, compile nesting = .ok p ∧ p.Resting (p.runOn 60 .initial).2 ∧
    (∀ chain, p.globals.Chain chain → chain.length ≤ Machine.maxDepth) ∧
    (∀ pt, p.Reached pt →
      pt.machine.depth = pt.callers.length ∧ pt.callers.length ≤ Machine.maxDepth) ∧
    (∀ fuel name limit position, (p.runOn fuel (p.runOn 60 .initial).2).1 =
        .failed (.runtime (.stackOverflow name limit position)) ↔
      p.CallsTooDeep fuel (p.runOn 60 .initial).2 name position ∧ limit = Machine.maxDepth) ∧
    ∀ fuel name limit position, (p.runOn fuel (p.runOn 60 .initial).2).1 ≠
      .failed (.runtime (.stackOverflow name limit position)) := by
  have ranked : (compile nesting).toOption.any fun p => p.globals.functions.all fun f =>
      (Stmt.calleesOf f.body).all fun callee => nestingRank callee < nestingRank f.name := by
    decide +kernel
  obtain ⟨p, compiled, ranked⟩ := exists_of_any ranked
  simp only [List.all_eq_true, decide_eq_true_eq] at ranked
  have short : ∀ chain, p.globals.Chain chain → chain.length ≤ Machine.maxDepth :=
    fun chain h => Nat.le_trans (h.length_le ranked) (by decide)
  have resting : p.Resting (p.runOn 60 .initial).2 := .again 60 .initial
  obtain ⟨counted, overflows, never⟩ := depth_bounded resting
  exact ⟨p, compiled, resting, short, counted, overflows, never short⟩

end Overflow

end Program
end LoopLang
