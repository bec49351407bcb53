import LoopLang.Program
import LoopLang.Proofs.Execution.Frame
import LoopLang.Proofs.Execution.Soundness
import LoopLang.Proofs.Typing.Accepted

namespace LoopLang

def growing : String :=
  "func grow(n: *u8, by: u8) { n = n + by; } " ++
  "func main() { n: u8 = 3; grow(n, 2); print(n); assert(n == 5); }"

namespace Program

/-- A machine between two runs of the program: new, or as an earlier run left it. -/
inductive Resting (p : Program) : Machine → Prop where
  | initial : Resting p Machine.initial
  | again {m} (fuel : Nat) : Resting p m → Resting p (p.runOn fuel m).2

variable {p : Program} {m : Machine}

theorem runOn_eq_final (fuel : Nat) : (p.runOn fuel m).2 = (p.main fuel).final m := by
  unfold runOn Run.final
  split <;> rename_i ran <;> rw [ran]

theorem main_cases (p : Program) (fuel : Nat) :
    (∃ f, p.globals.function? "main" = some f ∧ f.params = [] ∧
      p.main fuel = (p.invoke fuel f [] f.position >>= fun _ => pure ())) ∨
    ∃ error, p.main fuel = Run.fail (.runtime error) := by
  unfold main
  split
  · exact .inr ⟨_, rfl⟩
  · rename_i f found
    cases none_taken : f.params with
    | nil => exact .inl ⟨f, found, none_taken, rfl⟩
    | cons param params => exact .inr ⟨_, rfl⟩

theorem main_eq {f : Function} (found : p.globals.function? "main" = some f)
    (none_taken : f.params = []) (fuel : Nat) :
    p.main fuel = (p.invoke fuel f [] f.position >>= fun _ => pure ()) := by
  rw [main, found]
  dsimp only
  rw [none_taken, List.isEmpty_nil, Bool.not_true, if_neg Bool.false_ne_true]

/-- A run leaves no names and no calls behind, however it ends. -/
theorem Resting.idle (h : p.Resting m) : m.scopes = Scopes.empty ∧ m.depth = 0 := by
  induction h with
  | initial => exact ⟨rfl, rfl⟩
  | @again m fuel _ ih =>
    rw [runOn_eq_final]
    rcases main_cases p fuel with ⟨f, _, _, calls⟩ | ⟨error, fails⟩
    · rw [calls, Run.final_bind fun _ _ => rfl]
      have called := (p.framing fuel).invoke f [] f.position m
      rw [called.scopes, called.depth]
      exact ih
    · rw [fails]
      exact ih

theorem main_safe (typed : p.Typed) {d : CellTypes} (stored : Settled p.globals d m)
    (fuel : Nat) : Run.Safe p.globals d (p.main fuel) m fun _ _ _ => True := by
  rcases main_cases p fuel with ⟨f, found, none_taken, calls⟩ | ⟨error, fails⟩
  · rw [calls]
    have f_typed := typed.functions f (List.mem_of_find?_eq_some found)
    have given : Given d f.params [] := by
      rw [none_taken]
      exact .nil
    exact ((p.sound typed fuel).invoke f_typed given stored).bind
      fun d' _ m' _ stored' _ => Run.Safe.pure stored' trivial
  · rw [fails]
    exact Run.Safe.fail trivial stored

theorem Resting.stored (typed : p.Typed) (h : p.Resting m) :
    ∃ d, Settled p.globals d m := by
  induction h with
  | initial => exact ⟨[], .empty, rfl⟩
  | @again m fuel _ ih =>
    obtain ⟨d, stored⟩ := ih
    obtain ⟨d', _, stored'⟩ := (main_safe typed stored fuel).final
    rw [runOn_eq_final]
    exact ⟨d', stored'⟩

theorem not_internal (typed : p.Typed) (resting : p.Resting m) (fuel : Nat) (defect : Defect)
    (position : Position) : (p.runOn fuel m).1 ≠ .failed (.internal defect position) := by
  obtain ⟨d, stored⟩ := resting.stored typed
  have safe := main_safe typed stored fuel
  unfold Run.Safe at safe
  unfold runOn
  cases ran : p.main fuel m with
  | ok _ m' => exact nofun
  | error stop m' =>
    rw [ran] at safe
    cases stop with
    | outOfFuel => exact nofun
    | fault fault =>
      rintro ⟨⟩
      exact safe.1

/-- No run of a compiled program, be it the first one or a later one, ends in an internal
    fault. -/
theorem outcome_of_compile {source : String} (compiled : compile source = .ok p)
    (resting : p.Resting m) (fuel : Nat) :
    (p.runOn fuel m).1 = .done ∨ (∃ error, (p.runOn fuel m).1 = .failed (.runtime error)) ∨
      (∃ position, (p.runOn fuel m).1 = .failed (.assertion position)) ∨
      (p.runOn fuel m).1 = .unfinished := by
  have typed := typed_of_compile compiled
  obtain ⟨d, stored⟩ := resting.stored typed
  have safe := main_safe typed stored fuel
  unfold Run.Safe at safe
  unfold runOn
  cases ran : p.main fuel m with
  | ok _ m' => exact .inl rfl
  | error stop m' =>
    rw [ran] at safe
    cases stop with
    | outOfFuel => exact .inr (.inr (.inr rfl))
    | fault fault =>
      cases fault with
      | runtime error => exact .inr (.inl ⟨error, rfl⟩)
      | assertion position => exact .inr (.inr (.inl ⟨position, rfl⟩))
      | internal defect position => exact safe.1.elim

set_option maxRecDepth 100000 in
theorem outcome_of_growing : ∃ p m, compile growing = .ok p ∧ p.Resting m ∧
    ((p.runOn 60 m).1 = .done ∨ (∃ error, (p.runOn 60 m).1 = .failed (.runtime error)) ∨
      (∃ position, (p.runOn 60 m).1 = .failed (.assertion position)) ∨
      (p.runOn 60 m).1 = .unfinished) := by
  have accepted : (compile growing).toOption.any fun _ => true := by decide +kernel
  obtain ⟨p, compiled, _⟩ := exists_of_any accepted
  have resting : p.Resting _ := .again 60 .initial
  exact ⟨p, _, compiled, resting, outcome_of_compile compiled resting 60⟩

end Program
end LoopLang
