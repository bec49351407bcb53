import LoopLang.Proofs.Execution.Context

namespace LoopLang

/-- The machine `m'` is in the state of `m`, but for new cells and the lines `new` at the end. -/
structure Restored (new : List Line) (m m' : Machine) : Prop where
  scopes : m'.scopes = m.scopes
  depth : m'.depth = m.depth
  borrowed : m'.borrowed = m.borrowed
  kept : ∀ cell < m.cells.size, m'.cells[cell]? = m.cells[cell]?
  lines : m'.lines.toList = m.lines.toList ++ new

namespace Restored

variable {new new' : List Line} {m m1 m2 : Machine}

theorem refl (m : Machine) : Restored [] m m :=
  ⟨rfl, rfl, rfl, fun _ _ => rfl, (List.append_nil _).symm⟩

theorem size (h : Restored new m m1) : m1.lines.size = m.lines.size + new.length := by
  rw [← Array.length_toList, h.lines, List.length_append, Array.length_toList]

theorem trans (first : Restored new m m1) (second : Restored new' m1 m2) :
    Restored (new ++ new') m m2 := by
  refine ⟨second.scopes.trans first.scopes, second.depth.trans first.depth,
    second.borrowed.trans first.borrowed, fun cell old => ?_, ?_⟩
  · have still : cell < m1.cells.size := by
      have found := first.kept cell old
      rw [Array.getElem?_eq_getElem old] at found
      exact (Array.getElem?_eq_some_iff.mp found).1
    rw [second.kept cell still, first.kept cell old]
  · rw [second.lines, first.lines, List.append_assoc]

end Restored

namespace Program

variable {m m' : Machine}

theorem runOn_outcome (p : Program) (fuel : Nat) (m : Machine) :
    (p.runOn fuel m).1 = match (p.main fuel).result m with
      | .ok _ => .done
      | .error (.fault fault) => .failed fault
      | .error .outOfFuel => .unfinished := by
  unfold runOn Run.result
  cases p.main fuel m with
  | ok _ m' => rfl
  | error stop m' => cases stop <;> rfl

theorem main_alike (p : Program) (fuel : Nat) (free : m.borrowed = [] ∧ m'.borrowed = [])
    (depth : m.depth = m'.depth) :
    Run.Alike m.lines m'.lines [] (p.main fuel) (p.main fuel) m m' fun _ _ _ _ _ => True := by
  have none_shared : SameSharing [] [] := fun _ _ => by simp
  have shared : Shared m.lines m'.lines [] m m' := Shared.ofArguments free depth .nil none_shared
  rcases main_cases p fuel with ⟨f, _, _, calls⟩ | ⟨error, fails⟩
  · rw [calls]
    refine ((p.blind fuel).invoke f f.position shared .nil).bind ?_
    exact fun _ _ _ _ _ _ shared' _ => .pure shared' trivial
  · rw [fails]
    exact .stop shared

theorem runOn_alike (p : Program) (fuel : Nat) (free : m.borrowed = [] ∧ m'.borrowed = [])
    (depth : m.depth = m'.depth) :
    (p.runOn fuel m).1 = (p.runOn fuel m').1 ∧
      ∃ ρ, Shared m.lines m'.lines ρ (p.runOn fuel m).2 (p.runOn fuel m').2 := by
  have alike := p.main_alike fuel free depth
  obtain ⟨ρ, _, shared⟩ := alike.final_shared
  constructor
  · rw [runOn_outcome, runOn_outcome, alike.result_eq fun _ _ _ _ _ _ => rfl]
  · rw [runOn_eq_final, runOn_eq_final]
    exact ⟨ρ, shared⟩

theorem runOn_called (p : Program) (fuel : Nat) (m : Machine) :
    Called [] m (p.runOn fuel m).2 := by
  rw [runOn_eq_final]
  rcases main_cases p fuel with ⟨f, _, _, calls⟩ | ⟨error, fails⟩
  · rw [calls, Run.final_bind fun _ _ => rfl]
    exact (p.framing fuel).invoke f [] f.position m
  · rw [fails]
    exact .refl m

/-- What a run prints on one machine, a run prints on each machine that is equally deep in calls. -/
theorem runOn_restores (p : Program) (fuel : Nat) (free : m.borrowed = []) :
    ∃ new, ∀ m', m'.borrowed = [] → m'.depth = m.depth →
      (p.runOn fuel m').1 = (p.runOn fuel m).1 ∧ Restored new m' (p.runOn fuel m').2 := by
  obtain ⟨-, _, alone⟩ := p.runOn_alike fuel ⟨free, free⟩ rfl
  obtain ⟨new, printed, -⟩ := alone.lines
  refine ⟨new.toList, fun m' free' depth => ?_⟩
  obtain ⟨same, _, both⟩ := p.runOn_alike fuel ⟨free, free'⟩ depth.symm
  obtain ⟨new', printed', lines⟩ := both.lines
  have equal : new' = new := by
    rw [printed] at printed'
    exact (Array.append_right_inj _).mp printed'.symm
  subst equal
  have called := p.runOn_called fuel m'
  refine ⟨same.symm, called.scopes, called.depth, ?_, fun cell old => ?_, ?_⟩
  · rw [both.free.2, free']
  · exact called.kept cell old List.not_mem_nil
  · rw [lines, Array.toList_append]

/-- Each run leaves the machine as it found it, with more lines at most. So all runs on one machine
    end in the same way and print the same. -/
theorem runTimes_restores (p : Program) (fuel : Nat) (free : m.borrowed = []) :
    ∃ new, Restored new m (p.runOn fuel m).2 ∧ ∀ times,
      Restored (List.replicate times new).flatten m (p.runTimes fuel times m).2 ∧
      (p.runTimes fuel times m).1 = (List.range times).map fun i =>
        ((p.runOn fuel m).1, m.lines.size + (i + 1) * new.length) := by
  obtain ⟨new, restores⟩ := p.runOn_restores fuel free
  refine ⟨new, (restores m free rfl).2, fun times => ?_⟩
  generalize ends : (p.runOn fuel m).1 = outcome at restores
  generalize here : m.depth = depth at restores
  clear ends
  induction times generalizing m with
  | zero => exact ⟨.refl m, rfl⟩
  | succ times ih =>
    obtain ⟨same, first⟩ := restores m free here
    have free1 := first.borrowed.trans free
    obtain ⟨others, outcomes⟩ := ih free1 (first.depth.trans here)
    rw [runTimes]
    dsimp only
    refine ⟨first.trans others, ?_⟩
    rw [outcomes, same, first.size, List.range_succ_eq_map, List.map_cons, List.map_map]
    congr 1
    · rw [Nat.zero_add, Nat.one_mul]
    · refine List.map_congr_left fun i _ => ?_
      rw [Function.comp_apply, Nat.succ_mul (i + 1), Nat.add_assoc, Nat.add_comm new.length]

def digging : String :=
  "func dig() { loop { if (true) { print(true); assert(false); } } } " ++
  "func main() { loop { dig(); } }"

set_option maxRecDepth 100000 in
/-- Runs that fail, of a program that nothing has checked. -/
theorem digging_restores : ∃ g, Globals.parse digging = .ok g ∧
    (runOn ⟨g, ∅⟩ 40 .initial).1 = .failed (.assertion ⟨1, 46⟩) ∧
    ∃ new, Restored new .initial (runOn ⟨g, ∅⟩ 40 .initial).2 ∧ ∀ times,
      Restored (List.replicate times new).flatten .initial (runTimes ⟨g, ∅⟩ 40 times .initial).2 ∧
      (runTimes ⟨g, ∅⟩ 40 times .initial).1 = (List.range times).map fun i =>
        ((runOn ⟨g, ∅⟩ 40 .initial).1, Machine.initial.lines.size + (i + 1) * new.length) := by
  have facts : (Globals.parse digging).toOption.any fun g =>
      (runOn ⟨g, ∅⟩ 40 .initial).1 = .failed (.assertion ⟨1, 46⟩) := by decide +kernel
  cases parsed : Globals.parse digging with
  | error e =>
    rw [parsed] at facts
    cases facts
  | ok g =>
    rw [parsed] at facts
    exact ⟨g, rfl, of_decide_eq_true facts, runTimes_restores ⟨g, ∅⟩ 40 rfl⟩

end Program
end LoopLang
