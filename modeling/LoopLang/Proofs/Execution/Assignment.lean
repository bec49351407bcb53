import LoopLang.Execution
import LoopLang.Proofs.Execution.Runs
import LoopLang.Proofs.Value.Access

namespace LoopLang.Program

variable {p : Program} {fuel : Nat} {position : Position} {target : Node} {name : String}
  {steps : List Step} {value : Expr} {m m1 m2 : Machine} {v : Value} {type : Ty} {cell : CellId}
  {path : List PathStep}

theorem exec_assign (valued : p.eval fuel value m = .ok v m1) (typed : p.typeOf target = .ok type)
    (bound : m1.scopes.get? name = some cell)
    (stepped : p.evalSteps fuel steps m1 = .ok path m2) :
    p.exec (fuel + 1) (.assign position target name steps value) m =
      Run.change cell target.position (fun old => do
        return (Flow.normal, ← old.write (v.coerce type) path)) m2 := by
  rw [exec, Run.bind_of_ok valued, typed, Run.lift_ok_bind,
    Run.bind_of_ok (Run.cellOf_of_get? target.position bound), Run.bind_of_ok stepped]

/-- All that an assignment needs is known before it writes. If that fails, nothing is changed. -/
theorem exec_assign_cases (valued : p.eval fuel value m = .ok v m1)
    (typed : p.typeOf target = .ok type) (bound : m1.scopes.get? name = some cell)
    (stepped : p.evalSteps fuel steps m1 = .ok path m2) :
    (∀ stop m', p.exec (fuel + 1) (.assign position target name steps value) m = .error stop m' →
      m' = m2) ∧
    ∀ flow m', p.exec (fuel + 1) (.assign position target name steps value) m = .ok flow m' →
      ∃ r, (m2.load cell).write (v.coerce type) path = .ok r ∧ m' = m2.store cell r := by
  rw [exec_assign valued typed bound stepped]
  by_cases held : cell ∈ m2.borrowed
  · rw [Run.change_of_borrowed target.position held]
    exact ⟨by rintro _ _ ⟨⟩; rfl, nofun⟩
  · cases written : (m2.load cell).write (v.coerce type) path with
    | error fault =>
      rw [Run.change_of_error target.position held (by rw [written]; rfl)]
      exact ⟨by rintro _ _ ⟨⟩; rfl, nofun⟩
    | ok r =>
      rw [Run.change_of_ok target.position held (by rw [written]; rfl)]
      refine ⟨nofun, ?_⟩
      rintro _ _ ⟨⟩
      exact ⟨r, rfl, rfl⟩

/-- Every path in every value obeys the laws of places, and an assignment that fails where it
writes leaves the machine as it is. -/
theorem access_lawful : (∀ (root : Value) (path : List PathStep), root.Lawful path) ∧
    ∀ (p : Program) (fuel : Nat) (position : Position) (target : Node) (name : String)
      (steps : List Step) (value : Expr) (m m1 m2 : Machine) (v : Value) (type : Ty)
      (cell : CellId) (path : List PathStep),
      p.eval fuel value m = .ok v m1 → p.typeOf target = .ok type →
      m1.scopes.get? name = some cell → p.evalSteps fuel steps m1 = .ok path m2 →
      (∀ stop m', p.exec (fuel + 1) (.assign position target name steps value) m =
        .error stop m' → m' = m2) ∧
      ∀ flow m', p.exec (fuel + 1) (.assign position target name steps value) m = .ok flow m' →
        ∃ r, (m2.load cell).write (v.coerce type) path = .ok r ∧ m' = m2.store cell r :=
  ⟨Value.lawful, fun _ _ _ _ _ _ _ _ _ _ _ _ _ _ valued typed bound stepped =>
    exec_assign_cases valued typed bound stepped⟩

def table : Value :=
  .struct "Table" [("rows", .array (.array (.int .u8))
    [.array (.int .u8) [.int 1 .u8, .int 2 .u8], .array (.int .u8) []]), ("name", .string "ab")]

def item (row column : Int) : List PathStep :=
  [.field "rows" ⟨1, 3⟩, .index row ⟨1, 8⟩, .index column ⟨1, 11⟩]

def letter (i : Int) : List PathStep := [.field "name" ⟨1, 3⟩, .index i ⟨1, 8⟩]

def raising : Stmt :=
  .assign ⟨1, 1⟩ ⟨1, ⟨1, 1⟩⟩ "all" [.index (.literal ⟨2, ⟨1, 5⟩⟩ (.integer 0))]
    (.literal ⟨3, ⟨1, 10⟩⟩ (.bool true))

def raisingTypes : Program :=
  ⟨Globals.empty, ((Std.TreeMap.empty.insert 1 .bool).insert 2 (.int .u8)).insert 3 .bool⟩

def noFlags : Machine := ⟨#[.array .bool []], ⟨[("all", 0)], []⟩, 1, #[], []⟩

theorem access_lawful_table :
    (∃ r, table.write (.int 7 .u8) (item 0 1) = .ok r ∧ r.read (item 0 1) = .ok (.int 7 .u8) ∧
      r.read (item 0 0) = .ok (.int 1 .u8) ∧ r.read (letter 1) = .ok (.char 'b')) ∧
    (∀ new, table.write new (item 1 0) =
      .error (.runtime (.indexOutOfBounds 0 0 ⟨1, 11⟩))) ∧
    (¬∃ r, table.write (.char 'c') (letter 1) = .ok r) ∧
    table.update (fun w => .ok (w, w)) (letter 1) = .ok (.char 'b', table) ∧
    ∀ stop m', raisingTypes.exec 5 raising noFlags = .error stop m' → m' = noFlags := by
  have laws := access_lawful.1 table
  refine ⟨⟨_, rfl, ?_, ?_, ?_⟩, ?_, ?_, ?_, ?_⟩
  · exact (laws (item 0 1)).read_write _ _ rfl
  · have apart : PathStep.Diverge (item 0 1) (item 0 0) := Or.inr (Or.inr (Or.inl (by decide)))
    exact ((laws (item 0 1)).read_apart _ _ rfl _ apart).trans rfl
  · have apart : PathStep.Diverge (item 0 1) (letter 1) := Or.inl (by decide)
    exact ((laws (item 0 1)).read_apart _ _ rfl _ apart).trans rfl
  · refine (laws (item 1 0)).write_outOfArray 0 0 ⟨1, 11⟩ ?_
    exact ⟨[.field "rows" ⟨1, 3⟩, .index 1 ⟨1, 8⟩], [], .int .u8, [], rfl, rfl, rfl, by decide⟩
  · rw [(laws (letter 1)).exists_write_iff]
    exact fun both => both.2 ⟨[.field "name" ⟨1, 3⟩], 1, ⟨1, 8⟩, [], "ab", rfl, rfl⟩
  · exact ((laws (letter 1)).receiver_iff _).mpr rfl
  · exact (access_lawful.2 raisingTypes 4 ⟨1, 1⟩ ⟨1, ⟨1, 1⟩⟩ "all" _ _ noFlags noFlags noFlags
      (.bool true) .bool 0 [.index 0 ⟨1, 5⟩] rfl rfl rfl rfl).1

end LoopLang.Program
