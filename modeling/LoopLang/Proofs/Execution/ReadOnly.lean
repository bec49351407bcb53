import LoopLang.Proofs.Execution.Creation
import LoopLang.Proofs.Typing.Verdict.Expr

namespace LoopLang

namespace Ty

/-- A primitive type or an enum. No part of such a value is a place. -/
def isWhole : Ty → Bool
  | primitive _ | enum _ => true
  | _ => false

end Ty

namespace Binding

def ReadOnly (b : Binding) : Prop :=
  b.mutability = .constant ∨ b.mutability = .parameter ∧ b.type.isWhole = true

theorem ReadOnly.not_mutable {b : Binding} (h : b.ReadOnly) : b.mutability ≠ .mutable := by
  rcases h with constant | ⟨parameter, _⟩
  · rw [constant]
    exact nofun
  · rw [parameter]
    exact nofun

end Binding

namespace Step

theorem Lead.whole {p : Program} {names : Scopes Binding} {type part : Ty} {steps : List Step}
    {inString : Bool} (h : Step.Lead p names type steps part inString)
    (whole : type.isWhole = true) : part.isWhole = true ∧ (steps = [] ∨ inString = true) := by
  cases h with
  | here => exact ⟨whole, .inl rfl⟩
  | item => cases whole
  | character => exact ⟨rfl, .inr rfl⟩
  | member => cases whole

end Step

namespace Method

theorem mutates_of_name {m k : Method} (same : k.name = m.name) : k.mutates = m.mutates := by
  revert same
  cases m <;> cases k <;> decide

theorem whole_looks {type : Ty} {name : String} {m : Method} (whole : type.isWhole = true)
    (h : ofTy? type name = some m) : m.mutates = false := by
  cases type with
  | primitive t =>
    simp only [ofTy?] at h
    unfold ofPrimitive? at h
    split at h <;> cases h <;> rfl
  | enum => cases h
  | _ => cases whole

end Method

namespace Point

def ofMain (fuel : Nat) (f : Function) (m : Machine) : Point :=
  ⟨fuel, .invoke f [] f.position, m, Scopes.empty, []⟩

end Point

namespace Program

variable {p : Program} {root pt next : Point} {parts : List Point} {cells cells' : Array Value}
  {cell : Nat} {b : Binding} {v : Value}

section Writing

variable {d : CellTypes} {names : Scopes Binding}

theorem not_readOnly_of_method {receiver : Ty} {steps : List Step} {inString : Bool}
    {method k : Method} (lead : Step.Lead p names b.type steps receiver inString)
    (lookup : Method.ofTy? receiver method.name = some k) (mutates : method.mutates = true)
    (allowed : k.mutates = true → b.mutability ≠ .constant) : ¬ b.ReadOnly := by
  have changes : k.mutates = true := by
    rw [Method.mutates_of_name (Method.name_of_ofTy? lookup), mutates]
  intro readOnly
  rcases readOnly with constant | ⟨_, whole⟩
  · exact allowed changes constant
  · rw [Method.whole_looks (lead.whole whole).1 lookup] at changes
    cases changes

theorem Writes.changeable (typed : p.Typed) (reached : p.Reached root)
    (start : p.Accounted root root)
    (call : ∃ f cells position, root.task = .invoke f cells position)
    (inside : p.Within root pt) (h : p.Writes pt cell) :
    ∃ b, p.MadeFor root b cell ∧ ¬ b.ReadOnly := by
  have known := (inside.accounted typed reached start).names
  cases h with
  | assigned found =>
    obtain ⟨d, fine, _⟩ := (reached.within inside).fine typed
    obtain ⟨_, _, returns, inLoop, names', s_typed⟩ := fine
    cases s_typed with
    | assign bound notConstant whole value lead noted accepted =>
      refine ⟨_, known.related bound found, ?_⟩
      intro readOnly
      rcases readOnly with constant | ⟨parameter, isWhole⟩
      · exact notConstant constant
      · rcases (lead.whole isWhole).2 with bare | character
        · exact whole parameter bare
        · cases character
  | changed found mutates =>
    -- What the checker allows is said at the expression or statement that calls the method.
    rcases Relation.ReflTransGen.cases_tail inside with same | ⟨caller, before, begun⟩
    · obtain ⟨f, cells, position, called⟩ := call
      rw [← same] at called
      cases called
    · obtain ⟨d, fine, _⟩ := (reached.within before).fine typed
      cases begun with
      | part h =>
        rcases h with h | h | h
        · cases h with
          | method =>
            obtain ⟨_, _, type, e_typed⟩ := fine
            cases e_typed with
            | method bound lead lookup allowed _ _ _ =>
              exact ⟨_, known.related bound found,
                not_readOnly_of_method lead lookup mutates allowed⟩
        · cases h
        · cases h with
          | methodStatement =>
            obtain ⟨_, _, returns, inLoop, names', s_typed⟩ := fine
            cases s_typed with
            | method bound lead lookup allowed _ =>
              exact ⟨_, known.related bound found,
                not_readOnly_of_method lead lookup mutates allowed⟩
      | frame h => cases h

end Writing

section Keeping

def Holds (cell : Nat) (v : Value) (cells : Array Value) : Prop :=
  ∀ w, cells[cell]? = some w → w = v

/-- In a run the cell is made with that value only, and nothing is written to it. -/
structure Kept (p : Program) (root : Point) (cell : Nat) (v : Value) : Prop where
  made : ∀ pt b w, p.Within root pt → p.Creates pt cell b w → w = v
  unwritten : ∀ pt, p.Within root pt → ¬ p.Writes pt cell

theorem Course.holds (h : p.Course pt parts cells cells') (start : Holds cell v cells)
    (made : ∀ b w, p.Creates pt cell b w → w = v) (unwritten : ¬ p.Writes pt cell)
    (deeper : ∀ next, p.Begins pt next → Holds cell v next.machine.cells →
      Holds cell v (next.final p).cells) :
    Holds cell v cells' ∧ ∀ next ∈ parts, Holds cell v next.machine.cells := by
  induction h with
  | done => exact ⟨start, nofun⟩
  | begins begun _ ih =>
    obtain ⟨ends, others⟩ := ih (deeper _ begun start)
    exact ⟨ends, List.forall_mem_cons.mpr ⟨start, others⟩⟩
  | @creates rest cells cells' b w creates _ ih =>
    refine ih fun u found => ?_
    rw [Array.getElem?_push] at found
    split at found
    · rename_i here
      cases found
      exact made b w (here ▸ creates)
    · exact start u found
  | @writes rest cells cells' other w writes _ ih =>
    refine ih fun u found => ?_
    rw [Array.getElem?_setIfInBounds] at found
    split at found
    · rename_i here
      exact (unwritten (here ▸ writes)).elim
    · exact start u found

theorem Kept.final (kept : p.Kept root cell v) (inside : p.Within root pt)
    (start : Holds cell v pt.machine.cells) : Holds cell v (pt.final p).cells := by
  -- What a point begins has less fuel, and what it leaves is known before the point ends.
  induction fuel : pt.fuel generalizing pt with
  | zero =>
    obtain ⟨parts, course, _⟩ := p.charted pt
    refine (course.holds start (fun b w => kept.made pt b w inside) (kept.unwritten pt inside)
      fun next begun _ => ?_).1
    have := begun.fuel
    omega
  | succ n ih =>
    obtain ⟨parts, course, _⟩ := p.charted pt
    refine (course.holds start (fun b w => kept.made pt b w inside) (kept.unwritten pt inside)
      fun next begun now => ih (inside.tail begun) now ?_).1
    have := begun.fuel
    omega

theorem Kept.within (kept : p.Kept root cell v) (inside : p.Within root pt)
    (start : Holds cell v root.machine.cells) : Holds cell v pt.machine.cells := by
  induction inside with
  | refl => exact start
  | @tail pt next inside begun ih =>
    obtain ⟨parts, course, all⟩ := p.charted pt
    exact (course.holds ih (fun b w => kept.made pt b w inside) (kept.unwritten pt inside)
      fun next begun now => kept.final (inside.tail begun) now).2 next (all next begun)

theorem Holds.value (h : Holds cell v cells) (there : cell < cells.size) :
    cells[cell]? = some v := by
  have found := Array.getElem?_eq_getElem there
  rw [found, h _ found]

end Keeping

variable {source : String} {fuel : Nat} {f : Function} {m : Machine}

theorem runOn_eq_ofMain (found : p.globals.function? "main" = some f) (none_taken : f.params = [])
    (fuel : Nat) (m : Machine) : (p.runOn fuel m).2 = (Point.ofMain fuel f m).final p := by
  rw [runOn_eq_final, main_eq found none_taken]
  exact Run.final_bind fun _ _ => rfl

/-- A read-only variable keeps its value. From the point on at which a run makes a cell for it, all
    points of the run find the value there that it was made with, and so does what comes after the
    run. -/
theorem kept_of_readOnly (compiled : compile source = .ok p) (resting : p.Resting m)
    (found : p.globals.function? "main" = some f) (none_taken : f.params = [])
    (inside : p.Within (.ofMain fuel f m) pt) (creates : p.Creates pt cell b v)
    (readOnly : b.ReadOnly) :
    pt.machine.cells.size ≤ cell ∧ (pt.final p).cells[cell]? = some v ∧
    (∀ later, p.Within (.ofMain fuel f m) later →
      (cell < later.machine.cells.size → later.machine.cells[cell]? = some v) ∧
      (cell < (later.final p).cells.size → (later.final p).cells[cell]? = some v)) ∧
    (p.runOn fuel m).2.cells[cell]? = some v := by
  have typed := typed_of_compile compiled
  have reached : p.Reached (.ofMain fuel f m) := .main resting found none_taken
  have start : p.Accounted (.ofMain fuel f m) (.ofMain fuel f m) := by
    refine ⟨?_, fun g cells position calls => ?_⟩
    · change Scopes.Rel _ Scopes.empty m.scopes
      rw [resting.idle.1]
      exact .empty
    · cases calls
      rw [none_taken]
      exact .nil
  have kept : p.Kept (.ofMain fuel f m) cell v := by
    refine ⟨fun other b' w inside' creates' => ?_, fun other inside' writes => ?_⟩
    · cases creates.point_unique creates' inside inside'
      exact (creates.unique creates').2.symm
    · obtain ⟨b', ⟨other, made, w, inside'', creates'', sharing⟩, changeable⟩ :=
        writes.changeable typed reached start ⟨_, _, _, rfl⟩ inside'
      cases creates.point_unique creates'' inside inside''
      obtain ⟨rfl, rfl⟩ := creates.unique creates''
      rcases sharing with rfl | ⟨_, isMutable⟩
      · exact changeable readOnly
      · exact readOnly.not_mutable isMutable
  have size := creates.size
  have span := Within.size inside
  have fresh : Holds cell v m.cells := by
    intro w there
    have := (Array.getElem?_eq_some_iff.mp there).1
    have := span.1
    have := size.1
    change m.cells.size ≤ _ at *
    omega
  have always (later : Point) (inside' : p.Within (.ofMain fuel f m) later) :=
    kept.within inside' fresh
  refine ⟨size.1, (kept.final inside (always pt inside)).value size.2, fun later inside' => ?_, ?_⟩
  · exact ⟨(always later inside').value, (kept.final inside' (always later inside')).value⟩
  · rw [runOn_eq_ofMain found none_taken]
    exact (kept.final .refl fresh).value (Nat.lt_of_lt_of_le size.2 span.2)

def counting : String :=
  "func raise(n: *u8) { n = n + 1; } " ++
  "func main() { const start: u8 = 3; n: u8 = start; raise(n); print(start); assert(n == 4); }"

def fixesFirst (p : Program) : Bool :=
  (p.globals.function? "main").any fun f => f.params.isEmpty && match f.body with
    | .define node _ _ value true :: _ => (p.typeOf node).toOption.any fun _ =>
      match p.eval 60 value { Machine.initial with depth := 1 } with
      | .ok _ _ => true
      | .error _ _ => false
    | _ => false

set_option maxRecDepth 100000 in
theorem counting_keeps_start : ∃ p f pt cell b v, compile counting = .ok p ∧
    p.globals.function? "main" = some f ∧ f.params = [] ∧
    p.Within (.ofMain 63 f .initial) pt ∧ p.Creates pt cell b v ∧ b.ReadOnly ∧
    pt.machine.cells.size ≤ cell ∧ (pt.final p).cells[cell]? = some v ∧
    (∀ later, p.Within (.ofMain 63 f .initial) later →
      (cell < later.machine.cells.size → later.machine.cells[cell]? = some v) ∧
      (cell < (later.final p).cells.size → (later.final p).cells[cell]? = some v)) ∧
    (p.runOn 63 .initial).2.cells[cell]? = some v := by
  have facts : (compile counting).toOption.any fixesFirst := by decide +kernel
  obtain ⟨p, compiled, facts⟩ := exists_of_any facts
  obtain ⟨f, found, facts⟩ := (Option.any_eq_true _ _).mp facts
  rw [Bool.and_eq_true, List.isEmpty_iff] at facts
  obtain ⟨none_taken, facts⟩ := facts
  split at facts
  · rename_i node name written value rest body
    obtain ⟨type, noted, facts⟩ := exists_of_any facts
    split at facts
    · rename_i v m' ran
      have begun : p.Begins (.ofMain 63 f .initial) ⟨62, .block f.body,
          { Machine.initial with scopes := Scopes.ofArguments f.params [], depth := 1 },
          Scopes.ofParams f.params, [⟨Scopes.empty, Scopes.empty⟩]⟩ := .body (by decide)
      rw [none_taken, body] at begun
      have inside := (Relation.ReflTransGen.single begun).tail (.part (.inr (.inr .statement)))
      have creates : p.Creates ⟨61, .statement (.define node name written value true),
          { Machine.initial with depth := 1 }, Scopes.empty, [⟨Scopes.empty, Scopes.empty⟩]⟩
          m'.cells.size ⟨type, .constant⟩ (v.coerce type) := .defined noted ran
      have readOnly : Binding.ReadOnly ⟨type, .constant⟩ := .inl rfl
      exact ⟨p, f, _, _, _, _, compiled, found, none_taken, inside, creates, readOnly,
        kept_of_readOnly compiled .initial found none_taken inside creates readOnly⟩
    · cases facts
  · cases facts

end Program
end LoopLang
