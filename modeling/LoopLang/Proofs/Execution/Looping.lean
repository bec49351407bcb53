import Mathlib.Logic.Relation
import LoopLang.Proofs.Execution.Frame
import LoopLang.Proofs.Execution.Fuel

namespace LoopLang

namespace Scopes

theorem eq_push {α : Type} {s t : Scopes α} (inner : t.inner = []) (outer : t.outer = s.push.outer) :
    t = s.push := by
  cases t
  cases inner
  cases outer
  rfl

end Scopes

namespace Run

def clear : Run Unit := modify fun m => { m with scopes := m.scopes.clear }

end Run

namespace Program

open Run (Outlasts)

/-- Runs the statements of a loop in the innermost frame, from the one at an index on. The frame is
emptied where the index goes back to the first: behind the last statement and where a statement says
to continue. -/
def indexed (p : Program) (body : List Stmt) : (fuel index : Nat) → Run Flow
  | 0, _ => throw .outOfFuel
  | fuel + 1, index =>
    match body[index]? with
    | none => do
      Run.clear
      indexed p body fuel 0
    | some s => do
      match ← p.exec fuel s with
      | .normal => indexed p body fuel (index + 1)
      | .continue =>
        Run.clear
        indexed p body fuel 0
      | .break => return .normal
      | .return value => return .return value

def indexedLoop (p : Program) (body : List Stmt) (fuel : Nat) : Run Flow :=
  Run.inFrame (p.indexed body fuel 0)

/-- A loop that runs its body again and again, each time in a frame of its own. -/
def scopedLoop (p : Program) (body : List Stmt) : (fuel : Nat) → Run Flow
  | 0 => throw .outOfFuel
  | fuel + 1 => do
    match ← Run.inFrame (p.execBlock fuel body) with
    | .normal | .continue => scopedLoop p body fuel
    | .break => return .normal
    | .return value => return .return value

def afterPass (p : Program) (body : List Stmt) (fuel : Nat) : Flow → Run Flow
  | .normal | .continue => do
    Run.clear
    p.repeatBlock fuel body
  | .break => return .normal
  | .return value => return .return value

def afterStatement (p : Program) (body : List Stmt) (fuel index : Nat) : Flow → Run Flow
  | .normal => p.indexed body fuel (index + 1)
  | .continue => do
    Run.clear
    p.indexed body fuel 0
  | .break => return .normal
  | .return value => return .return value

variable {p : Program} {body : List Stmt} {s : Stmt} {i : Nat}

theorem repeatBlock_succ_eq (n : Nat) :
    p.repeatBlock (n + 1) body = p.execBlock n body >>= p.afterPass body n := by
  rw [repeatBlock]
  congr

theorem indexed_of_none (behind : body[i]? = none) (n : Nat) :
    p.indexed body (n + 1) i = (do Run.clear; p.indexed body n 0) := by
  rw [indexed, behind]

theorem indexed_of_some (there : body[i]? = some s) (n : Nat) :
    p.indexed body (n + 1) i = p.exec n s >>= p.afterStatement body n i := by
  rw [indexed, there]
  congr

section Order

theorem indexed_lasts (n i : Nat) : (p.indexed body (n + 1) i).Outlasts (p.indexed body n i) := by
  induction n generalizing i with
  | zero => exact .empty _
  | succ n ih =>
    have again : (do Run.clear; p.indexed body (n + 1) 0 : Run Flow).Outlasts
        (do Run.clear; p.indexed body n 0) := (Outlasts.refl _).bind fun _ => ih 0
    cases there : body[i]? with
    | none =>
      rw [indexed_of_none there, indexed_of_none there]
      exact again
    | some s =>
      rw [indexed_of_some there, indexed_of_some there]
      apply ((lasting p n).exec s).bind
      intro flow
      cases flow with
      | normal => exact ih (i + 1)
      | «continue» => exact again
      | _ => exact .refl _

theorem afterPass_lasts (n : Nat) (flow : Flow) :
    (p.afterPass body (n + 1) flow).Outlasts (p.afterPass body n flow) := by
  cases flow with
  | normal | «continue» => exact (Outlasts.refl _).bind fun _ => (lasting p n).repeatBlock body
  | _ => exact .refl _

/-- With an index, what is left of a pass runs as a block does, and the loop goes on as it does. -/
theorem afterPass_outlasts_indexed (n i : Nat) :
    (p.execBlock n (body.drop i) >>= p.afterPass body n).Outlasts (p.indexed body n i) := by
  induction n generalizing i with
  | zero => exact .empty _
  | succ n ih =>
    -- What comes where the index goes back.
    have again : (do Run.clear; p.repeatBlock (n + 1) body : Run Flow).Outlasts
        (do Run.clear; p.indexed body n 0) := by
      rw [repeatBlock_succ_eq]
      exact (Outlasts.refl _).bind fun _ => ih 0
    cases there : body[i]? with
    | none =>
      rw [List.drop_eq_nil_of_le (List.getElem?_eq_none_iff.mp there), execBlock, pure_bind,
        indexed_of_none there]
      exact again
    | some s =>
      obtain ⟨inside, found⟩ := List.getElem?_eq_some_iff.mp there
      rw [List.drop_eq_getElem_cons inside, found, execBlock, bind_assoc, indexed_of_some there]
      apply (Outlasts.refl _).bind
      intro flow
      cases flow with
      | normal =>
        have longer : (p.execBlock n (body.drop (i + 1)) >>= p.afterPass body (n + 1)).Outlasts
            (p.execBlock n (body.drop (i + 1)) >>= p.afterPass body n) :=
          (Outlasts.refl _).bind (afterPass_lasts n)
        exact longer.trans (ih (i + 1))
      | «continue» => exact again
      | _ => exact .refl _

/-- With enough fuel the index comes through what is left of a pass, if there is enough for all that
comes after it. -/
theorem exists_indexed_outlasts {n : Nat}
    (later : ∃ k, (p.indexed body k 0).Outlasts (p.repeatBlock n body)) (fuel i : Nat) :
    ∃ k, (p.indexed body k i).Outlasts
      (p.execBlock fuel (body.drop i) >>= p.afterPass body n) := by
  induction fuel generalizing i with
  | zero =>
    rw [execBlock]
    exact ⟨0, .empty _⟩
  | succ fuel ih =>
    obtain ⟨k, later⟩ := later
    have again {k' : Nat} (more : k ≤ k') : (do Run.clear; p.indexed body k' 0 : Run Flow).Outlasts
        (do Run.clear; p.repeatBlock n body) :=
      (Outlasts.refl _).bind fun _ => (Outlasts.of_le (fun n => indexed_lasts n 0) more).trans later
    cases there : body[i]? with
    | none =>
      rw [List.drop_eq_nil_of_le (List.getElem?_eq_none_iff.mp there), execBlock, pure_bind]
      refine ⟨k + 1, ?_⟩
      rw [indexed_of_none there]
      exact again (Nat.le_refl k)
    | some s =>
      obtain ⟨inside, found⟩ := List.getElem?_eq_some_iff.mp there
      rw [List.drop_eq_getElem_cons inside, found, execBlock, bind_assoc]
      obtain ⟨rest, onward⟩ := ih (i + 1)
      -- Enough for the statement, for the rest of the pass and for the passes after it.
      refine ⟨max fuel (max rest k) + 1, ?_⟩
      rw [indexed_of_some there]
      apply (Outlasts.of_le (fun n => (lasting p n).exec s) (by omega)).bind
      intro flow
      cases flow with
      | normal => exact (Outlasts.of_le (fun n => indexed_lasts n (i + 1)) (by omega)).trans onward
      | «continue» => exact again (by omega)
      | _ => exact .refl _

theorem exists_indexed_outlasts_repeatBlock (n : Nat) :
    ∃ k, (p.indexed body k 0).Outlasts (p.repeatBlock n body) := by
  induction n with
  | zero =>
    rw [repeatBlock]
    exact ⟨0, .empty _⟩
  | succ n ih =>
    rw [repeatBlock_succ_eq]
    exact exists_indexed_outlasts ih n 0

end Order

theorem inFrame_repeatBlock (n : Nat) :
    Run.inFrame (p.repeatBlock n body) = p.scopedLoop body n := by
  induction n with
  | zero =>
    rw [repeatBlock, scopedLoop]
    rfl
  | succ n ih =>
    funext m
    have framed := (framing p n).execBlock body { m with scopes := m.scopes.push }
    rw [Run.Keeps] at framed
    rw [repeatBlock_succ_eq, scopedLoop]
    cases ran : p.execBlock n body { m with scopes := m.scopes.push } with
    | error stop m1 =>
      have pass : Run.inFrame (p.execBlock n body) m =
          .error stop { m1 with scopes := m1.scopes.pop } := by rw [Run.inFrame, ran]
      rw [Run.bind_of_error pass, Run.inFrame, Run.bind_of_error ran]
    | ok flow m1 =>
      rw [ran] at framed
      have pass : Run.inFrame (p.execBlock n body) m =
          .ok flow { m1 with scopes := m1.scopes.pop } := by rw [Run.inFrame, ran]
      have left : m1.scopes.pop = m.scopes := framed.1.pop
      -- To empty the frame is to leave it and to begin a new one.
      have emptied : m1.scopes.clear = m1.scopes.pop.push := by
        rw [left]
        exact Scopes.eq_push rfl framed.1.outer
      rw [Run.bind_of_ok pass, Run.inFrame, Run.bind_of_ok ran]
      cases flow with
      | normal | «continue» =>
        dsimp only
        rw [← ih, Run.inFrame, ← emptied]
        rfl
      | _ => rfl

theorem scopes_scopedLoop (n : Nat) (m : Machine) :
    ((p.scopedLoop body n).final m).scopes = m.scopes := by
  have framed := ((framing p n).repeatBlock body { m with scopes := m.scopes.push }).final
  rw [← inFrame_repeatBlock]
  unfold Run.final Run.inFrame at *
  cases ran : p.repeatBlock n body { m with scopes := m.scopes.push } with
  | ok flow m' | error stop m' =>
    rw [ran] at framed
    exact framed.pop

theorem exec_loop (n : Nat) (position : Position) :
    p.exec (n + 1) (.loop position body) = p.scopedLoop body n := by
  rw [exec, inFrame_repeatBlock]

section Passes

variable {m m' : Machine} {i' : Nat}

/-- A step of the loop with an index: a statement that ends normally or says to continue, or the way
back from behind the last one. -/
inductive IndexStep (p : Program) (body : List Stmt) : Nat × Machine → Nat × Machine → Prop
  | next {fuel i : Nat} {s : Stmt} {m m' : Machine} (there : body[i]? = some s)
    (ran : p.exec fuel s m = .ok .normal m') : IndexStep p body (i, m) (i + 1, m')
  | again {fuel i : Nat} {s : Stmt} {m m' : Machine} (there : body[i]? = some s)
    (ran : p.exec fuel s m = .ok .continue m') :
    IndexStep p body (i, m) (0, { m' with scopes := m'.scopes.clear })
  | wrap {i : Nat} {m : Machine} (behind : body[i]? = none) :
    IndexStep p body (i, m) (0, { m with scopes := m.scopes.clear })

theorem indexed_of_step (step : p.IndexStep body (i, m) (i', m')) :
    ∃ n, ∀ k, n ≤ k → p.indexed body (k + 1) i m = p.indexed body k i' m' := by
  have ran_on {fuel k : Nat} {s : Stmt} {flow : Flow} {m1 : Machine} (more : fuel ≤ k)
      (ran : p.exec fuel s m = .ok flow m1) : p.exec k s m = .ok flow m1 := by
    rcases Outlasts.of_le (fun n => (lasting p n).exec s) more m with ⟨_, out⟩ | same
    · cases ran.symm.trans out
    · exact same.trans ran
  cases step with
  | @next fuel _ s _ _ there ran =>
    refine ⟨fuel, fun k more => ?_⟩
    rw [indexed_of_some there, Run.bind_of_ok (ran_on more ran)]
    rfl
  | @again fuel _ s _ _ there ran =>
    refine ⟨fuel, fun k more => ?_⟩
    rw [indexed_of_some there, Run.bind_of_ok (ran_on more ran)]
    rfl
  | wrap behind =>
    refine ⟨0, fun k _ => ?_⟩
    rw [indexed_of_none behind]
    rfl

theorem ends_of_step (step : p.IndexStep body (i, m) (i', m'))
    (r : EStateM.Result Stop Machine Flow) :
    Run.Ends (fun n => p.indexed body n i) m r ↔ Run.Ends (fun n => p.indexed body n i') m' r := by
  obtain ⟨n, onward⟩ := indexed_of_step step
  constructor
  · intro ends
    obtain ⟨k, same⟩ := ends.with_more fun n => indexed_lasts n i
    have ran := onward (max n k) (Nat.le_max_left n k)
    exact ⟨⟨max n k, ran.symm.trans (same _ (by omega))⟩, ends.2⟩
  · intro ends
    obtain ⟨k, same⟩ := ends.with_more fun n => indexed_lasts n i'
    have ran := onward (max n k) (Nat.le_max_left n k)
    exact ⟨⟨max n k + 1, ran.trans (same _ (Nat.le_max_right n k))⟩, ends.2⟩

/-- No step reaches beyond the innermost frame, and those back to the first statement empty it. -/
theorem scopes_of_step (step : p.IndexStep body (i, m) (i', m')) :
    m'.scopes.outer = m.scopes.outer ∧ (i' = 0 → m'.scopes.inner = []) := by
  cases step with
  | @next fuel _ s _ _ there ran =>
    have framed := ((framing p fuel).exec s m).final
    rw [Run.final, ran] at framed
    exact ⟨framed.outer, by simp⟩
  | @again fuel _ s _ m1 there ran =>
    have framed := ((framing p fuel).exec s m).final
    rw [Run.final, ran] at framed
    exact ⟨framed.outer, fun _ => rfl⟩
  | wrap behind => exact ⟨rfl, fun _ => rfl⟩

/-- Wherever the loop has come to, it goes on to what it comes to from the start, and where it is
at the first statement, its frame is empty. -/
theorem reached_of_steps {start : Machine} (empty : start.scopes.inner = [])
    {point : Nat × Machine} (reached : Relation.ReflTransGen (p.IndexStep body) (0, start) point) :
    point.2.scopes.outer = start.scopes.outer ∧ (point.1 = 0 → point.2.scopes.inner = []) ∧
      ∀ r, Run.Ends (fun n => p.indexed body n point.1) point.2 r ↔
        Run.Ends (fun n => p.indexed body n 0) start r := by
  induction reached with
  | refl => exact ⟨rfl, fun _ => empty, fun r => Iff.rfl⟩
  | tail _ step ih =>
    have scopes := scopes_of_step step
    exact ⟨scopes.1.trans ih.1, scopes.2, fun r => (ends_of_step step r).symm.trans (ih.2.2 r)⟩

end Passes

theorem scopedLoop_outlasts (n : Nat) :
    (p.scopedLoop body (n + 1)).Outlasts (p.indexedLoop body n) := by
  rw [← inFrame_repeatBlock, repeatBlock_succ_eq]
  exact .inFrame (afterPass_outlasts_indexed n 0)

theorem exists_indexedLoop_outlasts (n : Nat) :
    ∃ k, (p.indexedLoop body k).Outlasts (p.scopedLoop body n) := by
  rw [← inFrame_repeatBlock]
  obtain ⟨k, lasts⟩ : ∃ k, (p.indexed body k 0).Outlasts (p.repeatBlock n body) :=
    exists_indexed_outlasts_repeatBlock n
  exact ⟨k, .inFrame lasts⟩

theorem exists_exec_outlasts (position : Position) (n : Nat) :
    ∃ k, (p.exec k (.loop position body)).Outlasts (p.scopedLoop body n) := by
  refine ⟨n + 1, ?_⟩
  rw [exec_loop]
  exact .refl _

theorem exists_scopedLoop_outlasts (position : Position) (n : Nat) :
    ∃ k, (p.scopedLoop body k).Outlasts (p.exec n (.loop position body)) := by
  cases n with
  | zero =>
    rw [exec]
    exact ⟨0, .empty _⟩
  | succ n =>
    rw [exec_loop]
    exact ⟨n, .refl _⟩

open Run (Ends Diverges)

/-- A loop comes to the same whether its body runs statement by statement under an index in one
frame, which is emptied where the index goes back, or as a block in a new frame each time, and so
does the loop of the interpreter: it ends with the same flow or fault on the same machine, with the
scopes that were there before it, or none of them ends. At the beginning of every pass under the
index, whichever statement the way back came from, nothing is in scope but what was before. -/
theorem loops_agree (p : Program) (body : List Stmt) (m : Machine) :
    (∀ r, Ends (p.indexedLoop body) m r ↔ Ends (p.scopedLoop body) m r) ∧
    (∀ r r', Ends (p.indexedLoop body) m r → Ends (p.scopedLoop body) m r' → r = r') ∧
    (Diverges (p.indexedLoop body) m ↔ Diverges (p.scopedLoop body) m) ∧
    (∀ position,
      (∀ r, Ends (fun n => p.exec n (.loop position body)) m r ↔ Ends (p.scopedLoop body) m r) ∧
      (Diverges (fun n => p.exec n (.loop position body)) m ↔ Diverges (p.scopedLoop body) m)) ∧
    (∀ n, ((p.scopedLoop body n).final m).scopes = m.scopes) ∧
    ∀ i m', Relation.ReflTransGen (p.IndexStep body) (0, { m with scopes := m.scopes.push })
        (i, m') →
      (i = 0 → m'.scopes = m.scopes.push ∧ ∀ name, m'.scopes.get? name = m.scopes.get? name) ∧
      ∀ r, Ends (fun n => p.indexed body n i) m' r ↔
        Ends (fun n => p.indexed body n 0) { m with scopes := m.scopes.push } r := by
  have forth (n : Nat) : ∃ k, (p.scopedLoop body k).Outlasts (p.indexedLoop body n) :=
    ⟨n + 1, scopedLoop_outlasts n⟩
  have steady (n : Nat) : (p.indexedLoop body (n + 1)).Outlasts (p.indexedLoop body n) :=
    .inFrame (indexed_lasts n 0)
  refine ⟨?same, ?unique, ?endless, fun position => ⟨?run, ?run_endless⟩, fun n => ?scopes, ?pass⟩
  case same => exact fun r => ⟨.of_outlasts forth, .of_outlasts exists_indexedLoop_outlasts⟩
  case unique =>
    intro r r' ends ends'
    exact ends.unique steady (ends'.of_outlasts exists_indexedLoop_outlasts)
  case endless => exact ⟨.of_outlasts exists_indexedLoop_outlasts, .of_outlasts forth⟩
  case run =>
    exact fun r => ⟨.of_outlasts (exists_scopedLoop_outlasts position),
      .of_outlasts (exists_exec_outlasts position)⟩
  case run_endless =>
    exact ⟨.of_outlasts (exists_exec_outlasts position),
      .of_outlasts (exists_scopedLoop_outlasts position)⟩
  case scopes => exact scopes_scopedLoop n m
  case pass =>
    intro i m' reached
    obtain ⟨outer, inner, onward⟩ := reached_of_steps rfl reached
    refine ⟨fun first => ?_, onward⟩
    have fresh : m'.scopes = m.scopes.push := Scopes.eq_push (inner first) outer
    exact ⟨fresh, fun name => by rw [fresh, Scopes.get?_push]⟩

def twice : List Stmt :=
  [.declare ⟨0, ⟨1, 1⟩⟩ "x" (.named "bool"),
    .choose ⟨2, 1⟩ ⟨.place ⟨1, ⟨2, 5⟩⟩ "again" [],
      [.assign ⟨3, 3⟩ ⟨2, ⟨3, 3⟩⟩ "again" [] (.literal ⟨3, ⟨3, 11⟩⟩ (.bool false)),
        .continue ⟨4, 3⟩]⟩ [] none,
    .break ⟨5, 1⟩]

theorem loops_agree_twice :
    let p : Program := ⟨.empty, (.insert (.insert ∅ 0 .bool) 2 .bool)⟩
    let m : Machine := ⟨#[.bool true], ⟨[("again", 0)], []⟩, 1, #[], []⟩
    let m' : Machine := ⟨#[.bool false, .bool false, .bool false], m.scopes, 1, #[], []⟩
    Ends (p.indexedLoop twice) m (.ok .normal m') ∧ Ends (p.scopedLoop twice) m (.ok .normal m') := by
  intro p m m'
  have ran : p.indexedLoop twice 8 m = .ok .normal m' := by rfl
  have indexed : Ends (p.indexedLoop twice) m (.ok .normal m') := ⟨⟨8, ran⟩, nofun⟩
  exact ⟨indexed, ((loops_agree p twice m).1 _).mp indexed⟩

end Program
end LoopLang
