import LoopLang.Proofs.Scoping.Dynamic
import LoopLang.Proofs.Scoping.Static

namespace LoopLang

namespace Task

def isPlace : Task → Bool
  | .block _ | .statement _ | .branches _ _ | .pass _ => true
  | _ => false

end Task

namespace Scopes

variable {α β γ : Type} {R : α → β → Prop} {S : α → γ → Prop}

def names (s : Scopes α) : List (List String) := s.frames.map (·.map Prod.fst)

theorem Rel.names {s : Scopes α} {t : Scopes β} (h : Rel R s t) : s.names = t.names := by
  have frame : ∀ f g, Frame.Rel R f g → f.map Prod.fst = g.map Prod.fst :=
    fun f g related => (map_eq_of_forall₂ related fun _ _ both => both.1.symm).symm
  have outer : s.outer.map (·.map Prod.fst) = t.outer.map (·.map Prod.fst) :=
    (map_eq_of_forall₂ h.outer fun f g related => (frame f g related).symm).symm
  rw [Scopes.names, Scopes.names, frames, frames, List.map_cons, List.map_cons, outer,
    frame _ _ h.inner]

theorem Rel.get?_both {s : Scopes α} {t : Scopes β} {u : Scopes γ} (h : Rel R s t) (h' : Rel S s u)
    (name : String) : (t.get? name = none ∧ u.get? name = none) ∨ ∃ a b c,
      s.get? name = some a ∧ t.get? name = some b ∧ R a b ∧ u.get? name = some c ∧ S a c := by
  have first := h.get? name
  have second := h'.get? name
  generalize s.get? name = x at first second
  generalize t.get? name = y at first
  generalize u.get? name = z at second
  cases first with
  | none =>
    cases second
    exact .inl ⟨rfl, rfl⟩
  | some related =>
    cases second with
    | some related' => exact .inr ⟨_, _, _, rfl, rfl, related, rfl, related'⟩

end Scopes

namespace Program

/-- A run is about to execute a statement, or to find out whether the condition of a branch
    holds. -/
inductive Starts (p : Program) : Point → Prop where
  | statement {pt s} : p.Reached pt → pt.task = .statement s → Starts p pt
  | condition {before pt branch more last} :
    p.Reached before →
    p.Begins before pt →
    before.task = .branches (branch :: more) last →
    pt.task = .value branch.condition →
    Starts p pt

variable {source : String} {p : Program} {f : Function} {cells : List CellId}
  {root pt next : Point} {way : Way} {t : Turn} {spot : Spot}

theorem Begins.place (begun : p.Begins pt next) (place : next.task.isPlace = true) :
    (∃ f cells position, pt.task = .invoke f cells position) ∨ pt.task.isPlace = true ∧
      ((∃ t, pt.task.turn? t = some next.task) ∨
        ∃ body, pt.task = .pass body ∧ next.task = .pass body) := by
  cases begun with
  | part parts =>
    right
    rcases parts with h | h | h
    · cases h <;> cases place
    · cases h <;> cases place
    · cases h with
      | statement => exact ⟨rfl, .inl ⟨.first, rfl⟩⟩
      | choose => exact ⟨rfl, .inl ⟨.choose, rfl⟩⟩
      | nextBranch _ _ => exact ⟨rfl, .inl ⟨.others, rfl⟩⟩
      | passBlock => exact ⟨rfl, .inl ⟨.pass, rfl⟩⟩
      | nextPass _ _ => exact ⟨rfl, .inr ⟨_, rfl, rfl⟩⟩
      | _ => cases place
  | frame inFrame =>
    right
    cases inFrame with
    | loop => exact ⟨rfl, .inl ⟨.loop, rfl⟩⟩
    | branch _ _ => exact ⟨rfl, .inl ⟨.chosen, rfl⟩⟩
    | otherwise => exact ⟨rfl, .inl ⟨.otherwise, rfl⟩⟩
  | rest _ => exact .inr ⟨rfl, .inl ⟨.next, rfl⟩⟩
  | body _ => exact .inl ⟨_, _, _, rfl⟩

theorem Begins.follows (reached : p.Reached pt) (begun : p.Begins pt next)
    (place : next.task.isPlace = true) (before : pt.task.isPlace = true →
      ∃ f cells root way, p.Enters f cells root ∧ p.Follows root way pt) :
    ∃ f cells root way, p.Enters f cells root ∧ p.Follows root way next := by
  rcases begun.place place with ⟨f, cells, position, calls⟩ | ⟨there, goes⟩
  · exact ⟨f, cells, next, [], .body reached calls begun, .here⟩
  · obtain ⟨f, cells, root, way, entered, follows⟩ := before there
    rcases goes with ⟨t, turn⟩ | ⟨body, same, again⟩
    · exact ⟨f, cells, root, t :: way, entered, follows.turn begun turn⟩
    · exact ⟨f, cells, root, way, entered, follows.again begun same again⟩

theorem Reached.follows (reached : p.Reached pt) (place : pt.task.isPlace = true) :
    ∃ f cells root way, p.Enters f cells root ∧ p.Follows root way pt := by
  induction reached with
  | main _ _ _ => cases place
  | part reached parts ih => exact Begins.follows reached (.part parts) place ih
  | frame reached inFrame ih => exact Begins.follows reached (.frame inFrame) place ih
  | rest reached ran ih => exact Begins.follows reached (.rest ran) place ih
  | body reached shallow ih => exact Begins.follows reached (.body shallow) place ih

theorem Starts.follows (h : p.Starts pt) :
    ∃ f cells root way, p.Enters f cells root ∧ p.Follows root way pt := by
  cases h with
  | statement reached task =>
    exact reached.follows (by rw [task]; rfl)
  | condition reached begun choice task =>
    obtain ⟨f, cells, root, way, entered, follows⟩ := reached.follows (by rw [choice]; rfl)
    refine ⟨f, cells, root, .condition :: way, entered, follows.turn begun ?_⟩
    rw [choice, task]
    rfl

theorem Follows.task (entered : p.Enters f cells root) (follows : p.Follows root way pt)
    (checks : Checks source p f way spot) : spot.task = pt.task := by
  have same := checks.code
  rw [follows.code entered] at same
  exact (Option.some.inj same).symm

theorem Follows.names (typed : p.Typed) (entered : p.Enters f cells root)
    (follows : p.Follows root way pt) (checks : Checks source p f way spot) :
    spot.context.scopes = pt.names := by
  induction follows generalizing spot with
  | here =>
    cases checks with
    | body opens => rw [opens.scopes, entered.begins.2.1]
  | turn follows begun turn ih =>
    cases checks with
    | turn checks turns =>
      rw [turns.scopes checks.plain, begun.names turn, follows.task entered checks, ih checks]
  | again follows begun before after ih =>
    rw [(begun.of_pass typed (entered.reached.within follows.within) before).1]
    exact ih checks

/-- The expressions within what is done at a point, and the calls in them up to their bodies. -/
def Inside (p : Program) : Point → Point → Prop :=
  Relation.ReflTransGen fun a b => p.Begins a b ∧ (b.task.isExpr = true ∨ b.task.isCall = true)

theorem Inside.same (typed : p.Typed) (reached : p.Reached pt) (inside : p.Inside pt next) :
    p.Reached next ∧ next.names = pt.names ∧ next.machine.scopes = pt.machine.scopes := by
  induction inside with
  | refl => exact ⟨reached, rfl, rfl⟩
  | tail _ step ih =>
    obtain ⟨begun, kind⟩ := step
    obtain ⟨reached, names, scopes⟩ := ih
    refine ⟨reached.begins begun, ?_⟩
    rw [← names, ← scopes]
    obtain ⟨d, fine, _⟩ := reached.fine typed
    cases begun with
    | part parts => exact ⟨rfl, fine.part_scopes parts⟩
    | frame inFrame => cases inFrame <;> simp [Task.isExpr, Task.isCall] at kind
    | rest _ | body _ => simp [Task.isExpr, Task.isCall] at kind

/-- At a place of a function's body, which the checker and a run have come to, the two have the same
    names in the same frames. Both have them from the declarations that the way there tells of. -/
structure Agree (source : String) (p : Program) (f : Function) (cells : List CellId) (root : Point)
    (way : Way) (spot : Spot) (pt : Point) : Prop where
  task : spot.task = pt.task
  frames : spot.context.scopes.names = pt.machine.scopes.names
  declared : Scopes.Rel (Declared source p f) (f.scopesAt way) spot.context.scopes
  made : Scopes.Rel (p.Made f cells root pt) (f.scopesAt way) pt.machine.scopes
  /-- A name that means no variable may mean an enum in both, and else the cell that it denotes is
      that of the declaration which the checker has found. -/
  meaning : ∀ name,
    (spot.context.scopes.get? name = none ∧ pt.machine.scopes.get? name = none) ∨
    ∃ o b cell, (f.scopesAt way).get? name = some o ∧
      spot.context.scopes.get? name = some b ∧ Declared source p f o b ∧
      pt.machine.scopes.get? name = some cell ∧ p.Made f cells root pt o cell
  inside : ∀ inner, p.Inside pt inner → inner.machine.scopes = pt.machine.scopes ∧
    ∀ e, inner.task = .value e → ∃ type, e.Typed p spot.context.scopes type

/-- Whenever a statement or a condition begins, in any pass of the loops around it, the checker has
    been at that place, and however it came there its scopes agree with those of the run. -/
theorem scopes_agree (compiled : compile source = .ok p) (starts : p.Starts pt) :
    (∃ f cells root way, p.Enters f cells root ∧ p.Follows root way pt) ∧
    ∀ f cells root way, p.Enters f cells root → p.Follows root way pt →
      (∃ spot, Checks source p f way spot) ∧
      ∀ spot, Checks source p f way spot → Agree source p f cells root way spot pt := by
  have typed := typed_of_compile compiled
  refine ⟨starts.follows, fun f cells root way entered follows => ⟨?_, fun spot checks => ?_⟩⟩
  · obtain ⟨spot, checks, _⟩ :=
      exists_checks compiled entered.function (follows.code entered)
    exact ⟨spot, checks⟩
  · have declared := checks.scopes
    have made := follows.scopes typed entered
    refine ⟨follows.task entered checks, declared.names.symm.trans made.names, declared, made,
      declared.get?_both made, fun inner inside => ?_⟩
    have reached := entered.reached.within follows.within
    obtain ⟨there, names, scopes⟩ := inside.same typed reached
    refine ⟨scopes, fun e evaluates => ?_⟩
    obtain ⟨d, ⟨_, _, obeys⟩, _⟩ := there.fine typed
    rw [evaluates, names, ← follows.names typed entered checks] at obeys
    exact obeys

def shadowing : String :=
  "func main() { n: u8 = 0; loop { n = n + 1; if (n == 3) { break; } n: u8 = 7; continue; } }"

def passesAgain (p : Program) : Bool :=
  (p.globals.function? "main").any fun f => f.params.isEmpty && match f.body with
    | s :: .loop _ (first :: rest) :: _ =>
      match p.exec 61 s { Machine.initial with depth := 1 } with
      | .ok .normal m =>
        match p.execBlock 58 (first :: rest) { m with scopes := m.scopes.push } with
        | .ok .continue m => m.scopes.names == [["n"], ["n"]]
        | _ => false
      | _ => false
    | _ => false

set_option maxRecDepth 100000 in
theorem scopes_agree_shadowing : ∃ p pt, compile shadowing = .ok p ∧ p.Starts pt ∧
    pt.machine.scopes.names = [[], ["n"]] ∧
    (∃ f cells root way, p.Enters f cells root ∧ p.Follows root way pt) ∧
    ∀ f cells root way, p.Enters f cells root → p.Follows root way pt →
      (∃ spot, Checks shadowing p f way spot) ∧
      ∀ spot, Checks shadowing p f way spot → Agree shadowing p f cells root way spot pt := by
  have facts : (compile shadowing).toOption.any passesAgain := by decide +kernel
  obtain ⟨p, compiled, facts⟩ := exists_of_any facts
  obtain ⟨f, found, facts⟩ := (Option.any_eq_true _ _).mp facts
  rw [Bool.and_eq_true, List.isEmpty_iff] at facts
  obtain ⟨none_taken, facts⟩ := facts
  have block := Reached.main_body 62 .initial found none_taken
  split at facts
  · rename_i s position first rest more body
    rw [body] at block
    split at facts
    · rename_i m1 ran1
      split at facts
      · rename_i m2 ran2
        have looping := (block.rest ran1).part (.inr (.inr .statement))
        have again := (looping.frame .loop).part (.inr (.inr (.nextPass ran2 (.inr rfl))))
        have reached := (again.part (.inr (.inr .passBlock))).part (.inr (.inr .statement))
        have starts := Starts.statement reached rfl
        refine ⟨p, _, compiled, starts, ?_, scopes_agree compiled starts⟩
        rw [beq_iff_eq] at facts
        have outer : m2.scopes.outer.map (·.map Prod.fst) = [["n"]] := congrArg List.tail facts
        exact congrArg ([] :: ·) outer
      · cases facts
    · cases facts
  · cases facts

end Program
end LoopLang
