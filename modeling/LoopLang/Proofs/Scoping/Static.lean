import LoopLang.Proofs.Scoping.Place
import LoopLang.Proofs.Typing.Accepted

namespace LoopLang

/-- Where the checker has come to: what it is to check next, whether that is in a loop, and what it
    has found out by then. -/
structure Spot where
  inLoop : Bool
  task : Task
  context : Context

namespace Check

variable {c c' : Context}

theorem ran_inBlock {α : Type} {x : Check α} {a : α} (h : inBlock x c = .ok (a, c')) :
    ∃ inner, x { c with scopes := c.scopes.push } = .ok (a, inner) := by
  obtain ⟨_, c1, pushed, h⟩ := ran_bind h
  cases pushed
  obtain ⟨b, inner, ran, h⟩ := ran_bind h
  obtain ⟨_, c2, popped, h⟩ := ran_bind h
  cases h
  exact ⟨inner, ran⟩

namespace Body

def lastBlock (b : Body) (inLoop : Bool) : Option (List Stmt) → Check Unit
  | some body => inBlock (stmts b inLoop body)
  | none => return

def code (b : Body) (inLoop : Bool) : Task → Check Unit
  | .block body | .pass body => stmts b inLoop body
  | .statement s => stmt b inLoop s
  | .branches choices last => do
    branches b inLoop choices
    lastBlock b inLoop last
  | .value e => condition b e
  | _ => return

inductive Turns (b : Body) : Spot → Turn → Spot → Prop where
  | first {inLoop s rest c} :
    Turns b ⟨inLoop, .block (s :: rest), c⟩ .first ⟨inLoop, .statement s, c⟩
  | next {inLoop s rest c c'} :
    b.stmt inLoop s c = .ok ((), c') →
    Turns b ⟨inLoop, .block (s :: rest), c⟩ .next ⟨inLoop, .block rest, c'⟩
  | loop {inLoop position body c} :
    Turns b ⟨inLoop, .statement (.loop position body), c⟩ .loop
      ⟨true, .pass body, { c with scopes := c.scopes.push }⟩
  | pass {inLoop body c} : Turns b ⟨inLoop, .pass body, c⟩ .pass ⟨inLoop, .block body, c⟩
  | choose {inLoop position branch more last c} :
    Turns b ⟨inLoop, .statement (.choose position branch more last), c⟩ .choose
      ⟨inLoop, .branches (branch :: more) last, c⟩
  | condition {inLoop branch more last c} :
    Turns b ⟨inLoop, .branches (branch :: more) last, c⟩ .condition
      ⟨inLoop, .value branch.condition, c⟩
  | chosen {inLoop branch more last c c'} :
    b.condition branch.condition c = .ok ((), c') →
    Turns b ⟨inLoop, .branches (branch :: more) last, c⟩ .chosen
      ⟨inLoop, .block branch.body, { c' with scopes := c'.scopes.push }⟩
  | others {inLoop branch more last c c' c''} :
    b.condition branch.condition c = .ok ((), c') →
    inBlock (b.stmts inLoop branch.body) c' = .ok ((), c'') →
    Turns b ⟨inLoop, .branches (branch :: more) last, c⟩ .others ⟨inLoop, .branches more last, c''⟩
  | otherwise {inLoop body c} :
    Turns b ⟨inLoop, .branches [] (some body), c⟩ .otherwise
      ⟨inLoop, .block body, { c with scopes := c.scopes.push }⟩

variable {b : Body} {x y : Spot} {t : Turn}

theorem Turns.task (h : b.Turns x t y) : x.task.turn? t = some y.task := by
  cases h <;> rfl

theorem code_choose (b : Body) (inLoop : Bool) (position : Position) (branch : Branch Stmt)
    (more : List (Branch Stmt)) (last : Option (List Stmt)) :
    b.code inLoop (.statement (.choose position branch more last)) =
      b.code inLoop (.branches (branch :: more) last) := by
  obtain ⟨test, body⟩ := branch
  cases last <;> rw [code, code, stmt, branches] <;> simp only [bind_assoc] <;> rfl

def Passes (b : Body) (x : Spot) : Prop := ∃ c', b.code x.inLoop x.task x.context = .ok ((), c')

theorem Passes.turn {task : Task} (h : b.Passes x) (turn : x.task.turn? t = some task) :
    ∃ y, b.Turns x t y ∧ y.task = task ∧ b.Passes y := by
  obtain ⟨inLoop, before, c⟩ := x
  obtain ⟨c', ran⟩ := h
  dsimp only at turn ran
  unfold Task.turn? at turn
  split at turn <;> cases turn
  · rw [code, stmts] at ran
    obtain ⟨_, c1, first, _⟩ := ran_bind ran
    exact ⟨_, .first, rfl, c1, first⟩
  · rw [code, stmts] at ran
    obtain ⟨_, c1, first, rest⟩ := ran_bind ran
    exact ⟨_, .next first, rfl, c', rest⟩
  · rw [code, stmt] at ran
    obtain ⟨inner, body⟩ := ran_inBlock ran
    exact ⟨_, .loop, rfl, inner, body⟩
  · exact ⟨_, .pass, rfl, c', ran⟩
  · rename_i branch more last
    rw [code_choose] at ran
    exact ⟨_, .choose, rfl, c', ran⟩
  · rename_i branch more last
    obtain ⟨test, body⟩ := branch
    rw [code, branches] at ran
    obtain ⟨_, c1, all, _⟩ := ran_bind ran
    obtain ⟨_, c2, tested, _⟩ := ran_bind all
    exact ⟨_, .condition, rfl, c2, tested⟩
  · rename_i branch more last
    obtain ⟨test, body⟩ := branch
    rw [code, branches] at ran
    obtain ⟨_, c1, all, _⟩ := ran_bind ran
    obtain ⟨_, c2, tested, all⟩ := ran_bind all
    obtain ⟨_, c3, block, _⟩ := ran_bind all
    obtain ⟨inner, body⟩ := ran_inBlock block
    exact ⟨_, .chosen tested, rfl, inner, body⟩
  · rename_i branch more last
    obtain ⟨test, body⟩ := branch
    rw [code, branches] at ran
    obtain ⟨_, c1, all, otherwise⟩ := ran_bind ran
    obtain ⟨_, c2, tested, all⟩ := ran_bind all
    obtain ⟨_, c3, block, rest⟩ := ran_bind all
    refine ⟨_, .others tested block, rfl, c', ?_⟩
    change (b.branches inLoop more c3 >>= fun pair => b.lastBlock inLoop last pair.2) = _
    rw [rest]
    exact otherwise
  · rename_i body
    rw [code, branches] at ran
    obtain ⟨inner, ran⟩ := ran_inBlock ran
    exact ⟨_, .otherwise, rfl, inner, ran⟩

theorem stmt_scopes {f : Function} {g : Globals} {inLoop : Bool} {s : Stmt}
    (plain : (Task.statement s).Plain) (passed : stmt ⟨g, f⟩ inLoop s c = .ok ((), c')) :
    c'.scopes = s.declared g c.scopes ∧
      ∀ name, s.name? = some name → ∃ b, c.scopes.define? name b = some c'.scopes := by
  -- What is noted later cannot matter here, so the table may be that of this moment.
  have typed : s.Typed ⟨g, c'.types⟩ f.returns inLoop c.scopes c'.scopes :=
    (stmt_yields ⟨g, c'.types⟩ f s plain.distinct plain.written inLoop c () c' passed).2.fact
      fun _ _ => rfl
  refine ⟨typed.declared.symm, fun name declares => ?_⟩
  generalize c'.scopes = names' at typed ⊢
  cases typed with
  | declare _ _ _ _ defined | define _ _ _ _ _ defined =>
    cases declares
    exact ⟨_, defined⟩
  | _ => cases declares

theorem Turns.scopes {f : Function} {g : Globals} (plain : x.task.Plain)
    (h : Turns ⟨g, f⟩ x t y) :
    y.context.scopes = t.scopes (fun s names => s.declared g names) x.task x.context.scopes := by
  cases h with
  | next passed => exact (stmt_scopes (plain.turn (t := .first) rfl) passed).1
  | chosen tested =>
    have test_plain := plain.turn (t := .condition) rfl
    have same := condition_yields (p := ⟨g, ∅⟩) (f := f) _ test_plain.distinct () _ tested
    exact congrArg Scopes.push same.1
  | @others inLoop branch more last c c1 c2 tested block =>
    have test_plain := plain.turn (t := .condition) rfl
    have body_plain := plain.turn (t := .chosen) rfl
    have same := condition_yields (p := ⟨g, ∅⟩) (f := f) _ test_plain.distinct () _ tested
    have body := scoped_yields (stmts_yields ⟨g, ∅⟩ f branch.body body_plain.distinct
      body_plain.written inLoop { c1 with scopes := c1.scopes.push })
    exact (body () c2 block).1.trans same.1
  | _ => rfl

end Body
end Check

namespace Program

/-- While a source text is compiled the checker comes to the body of a function, after the structs,
    the heads of all functions, the bodies of the functions before and the parameters. -/
inductive Opens (source : String) (p : Program) (f : Function) : Spot → Prop where
  | body {g structs c earlier later types start} :
    Globals.parse source = .ok g →
    (g.structs.mapM (Struct.resolve g)).run ⟨∅, Scopes.empty⟩ = .ok (structs, c) →
    g.functions.mapM (Function.resolve g) = .ok (earlier ++ f :: later) →
    p.globals = { g with structs, functions := earlier ++ f :: later } →
    earlier.foldlM (fun types f =>
      (Check.functionBody p.globals f types).mapError (Error.within ⟨f.name, f.position⟩)) c.types =
        .ok types →
    Check.params f.params ⟨types, Scopes.empty⟩ = .ok ((), start) →
    Opens source p f ⟨false, .block f.body, start⟩

inductive Checks (source : String) (p : Program) (f : Function) : Way → Spot → Prop where
  | body {x} : Opens source p f x → Checks source p f [] x
  | turn {way x t y} :
    Checks source p f way x →
    Check.Body.Turns ⟨p.globals, f⟩ x t y →
    Checks source p f (t :: way) y

inductive Declared (source : String) (p : Program) (f : Function) : Origin → Binding → Prop where
  | parameter {number param} :
    f.params[number]? = some param →
    Declared source p f (.parameter number) (Scopes.ofParam param)
  | declaration {way x y name b} :
    Checks source p f way x →
    Check.Body.Turns ⟨p.globals, f⟩ x .next y →
    x.context.scopes.define? name b = some y.context.scopes →
    Declared source p f (.declaration way) b

variable {source : String} {p : Program} {f : Function} {x y : Spot} {way : Way} {t : Turn}

theorem Opens.plain (h : Opens source p f x) : x.task.Plain := by
  cases h with
  | @body g structs c earlier later types start parsed _ heads _ _ _ =>
    obtain ⟨count, written⟩ := Globals.parse_written parsed
    obtain ⟨f0, member, resolved⟩ := exists_of_forall₂ (forall₂_of_mapM heads) f (by simp)
    have same := (Function.resolve_comes (written.functions f0 member) resolved).body
    have distinct := written.nodup
    refine ⟨?_, ?_⟩
    · rw [Task.ids, same]
      exact (List.nodup_flatMap.mp distinct.of_append_right).1 f0 member
    · rw [Task.types, same]
      exact (written.functions f0 member).body

theorem Checks.plain (h : Checks source p f way x) : x.task.Plain := by
  induction h with
  | body opens => exact opens.plain
  | turn _ turns ih => exact ih.turn turns.task

theorem Checks.code (h : Checks source p f way x) : f.codeAt way = some x.task := by
  induction h with
  | body opens =>
    cases opens
    rfl
  | turn _ turns ih =>
    rw [Function.codeAt, ih, Option.bind_some]
    exact turns.task

theorem Opens.scopes (h : Opens source p f x) : x.context.scopes = Scopes.ofParams f.params := by
  cases h with
  | body _ _ _ _ _ params => exact (Check.params_yields f.params () _ params).2

theorem declared_params (source : String) (p : Program) (f : Function) :
    Scopes.Rel (Declared source p f) (f.scopesAt []) (Scopes.ofParams f.params) := by
  have pairs : f.params.zip (f.params.map Scopes.ofParam) =
      f.params.map fun param => (param, Scopes.ofParam param) :=
    (List.map_prod_left_eq_zip ..).symm
  have begun := f.scopesAt_nil (R := Declared source p f) (f.params.map Scopes.ofParam)
    (List.length_map _) fun number b given => by
      rw [List.getElem?_map, Option.map_eq_some_iff] at given
      obtain ⟨param, found, rfl⟩ := given
      exact .parameter found
  rw [pairs, List.foldl_map] at begun
  exact begun

theorem Checks.scopes (h : Checks source p f way x) :
    Scopes.Rel (Declared source p f) (f.scopesAt way) x.context.scopes := by
  induction h with
  | body opens =>
    rw [opens.scopes]
    exact declared_params source p f
  | @turn way x t y checks turns ih =>
    rw [turns.scopes checks.plain]
    unfold Function.scopesAt
    rw [checks.code]
    refine Turn.rel ih fun s rest past block => ?_
    subst past
    cases turns with
    | next passed =>
      cases block
      obtain ⟨same, declares⟩ := Check.Body.stmt_scopes (checks.plain.turn (t := .first) rfl) passed
      unfold Stmt.introduce
      cases declared : s.name? with
      | none =>
        rw [Stmt.declared_of_name? declared]
        exact ih
      | some name =>
        obtain ⟨b, defined⟩ := declares name declared
        rw [← same]
        have both := ih.define? (.declaration checks (.next passed) defined) name
        rw [defined] at both
        dsimp only
        generalize (f.scopesAt way).define? name (.declaration way) = found at both ⊢
        cases both with
        | some named => exact named

theorem opens_of_compile (compiled : compile source = .ok p) (member : f ∈ p.globals.functions) :
    ∃ x, Opens source p f x ∧ Check.Body.Passes ⟨p.globals, f⟩ x := by
  obtain ⟨g, parsed, checked⟩ := exists_of_bind compiled
  obtain ⟨⟨structs, c⟩, resolved, checked⟩ := exists_of_bind checked
  dsimp only at checked
  split at checked
  · cases checked
  · obtain ⟨functions, heads, checked⟩ := exists_of_bind checked
    obtain ⟨types, bodies, checked⟩ := exists_of_bind checked
    cases checked
    obtain ⟨earlier, later, rfl⟩ := List.append_of_mem member
    rw [List.foldlM_append] at bodies
    obtain ⟨before, done, bodies⟩ := exists_of_bind bodies
    rw [List.foldlM_cons] at bodies
    obtain ⟨types1, body, _⟩ := exists_of_bind bodies
    obtain ⟨⟨_, c'⟩, ran, _⟩ := exists_of_bind (ok_of_mapError body)
    obtain ⟨_, start, params, ran⟩ := Check.ran_bind ran
    exact ⟨_, .body parsed resolved heads rfl done params, c', ran⟩

theorem exists_checks (compiled : compile source = .ok p) (member : f ∈ p.globals.functions)
    {task : Task} (code : f.codeAt way = some task) :
    ∃ x, Checks source p f way x ∧ x.task = task ∧ Check.Body.Passes ⟨p.globals, f⟩ x := by
  induction way generalizing task with
  | nil =>
    cases code
    obtain ⟨x, opens, passes⟩ := opens_of_compile compiled member
    refine ⟨x, .body opens, ?_, passes⟩
    cases opens
    rfl
  | cons t way ih =>
    obtain ⟨before, there, turn⟩ := Option.bind_eq_some_iff.mp code
    obtain ⟨x, checks, rfl, passes⟩ := ih there
    obtain ⟨y, turns, same, passes'⟩ := passes.turn turn
    exact ⟨y, .turn checks turns, same, passes'⟩

end Program
end LoopLang
