import LoopLang.Proofs.Execution.Reached

namespace LoopLang

namespace Task

/-- The rules for what is to be done, with the names in scope and the types of the cells. -/
def Obeys (p : Program) (d : CellTypes) (names : Scopes Binding) : Task → Prop
  | value e => ∃ type, e.Typed p names type
  | values args => ∃ params, Expr.Match p names params args ∧
      ∀ param ∈ params, param.byReference = false
  | path steps => ∃ type part inString, Step.Lead p names type steps part inString
  | fields s before given => s.Typed p ∧ Value.FieldsOf p.globals s before ∧
      ∃ earlier, Field.Fill p names s earlier given
  | method _ root steps name _ args => ∃ b receiver inString k, names.get? root = some b ∧
      Step.Lead p names b.type steps receiver inString ∧ Method.ofTy? receiver name = some k ∧
      Expr.Match p names (k.signatureOn receiver).params args
  | call callee args _ => ∃ s, p.globals.signature? callee = some s ∧
      Expr.Match p names s.params args
  | bind params args => (∀ param ∈ params, param.type.Known p.globals) ∧
      Expr.Match p names params args
  | invoke f cells _ => f.Typed p ∧ Given d f.params cells
  | block body => ∃ returns inLoop names', Stmt.BlockTyped p returns inLoop names body names'
  | statement s => ∃ returns inLoop names', s.Typed p returns inLoop names names'
  | branches choices otherwise => ∃ returns inLoop,
      Stmt.BranchesTyped p returns inLoop names choices otherwise
  | pass body => ∃ returns outer inner, names = Scopes.push outer ∧
      Stmt.BlockTyped p returns true names body inner

end Task

namespace Stmt

theorem Typed.declared {p : Program} {returns : Option Ty} {inLoop : Bool}
    {names names' : Scopes Binding} {s : Stmt} (h : s.Typed p returns inLoop names names') :
    s.declared p.globals names = names' := by
  cases h with
  | declare resolved _ _ _ defined | define resolved _ _ _ _ defined =>
    simp only [Stmt.declared, Stmt.bind, resolved, defined, Option.getD_some]
  | _ => rfl

end Stmt

namespace Program

variable {p : Program} {n : Nat} {m m' : Machine} {d : CellTypes} {names : Scopes Binding}
  {task task' : Task}

def Fine (p : Program) (d : CellTypes) (names : Scopes Binding) (task : Task) (m : Machine) :
    Prop :=
  Settled p.globals d m ∧ Named p.globals d names m.scopes ∧ task.Obeys p d names

theorem Fine.now (begun : p.Fine d names task m) (obeys : task'.Obeys p d names) :
    ∃ d', d <+: d' ∧ p.Fine d' names task' m := ⟨d, List.prefix_rfl, begun.1, begun.2.1, obeys⟩

section Parts

variable (typed : p.Typed) (begun : p.Fine d names task m)
include typed begun

theorem Fine.after_value {e : Expr} {type : Ty} {v : Value} (e_typed : e.Typed p names type)
    (ran : p.eval n e m = .ok v m') (obeys : ∀ d', task'.Obeys p d' names) :
    ∃ d', d <+: d' ∧ p.Fine d' names task' m' := by
  obtain ⟨d', grown, stored, named, _⟩ :=
    ((p.sound typed n).eval e_typed begun.1 begun.2.1).ok ran
  exact ⟨d', grown, stored, named, obeys d'⟩

theorem InExpr.fine (h : p.InExpr n m task task' m') :
    ∃ d', d <+: d' ∧ p.Fine d' names task' m' := by
  have stored := begun.1
  have named := begun.2.1
  have obeys := begun.2.2
  cases h with
  | place bound =>
    obtain ⟨type, e_typed⟩ := obeys
    cases e_typed with
    | place _ lead _ => exact begun.now ⟨_, _, _, lead⟩
    | entry free _ _ _ =>
      rw [Scopes.contains, named.free free] at bound
      cases bound
  | method =>
    obtain ⟨type, e_typed⟩ := obeys
    cases e_typed with
    | method bound lead lookup _ fit _ _ => exact begun.now ⟨_, _, _, _, bound, lead, lookup, fit⟩
  | call =>
    obtain ⟨type, e_typed⟩ := obeys
    cases e_typed with
    | call lookup fit _ _ => exact begun.now ⟨_, lookup, fit⟩
  | mathLeft =>
    obtain ⟨type, e_typed⟩ := obeys
    cases e_typed with
    | folded left _ _ _ _ _ _ | math left _ _ _ _ => exact begun.now ⟨_, left⟩
  | mathRight ran =>
    obtain ⟨type, e_typed⟩ := obeys
    cases e_typed with
    | folded left right _ _ _ _ _ | math left right _ _ _ =>
      exact begun.after_value typed left ran fun _ => ⟨_, right⟩
  | compareLeft =>
    obtain ⟨type, e_typed⟩ := obeys
    cases e_typed with
    | compare left _ _ _ => exact begun.now ⟨_, left⟩
  | compareRight ran =>
    obtain ⟨type, e_typed⟩ := obeys
    cases e_typed with
    | compare left right _ _ =>
      exact begun.after_value typed left ran fun _ => ⟨_, right⟩
  | operand =>
    obtain ⟨type, e_typed⟩ := obeys
    cases e_typed with
    | unary operand _ _ => exact begun.now ⟨_, operand⟩
  | build lookup =>
    obtain ⟨type, e_typed⟩ := obeys
    cases e_typed with
    | build found fill _ _ =>
      rw [lookup] at found
      cases found
      exact begun.now ⟨Struct.typed_of_struct? typed lookup, .empty, _, fill⟩
  | first =>
    obtain ⟨params, fit, byValue⟩ := obeys
    cases fit with
    | value _ arg_typed _ _ => exact begun.now ⟨_, arg_typed⟩
    | @reference param _ _ _ _ shared _ _ =>
      rw [byValue param List.mem_cons_self] at shared
      cases shared
  | others ran =>
    obtain ⟨params, fit, byValue⟩ := obeys
    cases fit with
    | value _ arg_typed _ rest =>
      exact begun.after_value typed arg_typed ran fun _ => ⟨_, rest, fun param member =>
        byValue param (.tail _ member)⟩
    | @reference param _ _ _ _ shared _ _ =>
      rw [byValue param List.mem_cons_self] at shared
      cases shared
  | index =>
    obtain ⟨type, part, inString, lead⟩ := obeys
    cases lead with
    | item index_typed _ _ | character index_typed _ => exact begun.now ⟨_, index_typed⟩
  | indexed ran _ =>
    obtain ⟨type, part, inString, lead⟩ := obeys
    cases lead with
    | item index_typed _ rest =>
      exact begun.after_value typed index_typed ran fun _ => ⟨_, _, _, rest⟩
    | character index_typed _ =>
      exact begun.after_value typed index_typed ran fun _ => ⟨.bool, _, _, .here⟩
  | member =>
    obtain ⟨type, part, inString, lead⟩ := obeys
    cases lead with
    | member _ _ rest => exact begun.now ⟨_, _, _, rest⟩
  | field found =>
    obtain ⟨s_typed, before_typed, earlier, fill⟩ := obeys
    cases fill with
    | cons _ _ value_typed _ _ => exact begun.now ⟨_, value_typed⟩
  | moreFields found ran =>
    obtain ⟨s_typed, before_typed, earlier, fill⟩ := obeys
    cases fill with
    | cons declared _ value_typed accepted rest =>
      rw [found] at declared
      cases declared
      obtain ⟨d', grown, stored', named', v_typed⟩ :=
        ((p.sound typed n).eval value_typed stored named).ok ran
      have known := s_typed.known _ (List.mem_of_find?_eq_some found)
      exact ⟨d', grown, stored', named', s_typed,
        before_typed.insert found (v_typed.coerce known.specific accepted), _, rest⟩

theorem InCall.fine (h : p.InCall n m task task' m') :
    ∃ d', d <+: d' ∧ p.Fine d' names task' m' := by
  have stored := begun.1
  have named := begun.2.1
  have obeys := begun.2.2
  cases h with
  | methodPath _ =>
    obtain ⟨b, receiver, inString, k, bound, lead, lookup, fit⟩ := obeys
    exact begun.now ⟨_, _, _, lead⟩
  | methodArguments _ ran =>
    obtain ⟨b, receiver, inString, k, bound, lead, lookup, fit⟩ := obeys
    obtain ⟨d', grown, stored', named', _⟩ := ((p.sound typed n).evalSteps lead stored named).ok ran
    exact ⟨d', grown, stored', named', _, fit, k.byValue_signatureOn⟩
  | arguments found =>
    obtain ⟨s, lookup, fit⟩ := obeys
    rw [Globals.signature?, found] at lookup
    cases lookup
    exact begun.now ⟨(typed.functions _ (List.mem_of_find?_eq_some found)).params, fit⟩
  | invoke found ran =>
    obtain ⟨s, lookup, fit⟩ := obeys
    rw [Globals.signature?, found] at lookup
    cases lookup
    have f_typed := typed.functions _ (List.mem_of_find?_eq_some found)
    obtain ⟨d', grown, stored', named', given⟩ :=
      ((p.sound typed n).bindArguments fit f_typed.params stored named).ok ran
    exact ⟨d', grown, stored', named', f_typed, given⟩
  | @builtin callee args position b missing found =>
    obtain ⟨s, lookup, fit⟩ := obeys
    rw [Globals.signature?, missing, found] at lookup
    cases lookup
    exact begun.now ⟨_, fit, b.byValue_signature⟩
  | argument byValue =>
    obtain ⟨known, fit⟩ := obeys
    cases fit with
    | value _ arg_typed _ _ => exact begun.now ⟨_, arg_typed⟩
    | reference shared _ _ =>
      rw [byValue] at shared
      cases shared
  | afterValue byValue ran new =>
    obtain ⟨known, fit⟩ := obeys
    obtain ⟨known_first, known_rest⟩ := List.forall_mem_cons.mp known
    cases fit with
    | value _ arg_typed accepted rest =>
      obtain ⟨d1, grown1, stored1, named1, v_typed⟩ :=
        ((p.sound typed n).eval arg_typed stored named).ok ran
      obtain ⟨d2, grown2, stored2, _, same⟩ :=
        (Run.Safe.newCell stored1 (v_typed.coerce known_first.specific accepted)).ok new
      have named2 := named1.mono grown2
      rw [← same] at named2
      exact ⟨d2, grown1.trans grown2, stored2, named2, known_rest, rest⟩
    | reference shared _ _ =>
      rw [byValue] at shared
      cases shared
  | afterReference shared _ _ =>
    obtain ⟨known, fit⟩ := obeys
    cases fit with
    | value byValue _ _ _ =>
      rw [shared] at byValue
      cases byValue
    | reference _ _ rest => exact begun.now ⟨(List.forall_mem_cons.mp known).2, rest⟩

theorem InStmt.fine (h : p.InStmt n m task task' m') :
    ∃ d', d <+: d' ∧ p.Fine d' names task' m' := by
  have stored := begun.1
  have named := begun.2.1
  have obeys := begun.2.2
  cases h with
  | statement =>
    obtain ⟨returns, inLoop, names', body⟩ := obeys
    cases body with
    | cons first _ => exact begun.now ⟨_, _, _, first⟩
  | defined _ =>
    obtain ⟨returns, inLoop, names', s_typed⟩ := obeys
    cases s_typed with
    | define _ _ value _ _ _ => exact begun.now ⟨_, value⟩
  | assigned =>
    obtain ⟨returns, inLoop, names', s_typed⟩ := obeys
    cases s_typed with
    | assign _ _ _ value _ _ _ => exact begun.now ⟨_, value⟩
  | assignedPlace ran _ _ =>
    obtain ⟨returns, inLoop, names', s_typed⟩ := obeys
    cases s_typed with
    | assign _ _ _ value lead _ _ =>
      exact begun.after_value typed value ran fun _ => ⟨_, _, _, lead⟩
  | choose =>
    obtain ⟨returns, inLoop, names', s_typed⟩ := obeys
    cases s_typed with
    | choose branches => exact begun.now ⟨_, _, branches⟩
  | returned =>
    obtain ⟨returns, inLoop, names', s_typed⟩ := obeys
    cases s_typed with
    | returnValue _ value _ => exact begun.now ⟨_, value⟩
  | callStatement =>
    obtain ⟨returns, inLoop, names', s_typed⟩ := obeys
    cases s_typed with
    | call lookup fit => exact begun.now ⟨_, lookup, fit⟩
  | placeStatement =>
    obtain ⟨returns, inLoop, names', s_typed⟩ := obeys
    cases s_typed
  | methodStatement =>
    obtain ⟨returns, inLoop, names', s_typed⟩ := obeys
    cases s_typed with
    | method bound lead lookup _ fit => exact begun.now ⟨_, _, _, _, bound, lead, lookup, fit⟩
  | condition =>
    obtain ⟨returns, inLoop, branches⟩ := obeys
    cases branches with
    | cons condition _ _ => exact begun.now ⟨_, condition⟩
  | nextBranch ran _ =>
    obtain ⟨returns, inLoop, branches⟩ := obeys
    cases branches with
    | cons condition _ others =>
      exact begun.after_value typed condition ran fun _ => ⟨_, _, others⟩
  | passBlock =>
    obtain ⟨returns, outer, inner, rfl, body⟩ := obeys
    exact begun.now ⟨_, _, _, body⟩
  | nextPass ran _ =>
    obtain ⟨returns, outer, inner, rfl, body⟩ := obeys
    obtain ⟨d', grown, stored', ⟨now, same, _, named'⟩, _⟩ :=
      ((p.sound typed n).execBlock body stored named).ok ran
    have cleared : now.clear = outer.push := by rw [Scopes.clear, same]; rfl
    have again := Scopes.Rel.clear named'
    rw [cleared] at again
    exact ⟨d', grown, stored', again, _, _, _, rfl, body⟩

theorem part_fine (h : p.InExpr n m task task' m' ∨ p.InCall n m task task' m' ∨
    p.InStmt n m task task' m') : ∃ d', d <+: d' ∧ p.Fine d' names task' m' := by
  rcases h with inExpr | inCall | inStmt
  · exact inExpr.fine typed begun
  · exact inCall.fine typed begun
  · exact inStmt.fine typed begun

theorem InFrame.fine (h : p.InFrame n m task task' m') : ∃ d', d <+: d' ∧
    p.Fine d' names.push task' { m' with scopes := m'.scopes.push } := by
  obtain ⟨stored, named, obeys⟩ := begun
  cases h with
  | loop =>
    obtain ⟨returns, inLoop, names', s_typed⟩ := obeys
    cases s_typed with
    | loop body => exact ⟨d, List.prefix_rfl, stored, named.push, _, _, _, rfl, body⟩
  | branch ran _ =>
    obtain ⟨returns, inLoop, branches⟩ := obeys
    cases branches with
    | cons condition body _ =>
      obtain ⟨d', grown, stored', named', _⟩ :=
        ((p.sound typed n).eval condition stored named).ok ran
      exact ⟨d', grown, stored', named'.push, _, _, _, body⟩
  | otherwise =>
    obtain ⟨returns, inLoop, branches⟩ := obeys
    cases branches with
    | otherwise body => exact ⟨d, List.prefix_rfl, stored, named.push, _, _, _, body⟩

theorem Fine.final : ∃ d', d <+: d' ∧ Settled p.globals d' (task.final p n m) := by
  obtain ⟨stored, named, obeys⟩ := begun
  have sound := p.sound typed n
  cases task with
  | value e =>
    obtain ⟨type, e_typed⟩ := obeys
    exact (sound.eval e_typed stored named).final
  | values args =>
    obtain ⟨params, fit, byValue⟩ := obeys
    exact (sound.evalList fit byValue stored named).final
  | path steps =>
    obtain ⟨type, part, inString, lead⟩ := obeys
    exact (sound.evalSteps lead stored named).final
  | fields s before given =>
    obtain ⟨s_typed, before_typed, earlier, fill⟩ := obeys
    exact (sound.evalFields s_typed fill before_typed stored named).final
  | method position root steps name nameAt args =>
    obtain ⟨b, receiver, inString, k, bound, lead, lookup, fit⟩ := obeys
    exact (sound.evalMethod bound lead lookup fit stored named).final
  | call callee args position =>
    obtain ⟨s, lookup, fit⟩ := obeys
    exact (sound.evalCall lookup fit stored named).final
  | bind params args =>
    obtain ⟨known, fit⟩ := obeys
    exact (sound.bindArguments fit known stored named).final
  | invoke f cells position =>
    obtain ⟨f_typed, given⟩ := obeys
    exact (sound.invoke f_typed given stored).final
  | block body =>
    obtain ⟨returns, inLoop, names', body_typed⟩ := obeys
    exact (sound.execBlock body_typed stored named).final
  | statement s =>
    obtain ⟨returns, inLoop, names', s_typed⟩ := obeys
    exact (sound.exec s_typed stored named).final
  | branches choices otherwise =>
    obtain ⟨returns, inLoop, choices_typed⟩ := obeys
    exact (sound.execBranches choices_typed stored named).final
  | pass body =>
    obtain ⟨returns, outer, inner, rfl, body_typed⟩ := obeys
    exact (sound.repeatBlock body_typed stored named).final

end Parts

theorem Reached.fine (typed : p.Typed) {pt : Point} (h : p.Reached pt) :
    ∃ d, p.Fine d pt.names pt.task pt.machine ∧
      ∀ a ∈ pt.callers, Named p.globals d a.names a.scopes := by
  -- The types of cells are only added to, so the names of the callers keep what they denote.
  induction h with
  | @main fuel f m resting found none_taken =>
    obtain ⟨d, stored⟩ := resting.stored typed
    have f_typed := typed.functions f (List.mem_of_find?_eq_some found)
    refine ⟨d, ⟨stored, ?_, f_typed, ?_⟩, nofun⟩
    · rw [resting.idle.1]
      exact .empty
    · rw [none_taken]
      exact .nil
  | part _ begins ih =>
    obtain ⟨d, fine, waiting⟩ := ih
    obtain ⟨d', grown, fine'⟩ := part_fine typed fine begins
    exact ⟨d', fine', fun a member => (waiting a member).mono grown⟩
  | frame _ begins ih =>
    obtain ⟨d, fine, waiting⟩ := ih
    obtain ⟨d', grown, fine'⟩ := begins.fine typed fine
    exact ⟨d', fine', fun a member => (waiting a member).mono grown⟩
  | rest _ ran ih =>
    obtain ⟨d, ⟨stored, named, returns, inLoop, names', body⟩, waiting⟩ := ih
    cases body with
    | cons first others =>
      obtain ⟨d', grown, stored', ⟨now, _, normal, named'⟩, _⟩ :=
        ((p.sound typed _).exec first stored named).ok ran
      rw [normal rfl, ← first.declared] at named'
      rw [← first.declared] at others
      exact ⟨d', ⟨stored', named', _, _, _, others⟩, fun a member =>
        (waiting a member).mono grown⟩
  | body _ _ ih =>
    obtain ⟨d, ⟨stored, named, f_typed, given⟩, waiting⟩ := ih
    obtain ⟨names', body_typed⟩ := f_typed.body
    refine ⟨d, ⟨stored, .ofArguments given f_typed.params, _, _, _, body_typed⟩, ?_⟩
    exact List.forall_mem_cons.mpr ⟨named, waiting⟩

end Program

namespace Activation

/-- Every variable of the function that has begun has a cell that holds a value which is well
    formed at the variable's declared type. -/
def Holds (g : Globals) (cells : Array Value) (a : Activation) : Prop :=
  Scopes.Rel (fun b (cell : CellId) => ∃ v : Value, cells[cell]? = some v ∧ v.HasType g b.type)
    a.names a.scopes

theorem holds {g : Globals} {d d' : CellTypes} {cells : Array Value} {a : Activation}
    (grown : d <+: d') (stored : Stored g d' cells) (named : Named g d a.names a.scopes) :
    a.Holds g cells :=
  Scopes.Rel.mono named fun _ cell denotes =>
    stored.typed cell _ (getElem?_of_grown grown denotes.1)

end Activation

namespace Point

/-- The function that runs and those that wait for it. -/
def activations (pt : Point) : List Activation := ⟨pt.names, pt.machine.scopes⟩ :: pt.callers

end Point

theorem Expr.Typed.noted {p : Program} {names : Scopes Binding} {e : Expr} {type : Ty}
    (h : e.Typed p names type) : p.types[e.id]? = some type := by
  cases h <;> assumption

namespace Program

variable {p : Program} {source : String} {pt : Point}

/-- Wherever a run of a compiled program has come to, each variable holds a value that is well
    formed at its declared type, then and after what is done next. An expression that has a value
    has one that is well formed at the type that is noted for it. -/
theorem holds_of_reached (compiled : compile source = .ok p) (reached : p.Reached pt) :
    (∀ a ∈ pt.activations, a.Holds p.globals pt.machine.cells ∧
      a.Holds p.globals (pt.task.final p pt.fuel pt.machine).cells) ∧
    ∀ e v m', pt.task = .value e → p.eval pt.fuel e pt.machine = .ok v m' →
      ∃ type, p.types[e.id]? = some type ∧ v.HasType p.globals type := by
  have typed := typed_of_compile compiled
  obtain ⟨d, fine, waiting⟩ := reached.fine typed
  obtain ⟨d', grown, stored'⟩ := fine.final (n := pt.fuel) typed
  refine ⟨fun a member => ?_, fun e v m' evaluates ran => ?_⟩
  · have named : Named p.globals d a.names a.scopes := by
      rcases List.mem_cons.mp member with rfl | caller
      · exact fine.2.1
      · exact waiting a caller
    exact ⟨a.holds List.prefix_rfl fine.1.1 named, a.holds grown stored'.1 named⟩
  · obtain ⟨stored, named, obeys⟩ := fine
    rw [evaluates] at obeys
    obtain ⟨type, e_typed⟩ := obeys
    obtain ⟨_, _, _, _, v_typed⟩ := ((p.sound typed pt.fuel).eval e_typed stored named).ok ran
    exact ⟨type, e_typed.noted, v_typed⟩

/-- Whether a function that is called from `main` begins with an assignment of 5, which is found
    with `n` and `by` in scope. -/
def assignsFive (p : Program) (f : Function) (cells : List CellId) (m : Machine) : Bool :=
  match f.body with
  | .assign _ _ _ _ value :: _ =>
    match p.eval 54 value
      { m with scopes := Scopes.ofArguments f.params cells, depth := m.depth + 1 } with
    | .ok (.int 5 .u8) _ => m.depth = 1 ∧ (Scopes.ofArguments f.params cells).get? "n" = some 0 ∧
      (Scopes.ofArguments f.params cells).get? "by" = some 1
    | _ => false
  | _ => false

set_option maxRecDepth 100000 in
/-- The sum of the parameters, of which one names a cell of the caller. -/
theorem holds_in_growing : ∃ p pt e m', compile growing = .ok p ∧ p.Reached pt ∧
    pt.machine.scopes.get? "n" = some 0 ∧ pt.machine.scopes.get? "by" = some 1 ∧
    pt.task = .value e ∧ p.eval pt.fuel e pt.machine = .ok (.int 5 .u8) m' ∧
    (∀ a ∈ pt.activations, a.Holds p.globals pt.machine.cells ∧
      a.Holds p.globals (pt.task.final p pt.fuel pt.machine).cells) ∧
    ∃ type, p.types[e.id]? = some type ∧ (Value.int 5 .u8).HasType p.globals type := by
  have calls : (compile growing).toOption.any fun p =>
      p.callsWhere Machine.initial p.assignsFive := by decide +kernel
  obtain ⟨p, compiled, calls⟩ := exists_of_any calls
  obtain ⟨_, _, _, node, _, _, _, f, cells, m, names, callers, _, _, _, reached, five⟩ :=
    reached_of_callsWhere .initial calls
  unfold assignsFive at five
  split at five
  · rename_i position target root steps value rest body
    split at five
    · rename_i m' ran
      obtain ⟨outermost, n_bound, by_bound⟩ := of_decide_eq_true five
      have shallow : m.depth < Machine.maxDepth := by
        rw [outermost]
        decide
      have block := reached.body shallow
      rw [body] at block
      have statement := block.part (.inr (.inr .statement))
      have value_reached := statement.part (.inr (.inr .assigned))
      obtain ⟨holds, typed⟩ := holds_of_reached compiled value_reached
      exact ⟨p, _, value, m', compiled, value_reached, n_bound, by_bound, rfl, ran, holds,
        typed value _ m' rfl ran⟩
    · cases five
  · cases five

end Program
end LoopLang
