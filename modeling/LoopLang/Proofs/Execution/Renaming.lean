import LoopLang.Execution
import LoopLang.Proofs.Execution.Runs
import LoopLang.Proofs.Scopes

namespace LoopLang

/-- Cells of two machines that stand for each other. -/
abbrev CellPairs := List (CellId × CellId)

/-- No cell stands for two, cells that stand for each other hold the same value, and no cell is
    borrowed. The machines are equally deep in calls, and have printed the same lines since they
    had printed `old` and `old'`. -/
structure Shared (old old' : Array Line) (ρ : CellPairs) (m m' : Machine) : Prop where
  functional : ∀ a b c, (a, b) ∈ ρ → (a, c) ∈ ρ → b = c
  injective : ∀ a b c, (a, c) ∈ ρ → (b, c) ∈ ρ → a = b
  equal : ∀ a b, (a, b) ∈ ρ → ∃ v, m.cells[a]? = some v ∧ m'.cells[b]? = some v
  free : m.borrowed = [] ∧ m'.borrowed = []
  depth : m.depth = m'.depth
  lines : ∃ new, m.lines = old ++ new ∧ m'.lines = old' ++ new

def Linked (ρ : CellPairs) (m m' : Machine) : Prop :=
  Scopes.Rel (fun a b => (a, b) ∈ ρ) m.scopes m'.scopes

variable {old old' : Array Line} {ρ ρ' : CellPairs} {m m' : Machine} {a b : CellId}

namespace Shared

theorem load (h : Shared old old' ρ m m') (pair : (a, b) ∈ ρ) : m.load a = m'.load b := by
  obtain ⟨v, left, right⟩ := h.equal a b pair
  rw [Machine.load, Machine.load, left, right]

theorem store (h : Shared old old' ρ m m') (pair : (a, b) ∈ ρ) (v : Value) :
    Shared old old' ρ (m.store a v) (m'.store b v) := by
  refine ⟨h.functional, h.injective, fun c e other => ?_, h.free, h.depth, h.lines⟩
  obtain ⟨w, left, right⟩ := h.equal c e other
  simp only [Machine.store, Array.getElem?_setIfInBounds]
  by_cases same : a = c
  · subst same
    cases h.functional a b e pair other
    rw [if_pos rfl, if_pos rfl, if_pos (Array.getElem?_eq_some_iff.mp left).1,
      if_pos (Array.getElem?_eq_some_iff.mp right).1]
    exact ⟨v, rfl, rfl⟩
  · have different : b ≠ e := by
      intro same
      subst same
      exact same (h.injective a c b pair other)
    rw [if_neg same, if_neg different]
    exact ⟨w, left, right⟩

theorem push (h : Shared old old' ρ m m') (v : Value) :
    Shared old old' ((m.cells.size, m'.cells.size) :: ρ) { m with cells := m.cells.push v }
      { m' with cells := m'.cells.push v } := by
  have bound : ∀ a b, (a, b) ∈ ρ → a < m.cells.size ∧ b < m'.cells.size := by
    intro a b pair
    obtain ⟨_, left, right⟩ := h.equal a b pair
    exact ⟨(Array.getElem?_eq_some_iff.mp left).1, (Array.getElem?_eq_some_iff.mp right).1⟩
  refine ⟨fun a b c first second => ?_, fun a b c first second => ?_, fun a b pair => ?_,
    h.free, h.depth, h.lines⟩
  · rcases List.mem_cons.mp first with new | first <;>
      rcases List.mem_cons.mp second with new' | second
    · cases new; cases new'; rfl
    · cases new
      exact absurd (bound _ _ second).1 (Nat.lt_irrefl _)
    · cases new'
      exact absurd (bound _ _ first).1 (Nat.lt_irrefl _)
    · exact h.functional a b c first second
  · rcases List.mem_cons.mp first with new | first <;>
      rcases List.mem_cons.mp second with new' | second
    · cases new; cases new'; rfl
    · cases new
      exact absurd (bound _ _ second).2 (Nat.lt_irrefl _)
    · cases new'
      exact absurd (bound _ _ first).2 (Nat.lt_irrefl _)
    · exact h.injective a b c first second
  · rcases List.mem_cons.mp pair with new | pair
    · cases new
      exact ⟨v, Array.getElem?_push_size, Array.getElem?_push_size⟩
    · obtain ⟨w, left, right⟩ := h.equal a b pair
      obtain ⟨left_lt, right_lt⟩ := bound a b pair
      refine ⟨w, ?_, ?_⟩
      · rw [Array.getElem?_push, if_neg (Nat.ne_of_lt left_lt)]
        exact left
      · rw [Array.getElem?_push, if_neg (Nat.ne_of_lt right_lt)]
        exact right

theorem print (h : Shared old old' ρ m m') (line : Line) :
    Shared old old' ρ { m with lines := m.lines.push line }
      { m' with lines := m'.lines.push line } := by
  obtain ⟨new, left, right⟩ := h.lines
  refine ⟨h.functional, h.injective, h.equal, h.free, h.depth, new.push line, ?_, ?_⟩
  · rw [left, Array.push_append]
  · rw [right, Array.push_append]

theorem left_free (h : Shared old old' ρ m m') (cell : CellId) : cell ∉ m.borrowed := by
  rw [h.free.1]
  exact List.not_mem_nil

theorem right_free (h : Shared old old' ρ m m') (cell : CellId) : cell ∉ m'.borrowed := by
  rw [h.free.2]
  exact List.not_mem_nil

theorem withScopes (h : Shared old old' ρ m m') (s s' : Scopes CellId) :
    Shared old old' ρ { m with scopes := s } { m' with scopes := s' } :=
  ⟨h.functional, h.injective, h.equal, h.free, h.depth, h.lines⟩

theorem called (h : Shared old old' ρ m m') (s s' : Scopes CellId) {d d' : Nat} (same : d = d') :
    Shared old old' ρ { m with scopes := s, depth := d } { m' with scopes := s', depth := d' } :=
  ⟨h.functional, h.injective, h.equal, h.free, same, h.lines⟩

end Shared

namespace Linked

theorem mono (grown : ρ ⊆ ρ') (h : Linked ρ m m') : Linked ρ' m m' :=
  Scopes.Rel.mono h fun _ _ pair => grown pair

theorem get? (h : Linked ρ m m') (name : String) :
    Option.Rel (fun a b => (a, b) ∈ ρ) (m.scopes.get? name) (m'.scopes.get? name) :=
  Scopes.Rel.get? h name

theorem contains (h : Linked ρ m m') (name : String) :
    m'.scopes.contains name = m.scopes.contains name := by
  unfold Scopes.contains
  have related := h.get? name
  generalize m.scopes.get? name = x at related
  generalize m'.scopes.get? name = y at related
  cases related <;> rfl

end Linked

theorem Linked.ofArguments (params : List Param) {cells cells' : List CellId}
    (pairs : List.Forall₂ (fun a b => (a, b) ∈ ρ) cells cells') :
    Scopes.Rel (fun a b => (a, b) ∈ ρ) (Scopes.ofArguments params cells)
      (Scopes.ofArguments params cells') := by
  have entries : Frame.Rel (fun a b => (a, b) ∈ ρ)
      ((params.zip cells).map fun pair => (pair.1.name, pair.2))
      ((params.zip cells').map fun pair => (pair.1.name, pair.2)) := by
    induction pairs generalizing params with
    | nil =>
      rw [List.zip_nil_right]
      exact .nil
    | cons pair _ ih =>
      cases params with
      | nil => exact .nil
      | cons param params => exact .cons ⟨rfl, pair⟩ (ih params)
  have bound := Scopes.Rel.foldl entries .empty
  rw [List.foldl_map, List.foldl_map] at bound
  exact bound

namespace Run

/-- Two computations that do the same, each on its machine: both end with results that satisfy
    `post`, or both stop for the same reason. -/
def Alike {α : Type} (old old' : Array Line) (ρ : CellPairs) (x y : Run α) (m m' : Machine)
    (post : CellPairs → α → α → Machine → Machine → Prop) : Prop :=
  match x m, y m' with
  | .ok a n, .ok b n' => ∃ ρ', ρ ⊆ ρ' ∧ Shared old old' ρ' n n' ∧ post ρ' a b n n'
  | .error s n, .error t n' => s = t ∧ ∃ ρ', ρ ⊆ ρ' ∧ Shared old old' ρ' n n'
  | _, _ => False

def Agree {α : Type} (ρ : CellPairs) (a b : α) (m m' : Machine) : Prop := a = b ∧ Linked ρ m m'

variable {α β : Type} {P : CellPairs → α → α → Machine → Machine → Prop}
  {post : CellPairs → β → β → Machine → Machine → Prop}

theorem Alike.pure {a b : β} (shared : Shared old old' ρ m m') (h : post ρ a b m m') :
    Alike old old' ρ (pure a) (pure b) m m' post := ⟨ρ, List.Subset.refl ρ, shared, h⟩

theorem Alike.stop {stop : Stop} (shared : Shared old old' ρ m m') :
    Alike old old' ρ (throw stop) (throw stop : Run β) m m' post :=
  ⟨rfl, ρ, List.Subset.refl ρ, shared⟩

theorem Alike.bind {x y : Run α} {f g : α → Run β} (first : Alike old old' ρ x y m m' P)
    (second : ∀ ρ' a b n n', ρ ⊆ ρ' → Shared old old' ρ' n n' → P ρ' a b n n' →
      Alike old old' ρ' (f a) (g b) n n' post) :
    Alike old old' ρ (x >>= f) (y >>= g) m m' post := by
  unfold Alike at first
  split at first
  · rename_i left right
    obtain ⟨ρ1, grown, shared, holds⟩ := first
    have rest := second ρ1 _ _ _ _ grown shared holds
    unfold Alike at rest ⊢
    rw [bind_of_ok left, bind_of_ok right]
    split at rest
    · obtain ⟨ρ2, more, shared2, ends⟩ := rest
      exact ⟨ρ2, List.Subset.trans grown more, shared2, ends⟩
    · obtain ⟨same, ρ2, more, shared2⟩ := rest
      exact ⟨same, ρ2, List.Subset.trans grown more, shared2⟩
    · exact rest.elim
  · rename_i left right
    unfold Alike
    rw [bind_of_error left, bind_of_error right]
    exact first
  · exact first.elim

theorem Alike.mono {x y : Run β} {Q : CellPairs → β → β → Machine → Machine → Prop}
    (h : Alike old old' ρ x y m m' Q)
    (imp : ∀ ρ' a b n n', ρ ⊆ ρ' → Q ρ' a b n n' → post ρ' a b n n') :
    Alike old old' ρ x y m m' post := by
  unfold Alike at h ⊢
  split at h
  · obtain ⟨ρ1, grown, shared, holds⟩ := h
    exact ⟨ρ1, grown, shared, imp _ _ _ _ _ grown holds⟩
  · exact h
  · exact h.elim

theorem Alike.lift {x : Except Fault β} (shared : Shared old old' ρ m m')
    (h : ∀ b, post ρ b b m m') : Alike old old' ρ (Run.lift x) (Run.lift x) m m' post := by
  cases x with
  | error fault => exact .stop shared
  | ok b => exact .pure shared (h b)

theorem Alike.get_bind {f g : Machine → Run β} (rest : Alike old old' ρ (f m) (g m') m m' post) :
    Alike old old' ρ (get >>= f) (get >>= g) m m' post := rest

theorem Alike.cellOf_bind {f g : CellId → Run β} {name : String} {position : Position}
    (shared : Shared old old' ρ m m') (linked : Linked ρ m m')
    (rest : ∀ a b, (a, b) ∈ ρ → Alike old old' ρ (f a) (g b) m m' post) :
    Alike old old' ρ (Run.cellOf name position >>= f) (Run.cellOf name position >>= g) m m'
      post := by
  have related := linked.get? name
  cases left : m.scopes.get? name with
  | none =>
    cases right : m'.scopes.get? name with
    | none =>
      unfold Alike
      rw [bind_of_error (cellOf_of_free position left),
        bind_of_error (cellOf_of_free position right)]
      exact ⟨rfl, ρ, List.Subset.refl ρ, shared⟩
    | some b =>
      rw [left, right] at related
      cases related
  | some a =>
    cases right : m'.scopes.get? name with
    | none =>
      rw [left, right] at related
      cases related
    | some b =>
      rw [left, right] at related
      cases related with
      | some pair =>
        unfold Alike
        rw [bind_of_ok (cellOf_of_get? position left),
          bind_of_ok (cellOf_of_get? position right)]
        exact rest a b pair

theorem Alike.fetch_bind {f g : Value → Run β} {position : Position}
    (shared : Shared old old' ρ m m') (pair : (a, b) ∈ ρ)
    (rest : ∀ v, Alike old old' ρ (f v) (g v) m m' post) :
    Alike old old' ρ (Run.fetch a position >>= f) (Run.fetch b position >>= g) m m' post := by
  unfold Alike
  rw [bind_of_ok (fetch_of_free position (shared.left_free a)),
    bind_of_ok (fetch_of_free position (shared.right_free b)), shared.load pair]
  exact rest (m'.load b)

theorem Alike.change {act : Value → Except Fault (β × Value)} {position : Position}
    (shared : Shared old old' ρ m m') (pair : (a, b) ∈ ρ)
    (ends : ∀ c v, post ρ c c (m.store a v) (m'.store b v)) :
    Alike old old' ρ (Run.change a position act) (Run.change b position act) m m' post := by
  have left := shared.left_free a
  have right := shared.right_free b
  unfold Alike
  cases done : act (m'.load b) with
  | error fault =>
    rw [change_of_error position left (shared.load pair ▸ done),
      change_of_error position right done]
    exact ⟨rfl, ρ, List.Subset.refl ρ, shared⟩
  | ok result =>
    obtain ⟨c, v⟩ := result
    rw [change_of_ok position left (shared.load pair ▸ done), change_of_ok position right done]
    exact ⟨ρ, List.Subset.refl ρ, shared.store pair v, ends c v⟩

theorem Alike.newCell {v : Value} (shared : Shared old old' ρ m m') (linked : Linked ρ m m') :
    Alike old old' ρ (Run.newCell v) (Run.newCell v) m m' fun ρ' a b n n' =>
      (a, b) ∈ ρ' ∧ Linked ρ' n n' :=
  ⟨_, List.subset_cons_self _ ρ, shared.push v, List.mem_cons_self,
    linked.mono (List.subset_cons_self _ ρ)⟩

theorem Alike.inCall {x y : Run β} {s s' : Scopes CellId} (shared : Shared old old' ρ m m')
    (h : Alike old old' ρ x y { m with scopes := s, depth := m.depth + 1 }
      { m' with scopes := s', depth := m'.depth + 1 } fun _ a b _ _ => a = b) :
    Alike old old' ρ (Run.inCall s x) (Run.inCall s' y) m m' fun _ a b n n' =>
      a = b ∧ n.scopes = m.scopes ∧ n'.scopes = m'.scopes := by
  unfold Alike Run.inCall at *
  dsimp only
  split at h
  · rename_i left right
    obtain ⟨ρ1, grown, shared1, same⟩ := h
    rw [left, right]
    exact ⟨ρ1, grown, shared1.called _ _ shared.depth, same, rfl, rfl⟩
  · rename_i left right
    obtain ⟨same, ρ1, grown, shared1⟩ := h
    rw [left, right]
    exact ⟨same, ρ1, grown, shared1.called _ _ shared.depth⟩
  · exact h.elim

/-- A computation that does the same wherever its names denote cells that hold the same. -/
def Blind {α : Type} (x : Run α) : Prop :=
  ∀ ⦃old old' : Array Line⦄ ⦃ρ : CellPairs⦄ ⦃m m' : Machine⦄, Shared old old' ρ m m' →
    Linked ρ m m' → Alike old old' ρ x x m m' Agree

namespace Blind

theorem pure (b : β) : (pure b : Run β).Blind := fun _ _ _ _ _ shared linked =>
  Alike.pure shared ⟨rfl, linked⟩

theorem stop (stop : Stop) : (throw stop : Run β).Blind := fun _ _ _ _ _ shared _ =>
  Alike.stop shared

theorem lift (x : Except Fault β) : (Run.lift x).Blind := fun _ _ _ _ _ shared linked =>
  Alike.lift shared fun _ => ⟨rfl, linked⟩

theorem bind {x : Run α} {f : α → Run β} (first : x.Blind) (second : ∀ a, (f a).Blind) :
    (x >>= f).Blind := by
  intro old old' ρ m m' shared linked
  apply Alike.bind (first shared linked)
  intro ρ1 a _ n n' _ shared1 agree1
  obtain ⟨rfl, linked1⟩ := agree1
  exact second a shared1 linked1

theorem print (line : Line) : (Run.print line).Blind := fun _ _ ρ _ _ shared linked =>
  ⟨ρ, List.Subset.refl ρ, shared.print line, rfl, linked⟩

theorem define (name : String) (v : Value) (position : Position) :
    (Run.define name v position).Blind := by
  intro old old' ρ m m' shared linked
  have grown := List.subset_cons_self (m.cells.size, m'.cells.size) ρ
  have related := Scopes.Rel.define? (linked.mono grown) List.mem_cons_self name
  unfold Alike
  cases left : m.scopes.define? name m.cells.size with
  | none =>
    cases right : m'.scopes.define? name m'.cells.size with
    | none =>
      rw [define_of_none v position left, define_of_none v position right]
      exact ⟨rfl, _, grown, shared.push v⟩
    | some t =>
      rw [left, right] at related
      cases related
  | some s =>
    cases right : m'.scopes.define? name m'.cells.size with
    | none =>
      rw [left, right] at related
      cases related
    | some t =>
      rw [left, right] at related
      rw [define_of_some v position left, define_of_some v position right]
      cases related with
      | some linked1 => exact ⟨_, grown, (shared.push v).withScopes s t, rfl, linked1⟩

theorem inFrame {x : Run β} (h : x.Blind) : (Run.inFrame x).Blind := by
  intro old old' ρ m m' shared linked
  have body : Alike old old' ρ x x { m with scopes := m.scopes.push }
      { m' with scopes := m'.scopes.push } Agree :=
    h (shared.withScopes _ _) (Scopes.Rel.push linked)
  unfold Alike Run.inFrame at *
  split at body
  · rename_i left right
    obtain ⟨ρ1, grown, shared1, same, linked1⟩ := body
    rw [left, right]
    exact ⟨ρ1, grown, shared1.withScopes _ _, same, Scopes.Rel.pop linked1⟩
  · rename_i left right
    obtain ⟨same, ρ1, grown, shared1⟩ := body
    rw [left, right]
    exact ⟨same, ρ1, grown, shared1.withScopes _ _⟩
  · exact body.elim

theorem clear_bind {f : Unit → Run β} (rest : (f ()).Blind) :
    ((modify fun m : Machine => { m with scopes := m.scopes.clear } : Run Unit) >>= f).Blind :=
  fun _ _ _ _ _ shared linked => rest (shared.withScopes _ _) (Scopes.Rel.clear linked)

end Blind
end Run

namespace Program

/-- Every function of the interpreter does the same, with this fuel, wherever its names denote
    cells that hold the same. A call has names for the cells of its arguments alone. -/
structure Blind (p : Program) (n : Nat) : Prop where
  eval : ∀ e, (p.eval n e).Blind
  evalList : ∀ args, (p.evalList n args).Blind
  evalSteps : ∀ steps, (p.evalSteps n steps).Blind
  evalFields : ∀ s fields given, (p.evalFields n s fields given).Blind
  evalMethod : ∀ position root steps name nameAt args,
    (p.evalMethod n position root steps name nameAt args).Blind
  evalCall : ∀ callee args position, (p.evalCall n callee args position).Blind
  bindArguments : ∀ params args {old old' ρ m m'}, Shared old old' ρ m m' → Linked ρ m m' →
    Run.Alike old old' ρ (p.bindArguments n params args) (p.bindArguments n params args) m m'
      fun ρ' cells cells' n n' =>
        List.Forall₂ (fun a b => (a, b) ∈ ρ') cells cells' ∧ Linked ρ' n n'
  invoke : ∀ f {cells cells'} position {old old' ρ m m'}, Shared old old' ρ m m' →
    List.Forall₂ (fun a b => (a, b) ∈ ρ) cells cells' →
    Run.Alike old old' ρ (p.invoke n f cells position) (p.invoke n f cells' position) m m'
      fun _ a b n n' => a = b ∧ n.scopes = m.scopes ∧ n'.scopes = m'.scopes
  execBlock : ∀ body, (p.execBlock n body).Blind
  exec : ∀ s, (p.exec n s).Blind
  execBranches : ∀ branches otherwise, (p.execBranches n branches otherwise).Blind
  repeatBlock : ∀ body, (p.repeatBlock n body).Blind

variable {p : Program} {n : Nat}

theorem blind_zero : p.Blind 0 := by
  constructor <;> intros
  · rw [eval]; exact .stop _
  · rw [evalList]; exact .stop _
  · rw [evalSteps]; exact .stop _
  · rw [evalFields]; exact .stop _
  · rw [evalMethod]; exact .stop _
  · rw [evalCall]; exact .stop _
  · rename_i shared _
    rw [bindArguments]
    exact .stop shared
  · rename_i shared _
    rw [invoke, invoke]
    exact .stop shared
  · rw [execBlock]; exact .stop _
  · rw [exec]; exact .stop _
  · rw [execBranches]; exact .stop _
  · rw [repeatBlock]; exact .stop _

section Expressions

variable (ih : p.Blind n)
include ih

theorem eval_blind (e : Expr) : (p.eval (n + 1) e).Blind := by
  cases e with
  | literal node value =>
    rw [eval]
    exact .lift _
  | place node root steps =>
    intro old old' ρ m m' shared linked
    rw [eval.eq_def]
    apply Run.Alike.get_bind
    rw [linked.contains root]
    split
    · refine Run.Alike.cellOf_bind shared linked fun a b pair => ?_
      apply (ih.evalSteps steps shared linked).bind
      intro ρ1 path _ m1 m1' grown shared1 agree1
      obtain ⟨rfl, linked1⟩ := agree1
      apply Run.Alike.fetch_bind shared1 (grown pair)
      exact fun v => .lift shared1 fun _ => ⟨rfl, linked1⟩
    · split
      · split
        · exact .pure shared ⟨rfl, linked⟩
        · exact .stop shared
      · exact .stop shared
  | method node root steps name nameAt args =>
    rw [eval]
    apply (ih.evalMethod node.position root steps name nameAt args).bind
    intro result
    rcases result with _ | v
    · exact .stop _
    · exact .pure v
  | call node callee args =>
    rw [eval]
    apply (ih.evalCall callee args node.position).bind
    intro result
    rcases result with _ | v
    · exact .stop _
    · exact .pure v
  | math node op left right | compare node op left right =>
    rw [eval]
    exact (ih.eval left).bind fun a => (ih.eval right).bind fun b => .lift _
  | unary node op operand =>
    rw [eval]
    exact (ih.eval operand).bind fun v => .lift _
  | build node name given =>
    rw [eval]
    split
    · exact .stop _
    · exact (ih.evalFields _ [] given).bind fun fields => (Run.Blind.lift _).bind fun _ => .pure _

theorem evalList_blind (args : List Expr) : (p.evalList (n + 1) args).Blind := by
  cases args with
  | nil =>
    rw [evalList]
    exact .pure []
  | cons e es =>
    rw [evalList]
    exact (ih.eval e).bind fun v => (ih.evalList es).bind fun vs => .pure _

theorem evalSteps_blind (steps : List Step) : (p.evalSteps (n + 1) steps).Blind := by
  cases steps with
  | nil =>
    rw [evalSteps]
    exact .pure []
  | cons step steps =>
    cases step with
    | member name position =>
      rw [evalSteps]
      exact (ih.evalSteps steps).bind fun path => .pure _
    | index e =>
      rw [evalSteps]
      refine (ih.eval e).bind fun v => ?_
      split
      · exact (ih.evalSteps steps).bind fun path => .pure _
      · exact .stop _

theorem evalFields_blind (s : Struct) (fields : List (String × Value)) (given : List Field) :
    (p.evalFields (n + 1) s fields given).Blind := by
  cases given with
  | nil =>
    rw [evalFields]
    exact .pure fields
  | cons field rest =>
    obtain ⟨name, position, value⟩ := field
    rw [evalFields]
    split
    · exact .stop _
    · exact (ih.eval value).bind fun v => ih.evalFields s _ rest

theorem evalMethod_blind (position : Position) (root : String) (steps : List Step)
    (name : String) (nameAt : Position) (args : List Expr) :
    (p.evalMethod (n + 1) position root steps name nameAt args).Blind := by
  intro old old' ρ m m' shared linked
  rw [evalMethod]
  refine Run.Alike.cellOf_bind shared linked fun a b pair => ?_
  apply (ih.evalSteps steps shared linked).bind
  intro ρ1 path _ m1 m1' grown1 shared1 agree1
  obtain ⟨rfl, linked1⟩ := agree1
  apply (ih.evalList args shared1 linked1).bind
  intro ρ2 vs _ m2 m2' grown2 shared2 agree2
  obtain ⟨rfl, linked2⟩ := agree2
  exact .change shared2 (grown2 (grown1 pair)) fun _ _ => ⟨rfl, linked2⟩

theorem bindArguments_blind (params : List Param) (args : List Expr) {old old' : Array Line}
    {ρ : CellPairs} {m m' : Machine} (shared : Shared old old' ρ m m') (linked : Linked ρ m m') :
    Run.Alike old old' ρ (p.bindArguments (n + 1) params args)
      (p.bindArguments (n + 1) params args) m m' fun ρ' cells cells' n n' =>
        List.Forall₂ (fun a b => (a, b) ∈ ρ') cells cells' ∧ Linked ρ' n n' := by
  rcases params with _ | ⟨param, params⟩
  · rw [bindArguments]
    · exact .pure shared ⟨.nil, linked⟩
    · simp
  rcases args with _ | ⟨arg, args⟩
  · rw [bindArguments]
    · exact .pure shared ⟨.nil, linked⟩
    · simp
  -- Either way the two cells stand for each other, so what is left to do is the same.
  have rest : ∀ {ρ1 a b m1 m1'}, Shared old old' ρ1 m1 m1' → Linked ρ1 m1 m1' → (a, b) ∈ ρ1 →
      Run.Alike old old' ρ1 ((a :: ·) <$> p.bindArguments n params args)
        ((b :: ·) <$> p.bindArguments n params args) m1 m1' fun ρ' cells cells' n n' =>
          List.Forall₂ (fun a b => (a, b) ∈ ρ') cells cells' ∧ Linked ρ' n n' := by
    intro ρ1 a b m1 m1' shared1 linked1 pair
    rw [map_eq_pure_bind, map_eq_pure_bind]
    apply (ih.bindArguments params args shared1 linked1).bind
    intro ρ2 cells cells' m2 m2' grown shared2 agree2
    obtain ⟨pairs, linked2⟩ := agree2
    exact .pure shared2 ⟨.cons (grown pair) pairs, linked2⟩
  rw [bindArguments]
  split
  · split
    · exact Run.Alike.cellOf_bind shared linked fun a b pair => rest shared linked pair
    · exact .stop shared
  · apply (ih.eval arg shared linked).bind
    intro ρ1 v _ m1 m1' _ shared1 agree1
    obtain ⟨rfl, linked1⟩ := agree1
    apply (Run.Alike.newCell shared1 linked1).bind
    intro ρ2 a b m2 m2' _ shared2 agree2
    obtain ⟨pair, linked2⟩ := agree2
    exact rest shared2 linked2 pair

theorem evalCall_blind (callee : String) (args : List Expr) (position : Position) :
    (p.evalCall (n + 1) callee args position).Blind := by
  rw [evalCall]
  split
  · rename_i f _
    intro old old' ρ m m' shared linked
    apply (ih.bindArguments f.params args shared linked).bind
    intro ρ1 cells cells' m1 m1' _ shared1 agree1
    obtain ⟨pairs, linked1⟩ := agree1
    apply (ih.invoke f position shared1 pairs).mono
    intro ρ2 v _ m2 m2' grown agree2
    obtain ⟨rfl, left, right⟩ := agree2
    refine ⟨rfl, ?_⟩
    rw [Linked, left, right]
    exact linked1.mono grown
  · split
    · exact .stop _
    · rename_i b _
      refine (ih.evalList args).bind fun vs => (Run.Blind.lift _).bind ?_
      intro result
      rcases result with _ | line
      · exact .pure none
      · exact (Run.Blind.print line).bind fun _ => .pure none

theorem invoke_blind (f : Function) {cells cells' : List CellId} (position : Position)
    {old old' : Array Line} {ρ : CellPairs} {m m' : Machine} (shared : Shared old old' ρ m m')
    (pairs : List.Forall₂ (fun a b => (a, b) ∈ ρ) cells cells') :
    Run.Alike old old' ρ (p.invoke (n + 1) f cells position) (p.invoke (n + 1) f cells' position)
      m m' fun _ a b n n' => a = b ∧ n.scopes = m.scopes ∧ n'.scopes = m'.scopes := by
  rw [invoke, invoke]
  apply Run.Alike.get_bind
  rw [shared.depth]
  split
  · exact .stop shared
  · have linked := Linked.ofArguments f.params pairs
    have body := (ih.execBlock f.body (shared.called _ _ (congrArg (· + 1) shared.depth))
      linked).mono fun _ _ _ _ _ _ agree => agree.1
    apply (Run.Alike.inCall shared body).bind
    intro ρ1 flow _ m1 m1' _ shared1 agree1
    obtain ⟨rfl, left, right⟩ := agree1
    split
    · exact .pure shared1 ⟨rfl, left, right⟩
    · exact .stop shared1
    · exact .pure shared1 ⟨rfl, left, right⟩

end Expressions

section Statements

variable (ih : p.Blind n)
include ih

theorem execBlock_blind (body : List Stmt) : (p.execBlock (n + 1) body).Blind := by
  cases body with
  | nil =>
    rw [execBlock]
    exact .pure _
  | cons s rest =>
    rw [execBlock]
    refine (ih.exec s).bind fun flow => ?_
    split
    · exact ih.execBlock rest
    · exact .pure _

theorem execBranches_blind (branches : List (Branch Stmt)) (otherwise : Option (List Stmt)) :
    (p.execBranches (n + 1) branches otherwise).Blind := by
  rcases branches with _ | ⟨branch, branches⟩
  · rcases otherwise with _ | body
    · rw [execBranches]
      exact .pure _
    · rw [execBranches]
      exact (ih.execBlock body).inFrame
  · rw [execBranches]
    refine (ih.eval branch.condition).bind fun v => ?_
    split
    · exact (ih.execBlock branch.body).inFrame
    · exact ih.execBranches branches otherwise
    · exact .stop _

theorem repeatBlock_blind (body : List Stmt) : (p.repeatBlock (n + 1) body).Blind := by
  rw [repeatBlock]
  refine (ih.execBlock body).bind fun flow => ?_
  split
  · exact .clear_bind (ih.repeatBlock body)
  · exact .clear_bind (ih.repeatBlock body)
  · exact .pure _
  · exact .pure _

theorem assign_blind (position : Position) (target : Node) (root : String) (steps : List Step)
    (value : Expr) : (p.exec (n + 1) (.assign position target root steps value)).Blind := by
  rw [exec]
  refine (ih.eval value).bind fun v => (Run.Blind.lift _).bind fun type => ?_
  intro old old' ρ m m' shared linked
  refine Run.Alike.cellOf_bind shared linked fun a b pair => ?_
  apply (ih.evalSteps steps shared linked).bind
  intro ρ1 path _ m1 m1' grown shared1 agree1
  obtain ⟨rfl, linked1⟩ := agree1
  exact .change shared1 (grown pair) fun _ _ => ⟨rfl, linked1⟩

theorem exec_blind (s : Stmt) : (p.exec (n + 1) s).Blind := by
  cases s with
  | declare node name type =>
    rw [exec]
    refine (Run.Blind.lift _).bind fun type => (Run.Blind.lift _).bind fun v => ?_
    exact (Run.Blind.define name v node.position).bind fun _ => .pure _
  | define node name type value isConst =>
    rw [exec]
    refine (Run.Blind.lift _).bind fun type => (ih.eval value).bind fun v => ?_
    exact (Run.Blind.define name _ node.position).bind fun _ => .pure _
  | assign position target root steps value =>
    exact assign_blind ih position target root steps value
  | loop position body =>
    rw [exec]
    exact (ih.repeatBlock body).inFrame
  | choose position first elifs otherwise =>
    rw [exec]
    exact ih.execBranches (first :: elifs) otherwise
  | «return» position value =>
    rcases value with _ | e
    · rw [exec]
      exact .pure _
    · rw [exec]
      exact (ih.eval e).bind fun _ => .pure _
  | «break» position | «continue» position =>
    rw [exec]
    exact .pure _
  | call position node callee args =>
    rw [exec]
    exact (ih.evalCall callee args node.position).bind fun _ => .pure _
  | place position node root steps =>
    rw [exec]
    exact (ih.eval (.place node root steps)).bind fun _ => .pure _
  | method position node root steps name nameAt args =>
    rw [exec]
    exact (ih.evalMethod node.position root steps name nameAt args).bind fun _ => .pure _

end Statements

theorem blind (p : Program) (n : Nat) : p.Blind n := by
  induction n with
  | zero => exact blind_zero
  | succ n ih =>
    constructor
    · exact eval_blind ih
    · exact evalList_blind ih
    · exact evalSteps_blind ih
    · exact evalFields_blind ih
    · exact evalMethod_blind ih
    · exact evalCall_blind ih
    · exact bindArguments_blind ih
    · exact invoke_blind ih
    · exact execBlock_blind ih
    · exact exec_blind ih
    · exact execBranches_blind ih
    · exact repeatBlock_blind ih

end Program
end LoopLang
