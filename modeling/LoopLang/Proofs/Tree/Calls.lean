import LoopLang.Tree

namespace LoopLang

mutual

def Expr.callees : Expr → List String
  | .literal _ _ => []
  | .place _ _ steps => Step.calleesOf steps
  | .method _ _ steps _ _ args => Step.calleesOf steps ++ Expr.calleesOf args
  | .call _ callee args => callee :: Expr.calleesOf args
  | .math _ _ left right | .compare _ _ left right => left.callees ++ right.callees
  | .unary _ _ operand => operand.callees
  | .build _ _ given => Field.calleesOf given
termination_by structural e => e

def Expr.calleesOf : List Expr → List String
  | [] => []
  | e :: es => e.callees ++ Expr.calleesOf es
termination_by structural es => es

def Step.calleesOf : List Step → List String
  | [] => []
  | .index e :: steps => e.callees ++ Step.calleesOf steps
  | .member _ _ :: steps => Step.calleesOf steps
termination_by structural steps => steps

def Field.calleesOf : List Field → List String
  | [] => []
  | .mk _ _ value :: given => value.callees ++ Field.calleesOf given
termination_by structural given => given

end

mutual

def Stmt.callees : Stmt → List String
  | .declare _ _ _ | .break _ | .continue _ | .return _ none => []
  | .define _ _ _ value _ | .return _ (some value) => value.callees
  | .assign _ _ _ steps value => value.callees ++ Step.calleesOf steps
  | .loop _ body => Stmt.calleesOf body
  | .choose _ ⟨test, body⟩ elifs otherwise =>
    test.callees ++ Stmt.calleesOf body ++ Stmt.calleesOfBranches elifs ++
      match otherwise with
      | some body => Stmt.calleesOf body
      | none => []
  | .call _ _ callee args => callee :: Expr.calleesOf args
  | .place _ _ _ steps => Step.calleesOf steps
  | .method _ _ _ steps _ _ args => Step.calleesOf steps ++ Expr.calleesOf args
termination_by structural s => s

def Stmt.calleesOf : List Stmt → List String
  | [] => []
  | s :: rest => s.callees ++ Stmt.calleesOf rest
termination_by structural body => body

def Stmt.calleesOfBranches : List (Branch Stmt) → List String
  | [] => []
  | ⟨test, body⟩ :: rest =>
    test.callees ++ Stmt.calleesOf body ++ Stmt.calleesOfBranches rest
termination_by structural branches => branches

end

mutual

def Stmt.loopless : Stmt → Bool
  | .loop _ _ => false
  | .choose _ ⟨_, body⟩ elifs otherwise =>
    Stmt.looplessAll body && Stmt.looplessBranches elifs &&
      match otherwise with
      | some body => Stmt.looplessAll body
      | none => true
  | _ => true
termination_by structural s => s

def Stmt.looplessAll : List Stmt → Bool
  | [] => true
  | s :: rest => s.loopless && Stmt.looplessAll rest
termination_by structural body => body

def Stmt.looplessBranches : List (Branch Stmt) → Bool
  | [] => true
  | ⟨_, body⟩ :: rest => Stmt.looplessAll body && Stmt.looplessBranches rest
termination_by structural branches => branches

end

namespace Globals

inductive Reachable (g : Globals) : Function → Prop where
  | main {f} : g.function? "main" = some f → Reachable g f
  | call {f callee f'} : Reachable g f → callee ∈ Stmt.calleesOf f.body →
    g.function? callee = some f' → Reachable g f'

variable {g : Globals}

theorem name_of_function? {name : String} {f : Function} (h : g.function? name = some f) :
    f.name = name := by
  simpa using List.find?_some h

theorem Reachable.mem {f : Function} (h : g.Reachable f) : f ∈ g.functions := by
  cases h with
  | main found | call _ _ found => exact List.mem_of_find?_eq_some found

theorem Reachable.name_mem {names : List String} (main : "main" ∈ names)
    (closed : ∀ f ∈ g.functions, f.name ∈ names → Stmt.calleesOf f.body ⊆ names)
    {f : Function} (h : g.Reachable f) : f.name ∈ names := by
  induction h with
  | main found => exact name_of_function? found ▸ main
  | call from_ called found ih =>
    rw [name_of_function? found]
    exact closed _ from_.mem ih called

def Leads (g : Globals) (names : List String) : Prop :=
  ∀ callee ∈ names, ∀ f, g.function? callee = some f → g.Reachable f

theorem Leads.append {front back : List String} :
    g.Leads (front ++ back) ↔ g.Leads front ∧ g.Leads back := List.forall_mem_append

theorem Leads.cons {name : String} {names : List String} :
    g.Leads (name :: names) ↔
      (∀ f, g.function? name = some f → g.Reachable f) ∧ g.Leads names := List.forall_mem_cons

theorem Reachable.leads {f : Function} (h : g.Reachable f) : g.Leads (Stmt.calleesOf f.body) :=
  fun _ called _ found => .call h called found

/-- Functions that lead from `main` to the first one of them, each called by the next. Where calls
    lead back to a function there are chains of every length. -/
inductive Chain (g : Globals) : List Function → Prop where
  | main {f} : g.function? "main" = some f → Chain g [f]
  | call {f fs callee f'} : Chain g (f :: fs) → callee ∈ Stmt.calleesOf f.body →
    g.function? callee = some f' → Chain g (f' :: f :: fs)

/-- Functions have no long chains if each has a rank above those of all that it calls. -/
theorem Chain.length_le {rank : String → Nat}
    (falls : ∀ f ∈ g.functions, ∀ callee ∈ Stmt.calleesOf f.body, rank callee < rank f.name)
    {fs : List Function} (h : g.Chain fs) : fs.length ≤ rank "main" + 1 := by
  have ranked : ∀ f rest, fs = f :: rest → f ∈ g.functions ∧
      fs.length + rank f.name ≤ rank "main" + 1 := by
    induction h with
    | main found =>
      rintro _ _ ⟨⟩
      rw [name_of_function? found, List.length_singleton]
      exact ⟨List.mem_of_find?_eq_some found, by omega⟩
    | @call f fs callee f' _ called found ih =>
      rintro _ _ ⟨⟩
      obtain ⟨member, bound⟩ := ih f fs rfl
      have lower := falls f member callee called
      rw [name_of_function? found, List.length_cons]
      exact ⟨List.mem_of_find?_eq_some found, by omega⟩
  cases fs with
  | nil => exact Nat.zero_le _
  | cons f rest =>
    have := (ranked f rest rfl).2
    omega

end Globals
end LoopLang
