import Mathlib.Data.List.Nodup
import LoopLang.Proofs.Tree.Reading

namespace LoopLang

namespace Definition

def ids : Definition → List NodeId
  | function f => Stmt.idsOf f.body
  | struct s => s.ids
  | enum _ => []

def Written : Definition → Prop
  | function f => f.Written
  | struct s => ∀ m ∈ s.members, m.type.Written
  | enum _ => True

end Definition

namespace Parse

variable {fuel : Nat} {first n : NodeId} {ids : List NodeId}

def MembersRead (first : NodeId) (before : List NodeId) (members : List Member) (n : NodeId) :
    Prop :=
  Numbered first (before ++ members.flatMap Member.ids) n ∧ ∀ m ∈ members, m.type.Written

theorem memberList_reads (h : Numbered first ids n) :
    (memberList fuel).Gives n (MembersRead first ids) := by
  induction fuel generalizing ids n with
  | zero => exact Gives.fail
  | succ fuel ih =>
    rw [memberList]
    refine (quiet_isNext _).bind fun done => ?_
    split
    · exact Gives.pure ⟨by simpa using h, by simp⟩
    · refine quiet_here.bind fun start => quiet_expectName.bind fun name =>
        (quiet_expect _ _).bind fun _ => type_written.bind fun type n1 => ?_
      intro both
      obtain ⟨written, rfl⟩ := both
      let Q (default : Option Expr) :=
        Numbered first (ids ++ (Member.mk name type default start).ids)
      have rest (default : Option Expr) (n2 : NodeId) (h2 : Q default n2) :
          (do
            let member := Member.mk name type default start
            if ← accept .comma then return member :: (← memberList fuel)
            else return [member]).Gives n2 (MembersRead first ids) := by
        refine (quiet_accept _).bind fun more => ?_
        split
        · refine (ih h2).bind fun members n3 h3 => Gives.pure ⟨?_, ?_⟩
          · simpa only [List.flatMap_cons, List.append_assoc] using h3.1
          · exact List.forall_mem_cons.mpr ⟨written, h3.2⟩
        · exact Gives.pure ⟨by simpa using h2, by simpa using written⟩
      refine (quiet_accept _).bind fun given => ?_
      split
      · exact Gives.bind (P := Q) (Gives.map ((exprReads fuel).expression h)) rest
      · exact Gives.bind (P := Q) (Gives.pure (by simpa [Q, Member.ids] using h)) rest

theorem quiet_entryList (fuel : Nat) : (entryList fuel).Quiet := by
  intro n
  induction fuel with
  | zero => exact Gives.fail
  | succ fuel ih =>
    rw [entryList]
    refine (quiet_isNext _).bind fun done => ?_
    split
    · exact Gives.pure rfl
    · refine quiet_expectName.bind fun entry => (quiet_accept _).bind fun more => ?_
      split
      · exact ih.bind fun _ _ same => Gives.pure same
      · exact Gives.pure rfl

theorem paramList_written (fuel : Nat) :
    (paramList fuel).Gives n fun params n' => (∀ p ∈ params, p.type.Written) ∧ n' = n := by
  induction fuel with
  | zero => exact Gives.fail
  | succ fuel ih =>
    rw [paramList]
    refine quiet_here.bind fun start => quiet_expectName.bind fun name =>
      (quiet_expect _ _).bind fun _ => (quiet_accept _).bind fun byReference =>
      type_written.bind fun type n1 => ?_
    intro both
    obtain ⟨written, rfl⟩ := both
    refine (quiet_accept _).bind fun more => ?_
    split
    · refine ih.bind fun params n2 => ?_
      intro both
      obtain ⟨rest, rfl⟩ := both
      exact Gives.pure ⟨List.forall_mem_cons.mpr ⟨written, rest⟩, rfl⟩
    · exact Gives.pure ⟨by simpa using written, rfl⟩

theorem struct_reads (h : Numbered first ids n) :
    (struct fuel).Gives n fun s => MembersRead first ids s.members :=
  quiet_here.bind fun _ => quiet_expectName.bind fun _ => (quiet_expect _ _).bind fun _ =>
    (memberList_reads h).bind fun _ _ h1 => (quiet_expect _ _).bind fun _ => Gives.pure h1

theorem quiet_enum (fuel : Nat) : (enum fuel).Quiet := fun _ =>
  quiet_here.bind fun _ => quiet_expectName.bind fun _ => (quiet_expect _ _).bind fun _ =>
    (quiet_entryList fuel).bind fun _ => (quiet_expect _ _).bind fun _ => Gives.pure rfl

theorem function_reads (h : Numbered first ids n) :
    (function fuel).Gives n fun f n' =>
      Numbered first (ids ++ Stmt.idsOf f.body) n' ∧ f.Written := by
  refine quiet_here.bind fun start => quiet_expectName.bind fun name =>
    (quiet_expect _ _).bind fun _ => (quiet_isNext _).bind fun empty => ?_
  have rest (params : List Param) (n1 : NodeId)
      (hp : (∀ p ∈ params, p.type.Written) ∧ n1 = n) :
      (do
        expect .rightParen "')' after parameters"
        let returns ← if ← accept .colon then some <$> type else pure none
        let body ← block fuel
        return (⟨name, params, returns, body, start⟩ : Function)).Gives n1 fun f n' =>
          Numbered first (ids ++ Stmt.idsOf f.body) n' ∧ f.Written := by
    obtain ⟨params_written, rfl⟩ := hp
    refine (quiet_expect _ _).bind fun _ => (quiet_accept _).bind fun typed => ?_
    let Q (returns : Option Ty) (n' : NodeId) := (∀ t ∈ returns, t.Written) ∧ n' = n1
    have body (returns : Option Ty) (n2 : NodeId) (hr : Q returns n2) :
        (do return (⟨name, params, returns, ← block fuel, start⟩ : Function)).Gives n2 fun f n' =>
          Numbered first (ids ++ Stmt.idsOf f.body) n' ∧ f.Written := by
      obtain ⟨returns_written, rfl⟩ := hr
      exact ((stmtReads fuel).block h).bind fun body n3 h3 =>
        Gives.pure ⟨h3.1, params_written, returns_written, h3.2⟩
    split
    · refine Gives.bind (P := Q) (Gives.map ?_) body
      intro r t r' begins run
      have read := type_written r t r' begins run
      exact ⟨by simpa using read.1, read.2⟩
    · exact Gives.bind (P := Q) (Gives.pure ⟨by simp, rfl⟩) body
  split
  · exact Gives.bind (Gives.pure ⟨by simp, rfl⟩) rest
  · exact (paramList_written fuel).bind rest

theorem definition_reads (h : Numbered first ids n) :
    (Definition.parse fuel).Gives n fun d n' => Numbered first (ids ++ d.ids) n' ∧ d.Written := by
  refine quiet_peek.bind fun next => ?_
  split
  · exact quiet_advance.bind fun _ => (struct_reads h).bind fun s n1 h1 => Gives.pure h1
  · refine quiet_advance.bind fun _ => (quiet_enum fuel).bind fun e => Gives.pure ⟨?_, trivial⟩
    simpa only [Definition.ids, List.append_nil] using h
  · exact quiet_advance.bind fun _ => (function_reads h).bind fun f n1 h1 => Gives.pure h1
  · exact (function_reads h).bind fun f n1 h1 => Gives.pure h1

end Parse

namespace Globals

theorem distinct_of_firstRepeated? {α : Type} {key : α → String} {earlier : List String}
    {xs : List α} (h : firstRepeated? key earlier xs = none) :
    (xs.map key).Nodup ∧ ∀ x ∈ xs, key x ∉ earlier := by
  induction xs generalizing earlier with
  | nil => simp
  | cons x xs ih =>
    simp only [firstRepeated?] at h
    split at h
    · cases h
    · rename_i fresh
      obtain ⟨distinct, apart⟩ := ih h
      simp only [List.contains_eq_mem, decide_eq_true_eq] at fresh
      simp only [List.mem_cons, not_or] at apart
      refine ⟨?_, List.forall_mem_cons.mpr ⟨fresh, fun y member => (apart y member).2⟩⟩
      rw [List.map_cons, List.nodup_cons]
      refine ⟨?_, distinct⟩
      intro repeated
      obtain ⟨y, member, same⟩ := List.mem_map.mp repeated
      exact (apart y member).1 same

def push (g : Globals) : Definition → Globals
  | .function f => { g with functions := g.functions ++ [f] }
  | .struct s => { g with structs := g.structs ++ [s] }
  | .enum e => { g with enums := g.enums ++ [e] }

theorem push_of_add {g g' : Globals} {d : Definition} (h : g.add d = .ok g') : g' = g.push d := by
  cases d with
  | function f =>
    rw [add] at h
    split at h
    · cases h
    · cases h
      rfl
  | struct s =>
    rw [add] at h
    split at h
    · cases h
    · split at h
      · cases h
      · cases h
        rfl
  | enum e =>
    rw [add] at h
    split at h
    · cases h
    · split at h
      · cases h
      · cases h
        rfl

theorem ids_add {g g' : Globals} {d : Definition} (h : g.add d = .ok g') :
    g'.ids.Perm (g.ids ++ d.ids) := by
  rw [push_of_add h]
  cases d with
  | function f => simp [push, Globals.ids, Definition.ids]
  | struct s =>
    simp only [push, Globals.ids, Definition.ids, List.flatMap_append, List.flatMap_singleton,
      List.append_assoc]
    exact (List.perm_append_comm).append_left _
  | enum e => simp [push, Globals.ids, Definition.ids]

theorem Written.add {g g' : Globals} {d : Definition} {count count' : Nat} (h : g.Written count)
    (read : Parse.Numbered count d.ids count') (written : d.Written) (added : g.add d = .ok g') :
    g'.Written count' := by
  have ids : g'.ids.Perm (List.range count') := by
    refine (ids_add added).trans ((h.ids.append_right _).trans ?_)
    rw [read.2, List.range_eq_range', List.range_eq_range']
    have joined := @List.range'_append 0 count (count' - count) 1
    rw [Nat.one_mul, Nat.zero_add, Nat.add_sub_cancel' read.1] at joined
    rw [joined]
  cases d with
  | function f =>
    simp only [Globals.add] at added
    split at added
    · cases added
    · cases added
      refine ⟨ids, h.structs, ?_⟩
      simpa [or_imp, forall_and] using ⟨h.functions, written⟩
  | struct s =>
    simp only [Globals.add] at added
    split at added
    · cases added
    · split at added
      · cases added
      · rename_i none_repeated
        cases added
        refine ⟨ids, ?_, h.functions⟩
        have distinct := (distinct_of_firstRepeated? none_repeated).1
        simpa [or_imp, forall_and] using ⟨h.structs, distinct, written⟩
  | enum e =>
    simp only [Globals.add] at added
    split at added
    · cases added
    · split at added
      · cases added
      · cases added
        exact ⟨ids, h.structs, h.functions⟩

theorem parseOnto_written {g g' : Globals} {fuel definitions : Nat} {r : Reader}
    (h : g.Written r.nextId) (read : parseOnto g fuel definitions r = .ok g') :
    ∃ count, g'.Written count := by
  induction definitions generalizing g r with
  | zero =>
    simp only [parseOnto] at read
    split at read
    · cases read; exact ⟨_, h⟩
    · cases read
  | succ definitions ih =>
    simp only [parseOnto] at read
    split at read
    · cases read; exact ⟨_, h⟩
    · split at read
      · cases read
      · rename_i d r' parsed
        split at read
        · cases read
        · rename_i added
          have numbered := Parse.definition_reads (Parse.Numbered.nil r.nextId) r d r' rfl parsed
          exact ih (h.add numbered.1 numbered.2 added) read

/-- Tokens spell trees whose nodes are numbered from zero without gaps and without repetition,
    whose types are names or arrays of names, and whose structs repeat no member. -/
theorem ofLexemes_written {l : Lexemes} {g : Globals} (h : ofLexemes l = .ok g) :
    ∃ count, g.Written count :=
  parseOnto_written ⟨by simp [Globals.ids, empty], by simp [empty], by simp [empty]⟩ h

theorem parse_written {source : String} {g : Globals} (h : parse source = .ok g) :
    ∃ count, g.Written count := by
  simp only [parse] at h
  split at h
  · cases h
  · exact ofLexemes_written h

end Globals
end LoopLang
