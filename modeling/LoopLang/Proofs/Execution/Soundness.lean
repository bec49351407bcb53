import LoopLang.Execution
import LoopLang.Proofs.Execution.Held

namespace LoopLang

namespace Step

variable {p : Program} {names : Scopes Binding}

theorem Lead.known (typed : p.Typed) {type part : Ty} {steps : List Step} {inString : Bool}
    (h : Lead p names type steps part inString) (known : type.Known p.globals) :
    part.Known p.globals := by
  induction steps generalizing type with
  | nil =>
    cases h
    exact known
  | cons step steps ih =>
    cases h with
    | item _ _ rest => exact ih rest known
    | character => trivial
    | member lookup found rest =>
      exact ih rest ((Struct.typed_of_struct? typed lookup).known _
        (List.mem_of_find?_eq_some found))

end Step

namespace Flow

def Suits (g : Globals) (returns : Option Ty) (inLoop : Bool) : Flow → Prop
  | .normal => True
  | .break | .continue => inLoop = true
  | .return result => Option.Rel (fun v type => ∃ found, Value.HasType g v found ∧
      type.accepts found = true) result returns

end Flow

/-- What holds after statements: the frames around them have the same names as before, and after
    a normal end the scopes have all the names that the checker expects. -/
structure Left (g : Globals) (returns : Option Ty) (inLoop : Bool)
    (names names' : Scopes Binding) (d : CellTypes) (flow : Flow) (m : Machine) : Prop where
  named : ∃ now : Scopes Binding, now.outer = names.outer ∧ (flow = .normal → now = names') ∧
    Named g d now m.scopes
  suits : flow.Suits g returns inLoop

namespace Program

structure Sound (p : Program) (n : Nat) : Prop where
  eval : ∀ {e type names d m}, e.Typed p names type →
    Settled p.globals d m → Named p.globals d names m.scopes →
    Run.Safe p.globals d (p.eval n e) m fun d' v m' =>
      Named p.globals d' names m'.scopes ∧ v.HasType p.globals type
  evalList : ∀ {params args names d m}, Expr.Match p names params args →
    (∀ param ∈ params, param.byReference = false) →
    Settled p.globals d m → Named p.globals d names m.scopes →
    Run.Safe p.globals d (p.evalList n args) m fun d' vs m' =>
      Named p.globals d' names m'.scopes ∧ Fit p.globals params vs
  evalSteps : ∀ {steps type part inString names d m},
    Step.Lead p names type steps part inString →
    Settled p.globals d m → Named p.globals d names m.scopes →
    Run.Safe p.globals d (p.evalSteps n steps) m fun d' path m' =>
      Named p.globals d' names m'.scopes ∧ PathStep.Lead p.globals type path part inString
  evalFields : ∀ {s earlier given fields names d m}, s.Typed p →
    Field.Fill p names s earlier given → Value.FieldsOf p.globals s fields →
    Settled p.globals d m → Named p.globals d names m.scopes →
    Run.Safe p.globals d (p.evalFields n s fields given) m fun d' done m' =>
      Named p.globals d' names m'.scopes ∧ Value.FieldsOf p.globals s done ∧
      fields.map Prod.fst ⊆ done.map Prod.fst ∧ given.map Field.name ⊆ done.map Prod.fst
  evalMethod : ∀ {position root steps name nameAt args b receiver inString k names d m},
    names.get? root = some b → Step.Lead p names b.type steps receiver inString →
    Method.ofTy? receiver name = some k →
    Expr.Match p names (k.signatureOn receiver).params args →
    Settled p.globals d m → Named p.globals d names m.scopes →
    Run.Safe p.globals d (p.evalMethod n position root steps name nameAt args) m
      fun d' result m' => Named p.globals d' names m'.scopes ∧
        Option.Rel (Value.HasType p.globals) result k.signature.returns
  evalCall : ∀ {callee args position s names d m}, p.globals.signature? callee = some s →
    Expr.Match p names s.params args →
    Settled p.globals d m → Named p.globals d names m.scopes →
    Run.Safe p.globals d (p.evalCall n callee args position) m fun d' result m' =>
      Named p.globals d' names m'.scopes ∧ Option.Rel (Value.HasType p.globals) result s.returns
  bindArguments : ∀ {params args names d m}, Expr.Match p names params args →
    (∀ param ∈ params, param.type.Known p.globals) →
    Settled p.globals d m → Named p.globals d names m.scopes →
    Run.Safe p.globals d (p.bindArguments n params args) m fun d' cells m' =>
      Named p.globals d' names m'.scopes ∧ Given d' params cells
  invoke : ∀ {f cells position d m}, f.Typed p → Given d f.params cells →
    Settled p.globals d m →
    Run.Safe p.globals d (p.invoke n f cells position) m fun _ result m' =>
      m'.scopes = m.scopes ∧ Option.Rel (Value.HasType p.globals) result f.returns
  execBlock : ∀ {returns inLoop names body names' d m},
    Stmt.BlockTyped p returns inLoop names body names' →
    Settled p.globals d m → Named p.globals d names m.scopes →
    Run.Safe p.globals d (p.execBlock n body) m (Left p.globals returns inLoop names names')
  exec : ∀ {returns inLoop names s names' d m}, s.Typed p returns inLoop names names' →
    Settled p.globals d m → Named p.globals d names m.scopes →
    Run.Safe p.globals d (p.exec n s) m (Left p.globals returns inLoop names names')
  execBranches : ∀ {returns inLoop names branches otherwise d m},
    Stmt.BranchesTyped p returns inLoop names branches otherwise →
    Settled p.globals d m → Named p.globals d names m.scopes →
    Run.Safe p.globals d (p.execBranches n branches otherwise) m
      (Left p.globals returns inLoop names names)
  repeatBlock : ∀ {returns names body inner d m},
    Stmt.BlockTyped p returns true names.push body inner →
    Settled p.globals d m → Named p.globals d names.push m.scopes →
    Run.Safe p.globals d (p.repeatBlock n body) m fun d' flow m' =>
      Left p.globals returns false names names d' flow { m' with scopes := m'.scopes.pop }

variable {p : Program} {n : Nat} {d : CellTypes} {m : Machine} {names : Scopes Binding}

theorem sound_zero : p.Sound 0 := by
  constructor <;> intros
  · rw [eval]; exact .outOfFuel ‹_›
  · rw [evalList]; exact .outOfFuel ‹_›
  · rw [evalSteps]; exact .outOfFuel ‹_›
  · rw [evalFields]; exact .outOfFuel ‹_›
  · rw [evalMethod]; exact .outOfFuel ‹_›
  · rw [evalCall]; exact .outOfFuel ‹_›
  · rw [bindArguments]; exact .outOfFuel ‹_›
  · rw [invoke]; exact .outOfFuel ‹_›
  · rw [execBlock]; exact .outOfFuel ‹_›
  · rw [exec]; exact .outOfFuel ‹_›
  · rw [execBranches]; exact .outOfFuel ‹_›
  · rw [repeatBlock]; exact .outOfFuel ‹_›

section Expressions

variable (ih : p.Sound n) (stored : Settled p.globals d m)
  (named : Named p.globals d names m.scopes)
include ih stored named

theorem eval_place_sound {node : Node} {root : String} {steps : List Step} {b : Binding}
    {type : Ty} {inString : Bool} (bound : names.get? root = some b)
    (lead : Step.Lead p names b.type steps type inString) :
    Run.Safe p.globals d (p.eval (n + 1) (.place node root steps)) m fun d' v m' =>
      Named p.globals d' names m'.scopes ∧ v.HasType p.globals type := by
  rw [eval.eq_def]
  apply Run.Safe.get_bind
  obtain ⟨cell, found, _⟩ := named.lookup bound
  rw [if_pos (by rw [Scopes.contains, found]; rfl)]
  refine Run.Safe.cellOf_bind named bound fun cell denotes => ?_
  apply (ih.evalSteps lead stored named).bind
  intro d1 path m1 grown stored1 ends1
  obtain ⟨named1, leads⟩ := ends1
  refine Run.Safe.fetch_bind stored1 (Run.Safe.lift stored1 ?_)
  apply ((stored1.load (denotes.mono grown).1).read leads).mono
  exact fun v v_typed => ⟨named1, v_typed⟩

omit ih in
theorem eval_entry_sound {node : Node} {root name : String} {nameAt : Position} {e : Enum}
    (free : names.get? root = none) (found : p.globals.enum? root = some e)
    (entry : name ∈ e.entries) :
    Run.Safe p.globals d (p.eval (n + 1) (.place node root [.member name nameAt])) m
      fun d' v m' => Named p.globals d' names m'.scopes ∧ v.HasType p.globals (.enum root) := by
  rw [eval]
  apply Run.Safe.get_bind
  rw [if_neg (by rw [Scopes.contains, named.free free]; exact Bool.false_ne_true)]
  rw [if_pos (by rw [Globals.isEnum, found]; rfl)]
  exact Run.Safe.pure stored ⟨named, .enum found entry⟩

theorem eval_sound (typed : p.Typed) {e : Expr} {type : Ty} (h : e.Typed p names type) :
    Run.Safe p.globals d (p.eval (n + 1) e) m fun d' v m' =>
      Named p.globals d' names m'.scopes ∧ v.HasType p.globals type := by
  cases h with
  | literal picked noted =>
    rw [eval]
    exact Run.Safe.lift stored ((literal_answers picked noted).mono fun v v_typed =>
      ⟨named, v_typed⟩)
  | place bound lead _ => exact eval_place_sound ih stored named bound lead
  | entry free found entry _ => exact eval_entry_sound stored named free found entry
  | method bound lead lookup _ fit returns _ =>
    rw [eval]
    apply (ih.evalMethod bound lead lookup fit stored named).bind
    intro d1 result m1 _ stored1 ends1
    obtain ⟨named1, returned⟩ := ends1
    rw [returns] at returned
    cases returned with
    | some v_typed => exact Run.Safe.pure stored1 ⟨named1, v_typed⟩
  | call lookup fit returns _ =>
    rw [eval]
    apply (ih.evalCall lookup fit stored named).bind
    intro d1 result m1 _ stored1 ends1
    obtain ⟨named1, returned⟩ := ends1
    rw [returns] at returned
    cases returned with
    | some v_typed => exact Run.Safe.pure stored1 ⟨named1, v_typed⟩
  | folded left right left_constant right_constant folds rule noted =>
    rw [eval]
    apply (ih.eval left stored named).bind
    intro d1 a m1 _ stored1 ends1
    obtain ⟨named1, a_typed⟩ := ends1
    apply (ih.eval right stored1 named1).bind
    intro d2 b m2 _ stored2 ends2
    obtain ⟨named2, b_typed⟩ := ends2
    exact Run.Safe.lift stored2 ((folded_answers left right left_constant right_constant folds
      rule noted a_typed b_typed).mono fun v v_typed => ⟨named2, v_typed⟩)
  | math left right _ rule noted =>
    rw [eval]
    apply (ih.eval left stored named).bind
    intro d1 a m1 _ stored1 ends1
    obtain ⟨named1, a_typed⟩ := ends1
    apply (ih.eval right stored1 named1).bind
    intro d2 b m2 _ stored2 ends2
    obtain ⟨named2, b_typed⟩ := ends2
    exact Run.Safe.lift stored2 ((math_answers a_typed b_typed rule noted).mono fun v v_typed =>
      ⟨named2, v_typed⟩)
  | compare left right rule _ =>
    rw [eval]
    apply (ih.eval left stored named).bind
    intro d1 a m1 _ stored1 ends1
    obtain ⟨named1, a_typed⟩ := ends1
    apply (ih.eval right stored1 named1).bind
    intro d2 b m2 _ stored2 ends2
    obtain ⟨named2, b_typed⟩ := ends2
    exact Run.Safe.lift stored2 ((CompareOp.apply_answers a_typed b_typed rule _).mono
      fun v v_typed => ⟨named2, v_typed⟩)
  | unary operand rule noted =>
    rw [eval]
    apply (ih.eval operand stored named).bind
    intro d1 v m1 _ stored1 ends1
    obtain ⟨named1, v_typed⟩ := ends1
    exact Run.Safe.lift stored1 ((unary_answers v_typed rule noted).mono fun v v_typed =>
      ⟨named1, v_typed⟩)
  | build lookup fill covered noted =>
    rw [eval, lookup]
    refine (ih.evalFields (Struct.typed_of_struct? typed lookup) fill .empty stored named).bind ?_
    intro d1 fields m1 _ stored1 ends1
    obtain ⟨named1, fields_typed, _, given⟩ := ends1
    refine Run.Safe.lift_bind stored1 (withDefaults_answers typed lookup (fun _ => id)
      fields_typed fun m declared => (covered m declared).imp_left fun member => given member) ?_
    intro done ends
    obtain ⟨done_typed, complete⟩ := ends
    exact Run.Safe.pure stored1 ⟨named1, done_typed.hasType lookup complete⟩

theorem evalList_sound {params : List Param} {args : List Expr}
    (h : Expr.Match p names params args) (byValue : ∀ param ∈ params, param.byReference = false) :
    Run.Safe p.globals d (p.evalList (n + 1) args) m fun d' vs m' =>
      Named p.globals d' names m'.scopes ∧ Fit p.globals params vs := by
  cases h with
  | nil =>
    rw [evalList]
    exact Run.Safe.pure stored ⟨named, .nil⟩
  | value _ arg_typed accepted rest =>
    rw [evalList]
    apply (ih.eval arg_typed stored named).bind
    intro d1 v m1 _ stored1 ends1
    obtain ⟨named1, v_typed⟩ := ends1
    refine (ih.evalList rest (fun param member => byValue param (.tail _ member)) stored1
      named1).bind ?_
    intro d2 vs m2 _ stored2 ends2
    obtain ⟨named2, fit⟩ := ends2
    exact Run.Safe.pure stored2 ⟨named2, .cons ⟨_, accepted, v_typed⟩ fit⟩
  | @reference param _ _ _ _ shared _ _ =>
    rw [byValue param List.mem_cons_self] at shared
    cases shared

theorem evalSteps_sound {steps : List Step} {type part : Ty} {inString : Bool}
    (h : Step.Lead p names type steps part inString) :
    Run.Safe p.globals d (p.evalSteps (n + 1) steps) m fun d' path m' =>
      Named p.globals d' names m'.scopes ∧
        PathStep.Lead p.globals type path part inString := by
  cases h with
  | here =>
    rw [evalSteps]
    exact Run.Safe.pure stored ⟨named, .here⟩
  | item index_typed integer rest =>
    rw [evalSteps]
    apply (ih.eval index_typed stored named).bind
    intro d1 v m1 _ stored1 ends1
    obtain ⟨named1, v_typed⟩ := ends1
    obtain ⟨i, is_int⟩ := v_typed.int? integer
    rw [is_int]
    apply (ih.evalSteps rest stored1 named1).bind
    intro d2 path m2 _ stored2 ends2
    obtain ⟨named2, leads⟩ := ends2
    exact Run.Safe.pure stored2 ⟨named2, .item leads⟩
  | character index_typed integer =>
    rw [evalSteps]
    apply (ih.eval index_typed stored named).bind
    intro d1 v m1 _ stored1 ends1
    obtain ⟨named1, v_typed⟩ := ends1
    obtain ⟨i, is_int⟩ := v_typed.int? integer
    rw [is_int]
    -- No steps lead from a type without parts anywhere else.
    have last : Step.Lead p names .bool [] .bool false := .here
    apply (ih.evalSteps last stored1 named1).bind
    intro d2 path m2 _ stored2 ends2
    obtain ⟨named2, leads⟩ := ends2
    cases leads
    exact Run.Safe.pure stored2 ⟨named2, .character⟩
  | member lookup found rest =>
    rw [evalSteps]
    apply (ih.evalSteps rest stored named).bind
    intro d1 path m1 _ stored1 ends1
    obtain ⟨named1, leads⟩ := ends1
    exact Run.Safe.pure stored1 ⟨named1, .member lookup found leads⟩

theorem evalFields_sound {s : Struct} {earlier : List String} {given : List Field}
    {fields : List (String × Value)} (s_typed : s.Typed p)
    (h : Field.Fill p names s earlier given) (fields_typed : Value.FieldsOf p.globals s fields) :
    Run.Safe p.globals d (p.evalFields (n + 1) s fields given) m fun d' done m' =>
      Named p.globals d' names m'.scopes ∧ Value.FieldsOf p.globals s done ∧
        fields.map Prod.fst ⊆ done.map Prod.fst ∧ given.map Field.name ⊆ done.map Prod.fst := by
  cases h with
  | nil =>
    rw [evalFields]
    exact Run.Safe.pure stored ⟨named, fields_typed, List.Subset.refl _, List.nil_subset _⟩
  | cons found _ value_typed accepted rest =>
    rw [evalFields, found]
    apply (ih.eval value_typed stored named).bind
    intro d1 v m1 _ stored1 ends1
    obtain ⟨named1, v_typed⟩ := ends1
    have known := s_typed.known _ (List.mem_of_find?_eq_some found)
    refine (ih.evalFields s_typed rest
      (fields_typed.insert found (v_typed.coerce known.specific accepted)) stored1 named1).mono ?_
    intro d2 done m2 _ ends2
    obtain ⟨named2, done_typed, kept, others⟩ := ends2
    refine ⟨named2, done_typed, fun key before => ?_, fun key member => ?_⟩
    · exact kept (Value.mem_keys_insertField.mpr (.inr before))
    · rcases List.mem_cons.mp member with rfl | later
      · exact kept (Value.mem_keys_insertField.mpr (.inl rfl))
      · exact others later

theorem evalMethod_sound (typed : p.Typed) {position nameAt : Position} {root name : String}
    {steps : List Step} {args : List Expr} {b : Binding} {receiver : Ty} {inString : Bool}
    {k : Method} (bound : names.get? root = some b)
    (lead : Step.Lead p names b.type steps receiver inString)
    (lookup : Method.ofTy? receiver name = some k)
    (fit : Expr.Match p names (k.signatureOn receiver).params args) :
    Run.Safe p.globals d (p.evalMethod (n + 1) position root steps name nameAt args) m
      fun d' result m' => Named p.globals d' names m'.scopes ∧
        Option.Rel (Value.HasType p.globals) result k.signature.returns := by
  rw [evalMethod]
  refine Run.Safe.cellOf_bind named bound fun cell denotes => ?_
  apply (ih.evalSteps lead stored named).bind
  intro d1 path m1 grown1 stored1 ends1
  obtain ⟨named1, leads⟩ := ends1
  apply (ih.evalList fit k.byValue_signatureOn stored1 named1).bind
  intro d2 vs m2 grown2 stored2 ends2
  obtain ⟨named2, vs_fit⟩ := ends2
  have denotes2 := denotes.mono (grown1.trans grown2)
  have known := lead.known typed denotes.2
  have updated := (stored2.load denotes2.1).update leads
    (P := fun result => Option.Rel (Value.HasType p.globals) result k.signature.returns)
    (Method.call_answers lookup known vs_fit nameAt)
  exact Run.Safe.change stored2 denotes2.1 updated fun result v returned => ⟨named2, returned⟩

theorem evalCall_sound (typed : p.Typed) {callee : String} {args : List Expr}
    {position : Position} {s : Signature} (lookup : p.globals.signature? callee = some s)
    (fit : Expr.Match p names s.params args) :
    Run.Safe p.globals d (p.evalCall (n + 1) callee args position) m fun d' result m' =>
      Named p.globals d' names m'.scopes ∧
        Option.Rel (Value.HasType p.globals) result s.returns := by
  rw [evalCall]
  unfold Globals.signature? at lookup
  cases found : p.globals.function? callee with
  | some f =>
    rw [found] at lookup
    cases lookup
    have f_typed := typed.functions f (List.mem_of_find?_eq_some found)
    apply (ih.bindArguments fit f_typed.params stored named).bind
    intro d1 cells m1 _ stored1 ends1
    obtain ⟨named1, given⟩ := ends1
    apply (ih.invoke f_typed given stored1).mono
    intro d2 result m2 grown2 ends2
    obtain ⟨same, returned⟩ := ends2
    rw [same]
    exact ⟨named1.mono grown2, returned⟩
  | none =>
    rw [found] at lookup
    obtain ⟨b, known, rfl⟩ := Option.map_eq_some_iff.mp lookup
    dsimp only
    rw [known]
    apply (ih.evalList fit b.byValue_signature stored named).bind
    intro d1 vs m1 _ stored1 ends1
    obtain ⟨named1, vs_fit⟩ := ends1
    refine Run.Safe.lift_bind stored1 (b.apply_answers vs_fit position) fun line? _ => ?_
    cases line? with
    | none => exact Run.Safe.pure stored1 ⟨named1, .none⟩
    | some line => exact ⟨d1, List.prefix_rfl, stored1, named1, .none⟩

theorem bindArguments_sound {params : List Param} {args : List Expr}
    (h : Expr.Match p names params args)
    (known : ∀ param ∈ params, param.type.Known p.globals) :
    Run.Safe p.globals d (p.bindArguments (n + 1) params args) m fun d' cells m' =>
      Named p.globals d' names m'.scopes ∧ Given d' params cells := by
  cases h with
  | nil =>
    rw [bindArguments]
    · exact Run.Safe.pure stored ⟨named, .nil⟩
    · simp
  | value byValue arg_typed accepted rest =>
    rw [bindArguments, byValue, if_neg Bool.false_ne_true]
    obtain ⟨known_first, known_rest⟩ := List.forall_mem_cons.mp known
    apply (ih.eval arg_typed stored named).bind
    intro d1 v m1 _ stored1 ends1
    obtain ⟨named1, v_typed⟩ := ends1
    apply (Run.Safe.newCell stored1 (v_typed.coerce known_first.specific accepted)).bind
    intro d2 cell m2 grown2 stored2 ends2
    obtain ⟨fresh, same⟩ := ends2
    have named2 := named1.mono grown2
    rw [← same] at named2
    apply (ih.bindArguments rest known_rest stored2 named2).bind
    intro d3 cells m3 grown3 stored3 ends3
    obtain ⟨named3, given⟩ := ends3
    exact Run.Safe.pure stored3 ⟨named3, .cons (getElem?_of_grown grown3 fresh) given⟩
  | reference shared bound rest =>
    rw [bindArguments, if_pos shared]
    refine Run.Safe.cellOf_bind named bound fun cell denotes => ?_
    apply (ih.bindArguments rest (List.forall_mem_cons.mp known).2 stored named).bind
    intro d1 cells m1 grown1 stored1 ends1
    obtain ⟨named1, given⟩ := ends1
    exact Run.Safe.pure stored1 ⟨named1, .cons (getElem?_of_grown grown1 denotes.1) given⟩

omit named in
theorem invoke_sound {f : Function} {cells : List CellId} {position : Position}
    (f_typed : f.Typed p) (given : Given d f.params cells) :
    Run.Safe p.globals d (p.invoke (n + 1) f cells position) m fun _ result m' =>
      m'.scopes = m.scopes ∧ Option.Rel (Value.HasType p.globals) result f.returns := by
  rw [invoke]
  apply Run.Safe.get_bind
  split
  · exact Run.Safe.fail trivial stored
  · obtain ⟨names', body⟩ := f_typed.body
    have begun := Named.ofArguments given f_typed.params
    have inner := ih.execBlock (m := { m with
      scopes := Scopes.ofArguments f.params cells, depth := m.depth + 1 }) body stored begun
    have ran : Run.Safe p.globals d
        (Run.inCall (Scopes.ofArguments f.params cells) (p.execBlock n f.body)) m
        fun _ flow m' => m'.scopes = m.scopes ∧ flow.Suits p.globals f.returns false :=
      Run.Safe.inCall (inner.mono fun _ _ _ _ left => ⟨rfl, left.suits⟩)
    apply ran.bind
    intro d1 flow m1 _ stored1 ends1
    obtain ⟨same, suits⟩ := ends1
    cases declared : f.returns with
    | none => exact Run.Safe.pure stored1 ⟨same, .none⟩
    | some type =>
      rw [declared] at suits
      cases flow with
      | «return» result =>
        cases suits with
        | some found =>
          obtain ⟨found, v_typed, accepted⟩ := found
          have known := f_typed.returns type declared
          exact Run.Safe.pure stored1 ⟨same, .some (v_typed.coerce known.specific accepted)⟩
      | _ => exact Run.Safe.fail trivial stored1

end Expressions

section Statements

variable (ih : p.Sound n) (stored : Settled p.globals d m)
  (named : Named p.globals d names m.scopes) {returns : Option Ty} {inLoop : Bool}
  {names' : Scopes Binding}
include ih stored named

theorem execBlock_sound {body : List Stmt}
    (h : Stmt.BlockTyped p returns inLoop names body names') :
    Run.Safe p.globals d (p.execBlock (n + 1) body) m
      (Left p.globals returns inLoop names names') := by
  cases h with
  | nil =>
    rw [execBlock]
    exact Run.Safe.pure stored ⟨⟨names, rfl, fun _ => rfl, named⟩, trivial⟩
  | cons first others =>
    rw [execBlock]
    apply (ih.exec first stored named).bind
    intro d1 flow m1 _ stored1 ends1
    obtain ⟨⟨now, outer, normal, named1⟩, suits⟩ := ends1
    cases flow with
    | normal =>
      cases normal rfl
      apply (ih.execBlock others stored1 named1).mono
      intro d2 flow2 m2 _ ends2
      obtain ⟨⟨now2, outer2, normal2, named2⟩, suits2⟩ := ends2
      exact ⟨⟨now2, outer2.trans outer, normal2, named2⟩, suits2⟩
    | _ => exact Run.Safe.pure stored1 ⟨⟨now, outer, nofun, named1⟩, suits⟩

theorem inFrame_sound {body : List Stmt}
    (h : Stmt.BlockTyped p returns inLoop names.push body names') :
    Run.Safe p.globals d (Run.inFrame (p.execBlock n body)) m
      (Left p.globals returns inLoop names names) := by
  have inner := ih.execBlock (m := { m with scopes := m.scopes.push }) h stored named.push
  refine Run.Safe.inFrame (inner.mono ?_)
  intro d1 flow m1 _ ends1
  obtain ⟨⟨now, outer, _, named1⟩, suits⟩ := ends1
  have popped : now.pop = names := by rw [Scopes.pop, outer]; rfl
  have named2 := Scopes.Rel.pop named1
  rw [popped] at named2
  exact ⟨⟨names, rfl, fun _ => rfl, named2⟩, suits⟩

theorem execBranches_sound {branches : List (Branch Stmt)} {otherwise : Option (List Stmt)}
    (h : Stmt.BranchesTyped p returns inLoop names branches otherwise) :
    Run.Safe p.globals d (p.execBranches (n + 1) branches otherwise) m
      (Left p.globals returns inLoop names names) := by
  cases h with
  | none =>
    rw [execBranches]
    exact Run.Safe.pure stored ⟨⟨names, rfl, fun _ => rfl, named⟩, trivial⟩
  | otherwise body =>
    rw [execBranches]
    exact inFrame_sound ih stored named body
  | cons condition body others =>
    rw [execBranches]
    apply (ih.eval condition stored named).bind
    intro d1 v m1 _ stored1 ends1
    obtain ⟨named1, v_typed⟩ := ends1
    obtain ⟨holds, is_bool⟩ := v_typed.bool?
    rw [is_bool]
    cases holds with
    | true => exact inFrame_sound ih stored1 named1 body
    | false => exact ih.execBranches others stored1 named1

omit named in
theorem repeatBlock_sound {body : List Stmt}
    (h : Stmt.BlockTyped p returns true names.push body names')
    (named : Named p.globals d names.push m.scopes) :
    Run.Safe p.globals d (p.repeatBlock (n + 1) body) m fun d' flow m' =>
      Left p.globals returns false names names d' flow
        { m' with scopes := m'.scopes.pop } := by
  rw [repeatBlock]
  apply (ih.execBlock h stored named).bind
  intro d1 flow m1 _ stored1 ends1
  obtain ⟨⟨now, outer, _, named1⟩, suits⟩ := ends1
  have cleared : now.clear = names.push := by rw [Scopes.clear, outer]; rfl
  have popped : now.pop = names := by rw [Scopes.pop, outer]; rfl
  have again := Scopes.Rel.clear named1
  have named2 := Scopes.Rel.pop named1
  rw [cleared] at again
  rw [popped] at named2
  cases flow with
  | normal | «continue» => exact ih.repeatBlock h stored1 again
  | «break» => exact Run.Safe.pure stored1 ⟨⟨names, rfl, fun _ => rfl, named2⟩, trivial⟩
  | «return» result => exact Run.Safe.pure stored1 ⟨⟨names, rfl, nofun, named2⟩, suits⟩

theorem exec_assign_sound (typed : p.Typed) {position : Position} {target : Node}
    {root : String} {steps : List Step} {value : Expr} {b : Binding} {found type : Ty}
    (bound : names.get? root = some b) (value_typed : value.Typed p names found)
    (lead : Step.Lead p names b.type steps type false)
    (noted : p.types[target.id]? = some type) (accepted : type.accepts found = true) :
    Run.Safe p.globals d (p.exec (n + 1) (.assign position target root steps value)) m
      (Left p.globals returns inLoop names names) := by
  rw [exec]
  apply (ih.eval value_typed stored named).bind
  intro d1 v m1 _ stored1 ends1
  obtain ⟨named1, v_typed⟩ := ends1
  rw [typeOf_eq noted, Run.lift_ok_bind]
  refine Run.Safe.cellOf_bind named1 bound fun cell denotes => ?_
  apply (ih.evalSteps lead stored1 named1).bind
  intro d2 path m2 grown2 stored2 ends2
  obtain ⟨named2, leads⟩ := ends2
  have denotes2 := denotes.mono grown2
  have new_typed := v_typed.coerce (lead.known typed denotes.2).specific accepted
  have written := (stored2.load denotes2.1).write leads new_typed
  refine Run.Safe.change (N := (· = Flow.normal)) stored2 denotes2.1
    (written.bind fun new whole_typed => ⟨rfl, whole_typed⟩) fun flow new normal => ?_
  subst normal
  exact ⟨⟨names, rfl, fun _ => rfl, named2⟩, trivial⟩

theorem exec_sound (typed : p.Typed) {s : Stmt} (h : s.Typed p returns inLoop names names') :
    Run.Safe p.globals d (p.exec (n + 1) s) m (Left p.globals returns inLoop names names') := by
  cases h with
  | declare resolved known defaults noted defined =>
    rw [exec, typeOf_eq noted, Run.lift_ok_bind]
    refine Run.Safe.lift_bind stored (defaultWithin_answers typed defaults) fun v v_typed => ?_
    apply (Run.Safe.define stored named defined v_typed known).bind
    intro d1 _ m1 _ stored1 named1
    exact Run.Safe.pure stored1
      ⟨⟨names', Scopes.define?_outer defined, fun _ => rfl, named1⟩, trivial⟩
  | define resolved known value accepted noted defined =>
    rw [exec, typeOf_eq noted, Run.lift_ok_bind]
    apply (ih.eval value stored named).bind
    intro d1 v m1 _ stored1 ends1
    obtain ⟨named1, v_typed⟩ := ends1
    have new_typed := v_typed.coerce known.specific accepted
    apply (Run.Safe.define stored1 named1 defined new_typed known).bind
    intro d2 _ m2 _ stored2 named2
    exact Run.Safe.pure stored2
      ⟨⟨names', Scopes.define?_outer defined, fun _ => rfl, named2⟩, trivial⟩
  | assign bound _ _ value lead noted accepted =>
    exact exec_assign_sound ih stored named typed bound value lead noted accepted
  | loop body =>
    rw [exec]
    have inner := ih.repeatBlock (m := { m with scopes := m.scopes.push }) body stored named.push
    refine Run.Safe.inFrame (inner.mono ?_)
    intro d1 flow m1 _ ends1
    obtain ⟨around, suits⟩ := ends1
    refine ⟨around, ?_⟩
    cases flow with
    | «break» | «continue» => cases suits
    | _ => exact suits
  | choose branches =>
    rw [exec]
    exact ih.execBranches branches stored named
  | returnValue declared value accepted =>
    rw [exec]
    apply (ih.eval value stored named).bind
    intro d1 v m1 _ stored1 ends1
    obtain ⟨named1, v_typed⟩ := ends1
    refine Run.Safe.pure stored1 ⟨⟨names, rfl, nofun, named1⟩, ?_⟩
    rw [declared]
    exact .some ⟨_, v_typed, accepted⟩
  | returnNothing declared =>
    rw [exec]
    refine Run.Safe.pure stored ⟨⟨names, rfl, nofun, named⟩, ?_⟩
    rw [declared]
    exact .none
  | «break» | «continue» =>
    rw [exec]
    exact Run.Safe.pure stored ⟨⟨names, rfl, nofun, named⟩, rfl⟩
  | call lookup fit =>
    rw [exec]
    apply (ih.evalCall lookup fit stored named).bind
    intro d1 _ m1 _ stored1 ends1
    obtain ⟨named1, _⟩ := ends1
    exact Run.Safe.pure stored1 ⟨⟨names, rfl, fun _ => rfl, named1⟩, trivial⟩
  | method bound lead lookup _ fit =>
    rw [exec]
    apply (ih.evalMethod bound lead lookup fit stored named).bind
    intro d1 _ m1 _ stored1 ends1
    obtain ⟨named1, _⟩ := ends1
    exact Run.Safe.pure stored1 ⟨⟨names, rfl, fun _ => rfl, named1⟩, trivial⟩

end Statements

theorem sound (typed : p.Typed) (n : Nat) : p.Sound n := by
  -- Every function of the interpreter calls the others with one unit less.
  induction n with
  | zero => exact sound_zero
  | succ n ih =>
    constructor
    · exact fun h stored named => eval_sound ih stored named typed h
    · exact fun h byValue stored named => evalList_sound ih stored named h byValue
    · exact fun h stored named => evalSteps_sound ih stored named h
    · exact fun s_typed h fields stored named => evalFields_sound ih stored named s_typed h fields
    · exact fun bound lead lookup fit stored named =>
        evalMethod_sound ih stored named typed bound lead lookup fit
    · exact fun lookup fit stored named => evalCall_sound ih stored named typed lookup fit
    · exact fun h known stored named => bindArguments_sound ih stored named h known
    · exact fun f_typed given stored => invoke_sound ih stored f_typed given
    · exact fun h stored named => execBlock_sound ih stored named h
    · exact fun h stored named => exec_sound ih stored named typed h
    · exact fun h stored named => execBranches_sound ih stored named h
    · exact fun h stored named => repeatBlock_sound ih stored h named

end Program
end LoopLang
