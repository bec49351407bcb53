import LoopLang.Proofs.Relabelling.Carry
import LoopLang.Proofs.Relabelling.Matching
import LoopLang.Proofs.Tree.Unplaced

namespace LoopLang

variable {r : Relabelling} {g g' : Globals}

namespace Ty

theorem ofName_relabelled (same : g.Matches r g') (name : String) (position : Position) :
    ofName g' name (r.place position) =
      carry (Error.moved r.place) id (ofName g name position) := by
  rw [ofName, ofName, same.ofName?]
  cases ofName? g name <;> rfl

theorem resolve_relabelled (same : g.Matches r g') (position : Position) (type : Ty) :
    type.resolve g' (r.place position) =
      carry (Error.moved r.place) id (type.resolve g position) := by
  cases type with
  | named name => exact ofName_relabelled same name position
  | array element =>
    cases element with
    | named name => exact carry_bind (ofName_relabelled same name position) fun _ => rfl
    | _ => rfl
  | _ => rfl

end Ty

/-- A relation of tables that noting the same type under corresponding numbers keeps. -/
structure Noting (r : Relabelling) where
  related : TypeTable → TypeTable → Prop
  insert {types types' : TypeTable} (id : NodeId) (type : Ty) : related types types' →
    related (types.insert id type) (types'.insert (r.number id) type)

namespace Context

structure Alike (t : Noting r) (c c' : Context) : Prop where
  scopes : c'.scopes = c.scopes
  types : t.related c.types c'.types

end Context

namespace Check

variable {α β γ δ : Type} {act : α → β} {act' : γ → δ} {t : Noting r}

/-- What `y` checks with other labels is what `x` checks: it finds the same and notes the same
    types, or it fails with the same error at the other place. -/
def Follows (r : Relabelling) (t : Noting r) (act : α → β) (x : Check α) (y : Check β) : Prop :=
  ∀ c c' : Context, c.Alike t c' →
    match x c with
    | .ok (a, d) => ∃ d', y c' = .ok (act a, d') ∧ d.Alike t d'
    | .error e => y c' = .error (e.moved r.place)

namespace Follows

theorem pure (a : α) : Follows r t act (pure a) (pure (act a)) :=
  fun _ c' alike => ⟨c', rfl, alike⟩

theorem throw (e : Error) :
    Follows r t act (throw e : Check α) (throw (e.moved r.place)) := fun _ _ _ => rfl

theorem bind {x : Check α} {y : Check β} {k : α → Check γ} {k' : β → Check δ}
    (first : Follows r t act x y) (rest : ∀ a, Follows r t act' (k a) (k' (act a))) :
    Follows r t act' (x >>= k) (y >>= k') := by
  intro c c' alike
  change match (x c >>= fun pair => k pair.1 pair.2) with
    | .ok (a, d) => ∃ d', (y c' >>= fun pair => k' pair.1 pair.2) = .ok (act' a, d') ∧ d.Alike t d'
    | .error e => (y c' >>= fun pair => k' pair.1 pair.2) = .error (e.moved r.place)
  have start := first c c' alike
  cases run : x c with
  | error e =>
    rw [run] at start
    rw [start]
    rfl
  | ok pair =>
    rw [run] at start
    obtain ⟨d', run', alike'⟩ := start
    rw [run']
    exact rest pair.1 pair.2 d' alike'

theorem next {x y : Check α} {k : α → Check γ} {k' : α → Check δ} (first : Follows r t id x y)
    (rest : ∀ a, Follows r t act' (k a) (k' a)) : Follows r t act' (x >>= k) (y >>= k') :=
  first.bind rest

theorem mapM {k : α → Check γ} {k' : β → Check δ}
    (each : ∀ a, Follows r t act' (k a) (k' (act a))) (as : List α) :
    Follows r t (List.map act') (as.mapM k) ((as.map act).mapM k') := by
  induction as with
  | nil => exact .pure _
  | cons a as ih =>
    rw [List.map_cons, List.mapM_cons, List.mapM_cons]
    exact (each a).bind fun c => ih.bind fun cs => .pure _

end Follows

theorem follows_fail (position : Position) (cause : CompileCause) :
    Follows r t act (fail position cause) (fail (r.place position) cause) := .throw _

theorem follows_failInternally (position : Position) (defect : Defect) :
    Follows r t act (failInternally position defect) (failInternally (r.place position) defect) :=
  .throw _

theorem follows_liftAt (position : Position) (x : Except CompileCause α) :
    Follows r t id (liftAt position x) (liftAt (r.place position) x) := by
  cases x with
  | error cause => exact follows_fail position cause
  | ok a => exact .pure a

theorem follows_refuse {c : Prop} [Decidable c] {k : Unit → Check α} {k' : Unit → Check β}
    (position : Position) (cause : CompileCause) (rest : Follows r t act (k ()) (k' ())) :
    Follows r t act (if c then fail position cause >>= k else k ())
      (if c then fail (r.place position) cause >>= k' else k' ()) := by
  split
  · exact fun _ _ _ => rfl
  · exact rest

theorem follows_require {c : Prop} [Decidable c] {k : Unit → Check α} {k' : Unit → Check β}
    (position : Position) (cause : CompileCause) (rest : Follows r t act (k ()) (k' ())) :
    Follows r t act (if c then k () else fail position cause >>= k)
      (if c then k' () else fail (r.place position) cause >>= k') := by
  split
  · exact rest
  · exact fun _ _ _ => rfl

theorem follows_lift {x : Except Error α} {y : Except Error β}
    (carried : y = carry (Error.moved r.place) act x) :
    Follows r t act (liftM x : Check α) (liftM y : Check β) := by
  intro c c' alike
  subst carried
  cases x with
  | error e => rfl
  | ok a => exact ⟨c', rfl, alike⟩

theorem follows_record (node : Node) (type : Ty) :
    Follows r t id (record node type) (record (node.relabelled r) type) :=
  fun _ _ alike => ⟨_, rfl, alike.scopes, t.insert node.id type alike.types⟩

theorem follows_binding (name : String) : Follows r t id (binding? name) (binding? name) := by
  intro c c' alike
  have read : binding? name c' = .ok (c.scopes.get? name, c') := by
    rw [← alike.scopes]
    rfl
  exact ⟨c', read, alike⟩

theorem follows_declare (name : String) (type : Ty) (mutability : Mutability)
    (position : Position) :
    Follows r t id (declare name type mutability position)
      (declare name type mutability (r.place position)) := by
  intro c c' alike
  have step (f : Context → Check Unit) (c : Context) : (get >>= f) c = f c c := rfl
  rw [declare, declare, step, step, alike.scopes]
  cases c.scopes.define? name ⟨type, mutability⟩ with
  | none => rfl
  | some scopes => exact ⟨_, rfl, rfl, alike.types⟩

theorem follows_inBlock {body body' : Check α} (h : Follows r t id body body') :
    Follows r t id (inBlock body) (inBlock body') := by
  have change (s : Scopes Binding → Scopes Binding) : Follows r t id
      (modify fun c => { c with scopes := s c.scopes } : Check Unit)
      (modify fun c => { c with scopes := s c.scopes }) :=
    fun _ _ alike => ⟨_, rfl, congrArg s alike.scopes, alike.types⟩
  exact (change _).next fun _ => h.next fun a => (change _).next fun _ => .pure a

theorem follows_receiverMayChange (root method : String) (position : Position) :
    Follows r t id (receiverMayChange root method position)
      (receiverMayChange root method (r.place position)) := by
  refine (follows_binding root).next fun found => ?_
  cases found with
  | none => exact follows_failInternally _ _
  | some b =>
    dsimp only
    split
    · exact follows_fail _ _
    · exact .pure _

theorem follows_method (root : String) (receiver : Ty) (name : String) (position : Position) :
    Follows r t id (method root receiver name position)
      (method root receiver name (r.place position)) := by
  unfold method
  split
  · exact follows_fail _ _
  · exact follows_fail _ _
  · exact follows_failInternally _ _
  · exact follows_failInternally _ _
  all_goals
    cases Method.ofTy? _ name with
    | none => exact follows_fail _ _
    | some m =>
      dsimp only
      split
      · exact (follows_receiverMayChange _ _ _).next fun _ => .pure _
      · exact .pure _

def Alike (params params' : List Param) : Prop :=
  params'.map Param.unplaced = params.map Param.unplaced

theorem follows_argumentCount (callee : String) {params params' : List Param}
    (alike : Alike params params') (args : List Expr) (position : Position) :
    Follows r t id (argumentCount callee params args position)
      (argumentCount callee params' (Expr.relabelledAll r args) (r.place position)) := by
  have length : params'.length = params.length := by
    rw [← List.length_map (f := Param.unplaced), alike, List.length_map]
  have count : (Expr.relabelledAll r args).length = args.length := by
    rw [Expr.relabelledAll_eq_map, List.length_map]
  unfold argumentCount
  rw [length, count]
  split
  · exact follows_fail _ _
  · exact .pure _

theorem follows_referenceArgument (callee : String) {param param' : Param}
    (alike : param'.unplaced = param.unplaced) (arg : Expr) :
    Follows r t id (referenceArgument callee param arg)
      (referenceArgument callee param' (arg.relabelled r)) := by
  obtain ⟨name, type, byReference, position⟩ := param
  obtain ⟨name', type', byReference', position'⟩ := param'
  cases alike
  unfold referenceArgument
  rw [Expr.relabelled_bareName?, Expr.relabelled_position, Expr.relabelled_node]
  split
  · exact follows_fail _ _
  · refine (follows_binding _).next fun found => ?_
    cases found with
    | none => exact follows_fail _ _
    | some b =>
      dsimp only
      split
      · exact follows_fail _ _
      · split
        · exact follows_fail _ _
        · exact follows_record _ _

theorem follows_forM_record (returns : Option Ty) (node : Node) :
    Follows r t id (returns.forM (record node)) (returns.forM (record (node.relabelled r))) := by
  cases returns with
  | none => exact .pure _
  | some type => exact follows_record _ _

namespace Body

theorem follows_control (inLoop : Bool) (keyword : Keyword) (position : Position) :
    Follows r t id (control inLoop keyword position)
      (control inLoop keyword (r.place position)) := by
  unfold control
  split
  · exact .pure _
  · exact follows_fail _ _

end Body

theorem follows_root (same : g.Matches r g') (name : String) (position : Position) :
    Follows r t id (root g name position) (root g' name (r.place position)) := by
  refine (follows_binding name).next fun found => ?_
  cases found with
  | some b => exact .pure _
  | none =>
    dsimp only
    rw [same.isEnum]
    split
    · exact .pure _
    · exact follows_fail _ _

theorem follows_memberType (same : g.Matches r g') (type : Ty) (name : String)
    (position : Position) :
    Follows r t id (memberType g type name position)
      (memberType g' type name (r.place position)) := by
  unfold memberType
  split
  · rw [same.struct?]
    cases g.struct? _ with
    | none => exact follows_failInternally _ _
    | some s =>
      simp only [Option.map_some, Struct.relabelled_member?]
      cases s.member? name with
      | none => exact follows_fail _ _
      | some m => exact .pure _
  · exact follows_fail _ _

theorem function_bind (same : g.Matches r g') (callee : String) (position : Position)
    {k : Signature → Check α} {k' : Signature → Check β}
    (rest : ∀ s s' : Signature, Alike s.params s'.params → s'.returns = s.returns →
      Follows r t act (k s) (k' s')) :
    Follows r t act (function g callee position >>= k)
      (function g' callee (r.place position) >>= k') := by
  unfold function Globals.signature?
  rw [same.function?]
  cases g.function? callee with
  | some h =>
    refine rest _ _ ?_ rfl
    simp only [Alike, Function.relabelled, List.map_map]
    rfl
  | none =>
    dsimp only [Option.map_none]
    cases (Builtin.ofName? callee).map (·.signature) with
    | some s => exact rest s s rfl rfl
    | none => exact fun _ _ _ => rfl

theorem follows_missingFields (same : g.Matches r g') (s : Struct) (given : List String)
    (position : Position) :
    Follows r t id (missingFields g s given position)
      (missingFields g' (s.relabelled r) given (r.place position)) := by
  have same : ((s.relabelled r).members.find? fun m =>
      !given.contains m.name && m.default.isNone && !g'.hasDefault m.type) =
        (s.members.find? fun m =>
          !given.contains m.name && m.default.isNone && !g.hasDefault m.type).map
          (Member.relabelled r) := by
    simp only [same.hasDefault, Struct.relabelled, List.find?_map]
    congr 2
    funext m
    simp only [Function.comp_apply, Member.relabelled, Option.isNone_map]
  unfold missingFields
  rw [same]
  cases s.members.find? _ with
  | none => exact .pure _
  | some m => exact follows_fail _ _

mutual

theorem expr_follows (same : g.Matches r g') (e : Expr) :
    Follows r t id (expr g e) (expr g' (e.relabelled r)) := by
  cases e with
  | literal node value =>
    exact (follows_liftAt _ _).next fun type => (follows_record _ _).next fun _ => .pure _
  | place node root path =>
    refine (follows_root same root node.position).next fun reached => ?_
    refine (steps_follows same node.position reached path).next fun place => ?_
    exact (follows_record _ _).next fun _ => .pure _
  | method node root path called calledAt args =>
    refine (follows_root same root node.position).next fun reached => ?_
    refine (steps_follows same node.position reached path).next fun place => ?_
    refine (follows_method _ _ _ _).next fun s => ?_
    refine (follows_argumentCount _ rfl _ _).next fun _ => ?_
    refine (arguments_follows same called rfl args).next fun _ => ?_
    cases s.returns with
    | none => exact follows_fail _ _
    | some type => exact (follows_record _ _).next fun _ => .pure _
  | call node callee args =>
    refine function_bind same callee node.position fun s s' alike returns => ?_
    refine (follows_argumentCount _ alike _ _).next fun _ => ?_
    refine (arguments_follows same callee alike args).next fun _ => ?_
    rw [returns]
    cases s.returns with
    | none => exact follows_fail _ _
    | some type => exact (follows_record _ _).next fun _ => .pure _
  | math node op left right =>
    refine (expr_follows same left).next fun leftType =>
      (expr_follows same right).next fun rightType => ?_
    rw [Expr.relabelled_constant?, Expr.relabelled_constant?]
    have last (folded : Option Constant) : Follows r t id
        (do
          let type ← liftAt node.position <|
            match folded with
            | some constant => Ty.ofConstant constant
            | none => Ty.ofMath op leftType rightType
          record node type
          return type)
        (do
          let type ← liftAt (r.place node.position) <|
            match folded with
            | some constant => Ty.ofConstant constant
            | none => Ty.ofMath op leftType rightType
          record (node.relabelled r) type
          return type) :=
      (follows_liftAt _ _).next fun type => (follows_record _ _).next fun _ => .pure _
    split
    · exact (follows_liftAt _ _).next last
    · exact last none
  | compare node op left right =>
    refine (expr_follows same left).next fun leftType =>
      (expr_follows same right).next fun rightType => ?_
    exact (follows_liftAt _ _).next fun type => (follows_record _ _).next fun _ => .pure _
  | unary node op operand =>
    refine (expr_follows same operand).next fun type => (follows_liftAt _ _).next fun type => ?_
    exact (follows_record _ _).next fun _ => .pure _
  | build node name given =>
    simp only [Expr.relabelled, expr, same.struct?]
    cases g.struct? name with
    | none => exact follows_fail _ _
    | some s =>
      refine (fields_follows same s [] given).next fun _ => ?_
      rw [Field.relabelledAll_names]
      refine (follows_missingFields same s _ _).next fun _ => ?_
      exact (follows_record _ _).next fun _ => .pure _
termination_by structural e

theorem steps_follows (same : g.Matches r g') (position : Position) (reached : Reached)
    (path : List Step) :
    Follows r t id (steps g position reached path)
      (steps g' (r.place position) reached (Step.relabelledAll r path)) := by
  cases path with
  | nil =>
    cases reached with
    | enum enum => exact follows_fail _ _
    | part type inString => exact .pure _
  | cons step path =>
    cases step with
    | member name nameAt =>
      cases reached with
      | enum enum =>
        simp only [Step.relabelledAll, Step.relabelled, steps, same.ofEnumMember]
        exact (follows_liftAt _ _).next fun type => steps_follows same position _ path
      | part type inString =>
        exact (follows_memberType same type name nameAt).next fun type =>
          steps_follows same position _ path
    | index index =>
      cases reached with
      | enum enum => exact follows_fail _ _
      | part type inString =>
        simp only [Step.relabelledAll, Step.relabelled, steps, Expr.relabelled_position]
        refine (expr_follows same index).next fun t => follows_refuse _ _ ?_
        cases type.item? with
        | none => exact follows_fail _ _
        | some item => exact steps_follows same position _ path
termination_by structural path

theorem arguments_follows (same : g.Matches r g') (callee : String)
    {params params' : List Param} (alike : Alike params params') (args : List Expr) :
    Follows r t id (arguments g callee params args)
      (arguments g' callee params' (Expr.relabelledAll r args)) := by
  cases args with
  | nil =>
    simp only [Expr.relabelledAll, arguments]
    exact .pure _
  | cons arg args =>
    rcases params with _ | ⟨⟨name, type, byReference, position⟩, params⟩
    · rw [List.map_eq_nil_iff.mp alike]
      simp only [Expr.relabelledAll, arguments]
      exact .pure _
    · obtain ⟨⟨name', type', byReference', position'⟩, params', rfl, same, others⟩ :=
        List.map_eq_cons_iff.mp alike
      cases same
      simp only [Expr.relabelledAll, arguments, Expr.relabelled_position]
      split
      · exact (follows_referenceArgument callee rfl arg).next fun _ =>
          arguments_follows same callee others args
      · refine (expr_follows same arg).next fun found => follows_require _ _ ?_
        exact arguments_follows same callee others args
termination_by structural args

theorem fields_follows (same : g.Matches r g') (s : Struct) (earlier : List String)
    (given : List Field) :
    Follows r t id (fields g s earlier given)
      (fields g' (s.relabelled r) earlier (Field.relabelledAll r given)) := by
  cases given with
  | nil => exact .pure _
  | cons field rest =>
    obtain ⟨name, position, value⟩ := field
    simp only [Field.relabelledAll, Field.relabelled, fields, Struct.relabelled_member?,
      Expr.relabelled_position]
    cases s.member? name with
    | none => exact follows_fail _ _
    | some m =>
      refine follows_refuse _ _ ?_
      refine (expr_follows same value).next fun type => follows_require _ _ ?_
      exact fields_follows same s _ rest
termination_by structural given

end

namespace Body

variable {f : Function}

theorem follows_resolve (same : g.Matches r g') (position : Position) (type : Ty) :
    Follows r t id (Body.resolve ⟨g, f⟩ position type)
      (Body.resolve ⟨g', f.relabelled r⟩ (r.place position) type) :=
  follows_lift (Ty.resolve_relabelled same position type)

theorem follows_condition (same : g.Matches r g') (e : Expr) :
    Follows r t id (Body.condition ⟨g, f⟩ e)
      (Body.condition ⟨g', f.relabelled r⟩ (e.relabelled r)) := by
  refine (expr_follows same e).next fun type => ?_
  rw [Expr.relabelled_position]
  split
  · exact .pure _
  · exact follows_fail _ _

theorem follows_assignable (same : g.Matches r g') (root : String) (path : List Step)
    (position : Position) :
    Follows r t id (Body.assignable ⟨g, f⟩ root path position)
      (Body.assignable ⟨g', f.relabelled r⟩ root (Step.relabelledAll r path)
        (r.place position)) := by
  refine (follows_binding root).next fun found => ?_
  cases found with
  | some binding =>
    have empty : (Step.relabelledAll r path).isEmpty = path.isEmpty := by cases path <;> rfl
    dsimp only
    rw [empty]
    split
    · exact .pure _
    · exact follows_fail _ _
    · split
      · exact follows_fail _ _
      · exact .pure _
  | none =>
    dsimp only
    rw [same.isEnum]
    split
    · exact follows_fail _ _
    · exact .pure _

theorem follows_assign (same : g.Matches r g') (position : Position) (target : Node)
    (root : String) (path : List Step) (value : Expr) :
    Follows r t id (Body.assign ⟨g, f⟩ position target root path value)
      (Body.assign ⟨g', f.relabelled r⟩ (r.place position) (target.relabelled r) root
        (Step.relabelledAll r path) (value.relabelled r)) := by
  unfold assign
  rw [Expr.relabelled_position]
  refine (expr_follows same value).next fun type => ?_
  refine (follows_assignable same root path position).next fun _ => ?_
  refine (follows_root same root target.position).next fun reached => ?_
  refine (steps_follows same target.position reached path).next fun place => ?_
  refine follows_refuse _ _ ((follows_record _ _).next fun _ => ?_)
  split
  · exact .pure _
  · exact follows_fail _ _

theorem follows_returned (same : g.Matches r g') (value : Option Expr) (position : Position) :
    Follows r t id (Body.returned ⟨g, f⟩ value position)
      (Body.returned ⟨g', f.relabelled r⟩ (value.map (Expr.relabelled r)) (r.place position)) := by
  unfold returned
  have returns : (f.relabelled r).returns = f.returns := rfl
  rw [returns]
  cases value with
  | none =>
    cases f.returns with
    | none => exact .pure _
    | some type => exact follows_fail _ _
  | some e =>
    cases f.returns with
    | none => exact follows_fail _ _
    | some type =>
      refine (expr_follows same e).next fun found => ?_
      rw [Expr.relabelled_position]
      split
      · exact .pure _
      · exact follows_fail _ _

theorem follows_call (same : g.Matches r g') (node : Node) (callee : String) (args : List Expr) :
    Follows r t id (Body.call ⟨g, f⟩ node callee args)
      (Body.call ⟨g', f.relabelled r⟩ (node.relabelled r) callee (Expr.relabelledAll r args)) := by
  refine function_bind same callee node.position fun s s' alike returns => ?_
  refine (follows_argumentCount _ alike _ _).next fun _ => ?_
  refine (arguments_follows same callee alike args).next fun _ => ?_
  rw [returns]
  exact follows_forM_record _ _

theorem follows_methodCall (same : g.Matches r g') (node : Node) (root : String)
    (path : List Step) (name : String) (nameAt : Position) (args : List Expr) :
    Follows r t id (Body.methodCall ⟨g, f⟩ node root path name nameAt args)
      (Body.methodCall ⟨g', f.relabelled r⟩ (node.relabelled r) root (Step.relabelledAll r path)
        name (r.place nameAt) (Expr.relabelledAll r args)) := by
  refine (follows_root same root node.position).next fun reached => ?_
  refine (steps_follows same node.position reached path).next fun place => ?_
  refine (follows_method _ _ _ _).next fun s => ?_
  refine (follows_argumentCount _ rfl _ _).next fun _ => ?_
  refine (arguments_follows same name rfl args).next fun _ => ?_
  exact follows_forM_record _ _

mutual

theorem stmt_follows (same : g.Matches r g') (inLoop : Bool) : (s : Stmt) →
    Follows r t id (Body.stmt ⟨g, f⟩ inLoop s)
      (Body.stmt ⟨g', f.relabelled r⟩ inLoop (s.relabelled r))
  | .declare node name type => by
    refine (follows_resolve same _ _).next fun type => ?_
    rw [same.hasDefault]
    refine follows_require _ _ ((follows_record _ _).next fun _ => ?_)
    exact follows_declare _ _ _ _
  | .define node name type value isConst => by
    simp only [Stmt.relabelled, stmt, Expr.relabelled_position]
    refine (follows_resolve same _ _).next fun type => ?_
    refine (expr_follows same value).next fun found => ?_
    refine follows_require _ _ ((follows_record _ _).next fun _ => ?_)
    exact follows_declare _ _ _ _
  | .assign position target root path value => follows_assign same position target root path value
  | .loop _ body => follows_inBlock (stmts_follows same true body)
  | .choose _ ⟨test, body⟩ elifs none => by
    refine (follows_condition same test).next fun _ => ?_
    refine (follows_inBlock (stmts_follows same inLoop body)).next fun _ => ?_
    exact (branches_follows same inLoop elifs).next fun _ => .pure _
  | .choose _ ⟨test, body⟩ elifs (some last) => by
    refine (follows_condition same test).next fun _ => ?_
    refine (follows_inBlock (stmts_follows same inLoop body)).next fun _ => ?_
    refine (branches_follows same inLoop elifs).next fun _ => ?_
    exact follows_inBlock (stmts_follows same inLoop last)
  | .return position value => follows_returned same value position
  | .break position => follows_control inLoop .break_ position
  | .continue position => follows_control inLoop .continue_ position
  | .call _ node callee args => follows_call same node callee args
  | .place position _ _ _ => follows_fail position _
  | .method _ node root path name nameAt args =>
    follows_methodCall same node root path name nameAt args
termination_by structural s => s

theorem stmts_follows (same : g.Matches r g') (inLoop : Bool) : (body : List Stmt) →
    Follows r t id (Body.stmts ⟨g, f⟩ inLoop body)
      (Body.stmts ⟨g', f.relabelled r⟩ inLoop (Stmt.relabelledAll r body))
  | [] => .pure ()
  | s :: rest => (stmt_follows same inLoop s).next fun _ => stmts_follows same inLoop rest
termination_by structural body => body

theorem branches_follows (same : g.Matches r g') (inLoop : Bool) : (elifs : List (Branch Stmt)) →
    Follows r t id (Body.branches ⟨g, f⟩ inLoop elifs)
      (Body.branches ⟨g', f.relabelled r⟩ inLoop (Stmt.relabelledBranches r elifs))
  | [] => .pure ()
  | ⟨test, body⟩ :: rest => by
    refine (follows_condition same test).next fun _ => ?_
    refine (follows_inBlock (stmts_follows same inLoop body)).next fun _ => ?_
    exact branches_follows same inLoop rest
termination_by structural elifs => elifs

end

end Body

theorem follows_params (ps : List Param) :
    Follows r t id (params ps) (params (ps.map (Param.moved r.place))) := by
  induction ps with
  | nil => exact .pure _
  | cons p ps ih => exact (follows_declare _ _ _ _).next fun _ => ih

theorem functionBody_follows (same : g.Matches r g') (f : Function) {types types' : TypeTable}
    (related : t.related types types') :
    match functionBody g f types with
    | .ok found => ∃ found', functionBody g' (f.relabelled r) types' = .ok found' ∧
        t.related found found'
    | .error e => functionBody g' (f.relabelled r) types' = .error (e.moved r.place) := by
  have body : Follows r t id (do params f.params; Body.stmts ⟨g, f⟩ false f.body)
      (do params (f.relabelled r).params
          Body.stmts ⟨g', f.relabelled r⟩ false (f.relabelled r).body) :=
    (follows_params f.params).next fun _ => Body.stmts_follows same false f.body
  have checked := body ⟨types, Scopes.empty⟩ ⟨types', Scopes.empty⟩ ⟨rfl, related⟩
  have inside (g : Globals) (f : Function) (types : TypeTable) : functionBody g f types =
      ((do params f.params; Body.stmts ⟨g, f⟩ false f.body : Check Unit)
        ⟨types, Scopes.empty⟩ >>= fun pair => pure pair.2.types) := rfl
  rw [inside, inside]
  cases run : (do params f.params; Body.stmts ⟨g, f⟩ false f.body : Check Unit)
    ⟨types, Scopes.empty⟩ with
  | error e =>
    rw [run] at checked
    rw [checked]
    rfl
  | ok pair =>
    rw [run] at checked
    obtain ⟨d', run', alike⟩ := checked
    rw [run']
    exact ⟨d'.types, rfl, alike.types⟩

end Check

namespace Struct

variable {t : Noting r}

theorem follows_defaultType (same : g.Matches r g') (e : Expr) :
    Check.Follows r t id (defaultType g e) (defaultType g' (e.relabelled r)) := by
  cases e with
  | literal node value =>
    exact (Check.follows_liftAt _ _).next fun type =>
      (Check.follows_record _ _).next fun _ => .pure _
  | place node root steps =>
    rcases steps with _ | ⟨index | ⟨name, nameAt⟩, _ | ⟨_, _⟩⟩
    case cons.member.nil =>
      simp only [Expr.relabelled, Step.relabelledAll, Step.relabelled, defaultType, same.isEnum,
        same.ofEnumMember]
      refine Check.follows_require _ _ ((Check.follows_liftAt _ _).next fun type => ?_)
      exact (Check.follows_record _ _).next fun _ => .pure _
    all_goals exact Check.follows_fail _ _
  | _ => exact Check.follows_fail _ _

theorem follows_resolveMember (same : g.Matches r g') (m : Member) :
    Check.Follows r t (Member.relabelled r) (resolveMember g m)
      (resolveMember g' (m.relabelled r)) := by
  obtain ⟨name, declared, default, position⟩ := m
  refine (Check.follows_lift (Ty.resolve_relabelled same position declared)).next fun type => ?_
  cases default with
  | none => exact .pure (Member.mk name type none position)
  | some e =>
    refine (follows_defaultType same e).next fun found => ?_
    rw [Expr.relabelled_position]
    refine Check.follows_require _ _ ?_
    exact .pure (Member.mk name type (some e) position)

theorem follows_resolve (same : g.Matches r g') (s : Struct) :
    Check.Follows r t (Struct.relabelled r) (s.resolve g) ((s.relabelled r).resolve g') :=
  (Check.Follows.mapM (follows_resolveMember same) s.members).bind fun members =>
    .pure { s with members }

theorem visit_relabelled (structs : List Struct) (depth : Nat) (path done : List String)
    (name : String) :
    visit (structs.map (Struct.relabelled r)) depth path done name =
      carry (Struct.relabelled r) id (visit structs depth path done name) := by
  induction depth generalizing path done name with
  | zero => rfl
  | succ depth ih =>
    rw [visit, visit]
    split
    · rfl
    · have found : (structs.map (Struct.relabelled r)).find? (·.name == name) =
          (structs.find? (·.name == name)).map (Struct.relabelled r) := List.find?_map
      rw [found]
      cases structs.find? (·.name == name) with
      | none => rfl
      | some s =>
        simp only [Option.map_some]
        split
        · rfl
        · refine carry_bind (carry_foldlM (fun done m => ?_) s.members done) fun _ => rfl
          cases m with | mk name type default position =>
          cases type with
          | struct inner => exact ih _ _ _
          | _ => rfl

theorem inItself?_relabelled (structs : List Struct) :
    inItself? (structs.map (Struct.relabelled r)) =
      (inItself? structs).map (Struct.relabelled r) := by
  have same : (structs.map (Struct.relabelled r)).foldlM (m := Except Struct) (fun done s =>
      visit (structs.map (Struct.relabelled r)) (structs.length + 1) [] done s.name) [] =
        carry (Struct.relabelled r) id (structs.foldlM (fun done s =>
          visit structs (structs.length + 1) [] done s.name) []) :=
    carry_foldlM (fun done s => visit_relabelled structs _ [] done s.name) structs []
  rw [inItself?, inItself?, List.length_map, same]
  cases structs.foldlM (m := Except Struct) _ [] <;> rfl

end Struct

namespace Function

theorem resolve_relabelled (same : g.Matches r g') (h : Function) :
    (h.relabelled r).resolve g' =
      carry (Error.moved r.place) (Function.relabelled r) (h.resolve g) := by
  have param (p : Param) : (do return { Param.moved r.place p with
        type := ← p.type.resolve g' (r.place p.position) } : Except Error Param) =
      carry (Error.moved r.place) (Param.moved r.place)
        (do return { p with type := ← p.type.resolve g p.position }) :=
    carry_bind (Ty.resolve_relabelled same p.position p.type) fun type => rfl
  have returns : (h.returns.mapM (m := Except Error) fun type =>
      type.resolve g' (r.place h.position)) =
      carry (Error.moved r.place) id (h.returns.mapM fun type => type.resolve g h.position) := by
    cases h.returns with
    | none => rfl
    | some type => exact carry_bind (Ty.resolve_relabelled same h.position type) fun _ => rfl
  exact carry_bind (carry_mapM param h.params) fun params => carry_bind returns fun returns => rfl

end Function

theorem Error.within_moved (f : Relocation) (function : Enclosing) (e : Error) :
    Error.within (function.moved f) (e.moved f) = (Error.within function e).moved f := by
  cases e with
  | compile e =>
    obtain ⟨cause, position, named⟩ := e
    cases named <;> rfl
  | _ => rfl

end LoopLang
