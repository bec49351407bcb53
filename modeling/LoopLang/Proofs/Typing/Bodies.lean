import LoopLang.Proofs.Typing.Checked

namespace LoopLang

namespace Ty

variable {g : Globals} {position : Position} {written type : Ty}

theorem known_of_ofName {name : String} (h : ofName g name position = .ok type) :
    type.Known g := by
  simp only [ofName, ofName?] at h
  split at h
  · rename_i found
    cases h
    split at found
    · cases found; trivial
    · split at found
      · rename_i defined
        cases found
        obtain ⟨s, lookup⟩ := Option.isSome_iff_exists.mp defined
        have same := List.find?_some lookup
        exact List.mem_map.mpr ⟨s, List.mem_of_find?_eq_some lookup, by simpa using same⟩
      · split at found
        · rename_i defined
          cases found
          obtain ⟨e, lookup⟩ := Option.isSome_iff_exists.mp defined
          have same := List.find?_some lookup
          exact List.mem_map.mpr ⟨e, List.mem_of_find?_eq_some lookup, by simpa using same⟩
        · cases found
  · cases h

theorem Written.known (h : written.Written) (resolved : written.resolve g position = .ok type) :
    type.Known g := by
  unfold Written at h
  split at h
  · exact known_of_ofName resolved
  · rename_i name
    change (ofName g name position >>= fun t => pure (array t)) = .ok type at resolved
    cases element : ofName g name position with
    | error e => rw [element] at resolved; cases resolved
    | ok t =>
      rw [element] at resolved
      cases resolved
      have known : t.Known g := known_of_ofName element
      exact known
  · exact h.elim

end Ty

namespace Check

variable {p : Program} {f : Function} {c : Context}

theorem inBlock_yields {α : Type} {x : Check α} {post : α → Context → Prop}
    (h : x.Yields { c with scopes := c.scopes.push } fun a c' =>
      post a { c' with scopes := c'.scopes.pop }) : (inBlock x).Yields c post := by
  intro a c' run
  change (x { c with scopes := c.scopes.push } >>= fun pair =>
    (Except.ok (pair.1, { pair.2 with scopes := pair.2.scopes.pop }) : Except Error _)) = _ at run
  cases body : x { c with scopes := c.scopes.push } with
  | error e => rw [body] at run; cases run
  | ok pair =>
    rw [body] at run
    cases run
    exact h pair.1 pair.2 body

theorem declare_yields (name : String) (type : Ty) (mutability : Mutability)
    (position : Position) :
    (declare name type mutability position).Yields c fun _ c' => ∃ scopes,
      c.scopes.define? name ⟨type, mutability⟩ = some scopes ∧ c' = { c with scopes } := by
  intro _ c' run
  have step (f : Context → Check Unit) : (get >>= f) c = f c c := rfl
  rw [declare, step] at run
  cases defined : c.scopes.define? name ⟨type, mutability⟩ with
  | none => rw [defined] at run; cases run
  | some scopes =>
    rw [defined] at run
    cases run
    exact ⟨scopes, rfl, rfl⟩

theorem recordReturn_yields (p : Program) (node : Node) (returns : Option Ty) :
    (returns.forM (record node)).Yields c fun _ c' => c.Notes p [node.id] c' True := by
  cases returns with
  | none => exact Yields.pure ⟨rfl, fun _ _ => rfl, fun _ => trivial⟩
  | some type =>
    intro _ c' run
    cases run
    exact (Context.Notes.insert c node type).imp fun _ => trivial

theorem resolve_yields (position : Position) (type : Ty) (written : type.Written) :
    (Body.resolve ⟨p.globals, f⟩ position type).Yields c fun t c' => c' = c ∧
      type.resolve p.globals position = .ok t ∧ t.Known p.globals := by
  refine (lift_yields (type.resolve p.globals position)).mono ?_
  intro t _ ends
  obtain ⟨rfl, resolved⟩ := ends
  exact ⟨rfl, resolved, written.known resolved⟩

theorem condition_yields (e : Expr) (distinct : e.ids.Nodup) :
    (Body.condition ⟨p.globals, f⟩ e).Yields c fun _ c' =>
      c.Notes p e.ids c' (e.Typed p c.scopes .bool) := by
  refine (expr_yields p e distinct c).bind fun type c1 typed => ?_
  split
  · rename_i same
    exact Yields.pure (same ▸ typed)
  · exact Yields.fail

theorem assignable_yields (root : String) (path : List Step) (position : Position) :
    (Body.assignable ⟨p.globals, f⟩ root path position).Yields c fun _ c' => c' = c ∧
      (c.scopes.get? root = none → p.globals.isEnum root = false) ∧
      ∀ b, c.scopes.get? root = some b → b.mutability ≠ .constant ∧
        (b.mutability = .parameter → path ≠ []) := by
  apply binding_bind
  split
  · rename_i b bound
    rw [bound]
    split
    · rename_i mutable
      exact Yields.pure ⟨rfl, nofun, by simp [mutable]⟩
    · exact Yields.fail
    · rename_i parameter
      split
      · exact Yields.fail
      · rename_i part
        exact Yields.pure ⟨rfl, nofun, by simpa [parameter] using part⟩
  · rename_i free
    rw [free]
    split
    · exact Yields.fail
    · rename_i other
      exact Yields.pure ⟨rfl, by simpa using other⟩

theorem assign_yields (position : Position) (target : Node) (root : String) (path : List Step)
    (value : Expr) (distinct : (Step.idsOf path ++ [target.id] ++ value.ids).Nodup)
    (inLoop : Bool) :
    (Body.assign ⟨p.globals, f⟩ position target root path value).Yields c fun _ c' =>
      c.Notes p (Step.idsOf path ++ [target.id] ++ value.ids) c'
        ((Stmt.assign position target root path value).Typed p f.returns inLoop c.scopes
          c.scopes) := by
  have turned : (value.ids ++ (Step.idsOf path ++ [target.id])).Nodup :=
    List.nodup_append_comm.mp distinct
  refine (expr_yields p value turned.of_append_left c).bind fun found c1 typed => ?_
  refine (assignable_yields root path position).bind ?_
  intro _ _ ends
  obtain ⟨rfl, free_other, assignable⟩ := ends
  refine (root_yields p.globals root target.position).bind ?_
  intro reached _ ends
  obtain ⟨rfl, means⟩ := ends
  refine (steps_yields p target.position path turned.of_append_right.of_append_left reached
    _).bind ?_
  intro pair c2 meets
  obtain ⟨type, inString⟩ := pair
  cases inString with
  | true => exact Yields.refuse
  | false =>
    apply record_bind
    split
    · rename_i accepted
      have all := typed.seq (meets.record target type turned.of_append_right) turned
      refine Yields.pure ((all.perm List.perm_append_comm).imp ?_)
      intro all
      obtain ⟨value_typed, met, noted⟩ := all
      rw [typed.1] at assignable free_other means met
      rcases means with ⟨b, bound, rfl⟩ | ⟨free, rfl⟩
      · obtain ⟨after, same, lead⟩ := met
        obtain ⟨writable, part⟩ := assignable b bound
        cases same
        exact .assign bound writable part value_typed lead noted accepted
      · obtain ⟨_, _, e, _, found, _⟩ := met
        have other := free_other free
        rw [Globals.isEnum, found] at other
        cases other
    · exact Yields.fail

theorem call_yields (node : Node) (callee : String) (args : List Expr) (position : Position)
    (distinct : (Expr.idsOf args ++ [node.id]).Nodup) (inLoop : Bool) :
    (Body.call ⟨p.globals, f⟩ node callee args).Yields c fun _ c' =>
      c.Notes p (Expr.idsOf args ++ [node.id]) c'
        ((Stmt.call position node callee args).Typed p f.returns inLoop c.scopes c.scopes) := by
  refine (function_yields callee node.position).bind ?_
  intro s _ ends
  obtain ⟨rfl, lookup⟩ := ends
  refine (argumentCount_yields _ _ _ _).bind ?_
  intro _ _ ends
  obtain ⟨rfl, count⟩ := ends
  refine (arguments_yields p callee args distinct.of_append_left _ count _).bind
    fun _ c1 fits => ?_
  refine (recordReturn_yields p node s.returns).mono fun _ c2 noted => ?_
  exact (fits.seq noted distinct).imp fun found => .call lookup found.1

theorem methodCall_yields (node : Node) (root : String) (path : List Step) (name : String)
    (nameAt : Position) (args : List Expr) (position : Position)
    (distinct : (Step.idsOf path ++ Expr.idsOf args ++ [node.id]).Nodup) (inLoop : Bool) :
    (Body.methodCall ⟨p.globals, f⟩ node root path name nameAt args).Yields c fun _ c' =>
      c.Notes p (Step.idsOf path ++ Expr.idsOf args ++ [node.id]) c'
        ((Stmt.method position node root path name nameAt args).Typed p f.returns inLoop
          c.scopes c.scopes) := by
  refine (root_yields p.globals root node.position).bind ?_
  intro reached _ ends
  obtain ⟨rfl, means⟩ := ends
  refine (steps_yields p node.position path distinct.of_append_left.of_append_left
    reached _).bind ?_
  intro pair c1 meets
  obtain ⟨receiver, inString⟩ := pair
  refine (method_yields root receiver name nameAt).bind ?_
  intro _ _ ends
  obtain ⟨rfl, m, lookup, rfl, changes⟩ := ends
  refine (argumentCount_yields _ _ _ _).bind ?_
  intro _ _ ends
  obtain ⟨rfl, count⟩ := ends
  refine (arguments_yields p name args distinct.of_append_left.of_append_right _ count
    _).bind fun _ c2 fits => ?_
  refine (recordReturn_yields p node _).mono fun _ c3 noted => ?_
  apply ((meets.seq fits distinct.of_append_left).seq noted distinct).imp
  intro all
  obtain ⟨⟨met, args_fit⟩, -⟩ := all
  rw [meets.1] at args_fit changes
  obtain ⟨b, after, bound, lead, writable⟩ := means.receiver met lookup changes
  exact .method bound lead lookup writable args_fit

theorem returned_yields (value : Option Expr) (position : Position)
    (distinct : (Stmt.return position value).ids.Nodup) (inLoop : Bool) :
    (Body.returned ⟨p.globals, f⟩ value position).Yields c fun _ c' =>
      c.Notes p (Stmt.return position value).ids c'
        ((Stmt.return position value).Typed p f.returns inLoop c.scopes c.scopes) := by
  unfold Body.returned
  split
  · rename_i e returns declared
    rw [Stmt.ids] at distinct
    refine (expr_yields p e distinct c).bind fun found c1 typed => ?_
    split
    · rename_i accepted
      exact Yields.pure (typed.imp fun typed => .returnValue declared typed accepted)
    · exact Yields.fail
  · exact Yields.fail
  · exact Yields.fail
  · rename_i declared
    exact Yields.pure (.nothing (.returnNothing declared))

def Passes (p : Program) (c : Context) (ids : List NodeId) (c' : Context) (fact : Prop) : Prop :=
  c'.scopes.outer = c.scopes.outer ∧ c.Finds p ids c' fact

theorem passes_of_notes {ids : List NodeId} {c' : Context} {P : Scopes Binding → Prop}
    (h : c.Notes p ids c' (P c.scopes)) : Passes p c ids c' (P c'.scopes) :=
  ⟨by rw [h.1], h.1.symm ▸ h.2⟩

theorem declaration_yields (node : Node) (name : String) (type : Ty) (written : type.Written)
    (inLoop : Bool) :
    (Body.stmt ⟨p.globals, f⟩ inLoop (.declare node name type)).Yields c fun _ c' =>
      Passes p c [node.id] c'
        ((Stmt.declare node name type).Typed p f.returns inLoop c.scopes c'.scopes) := by
  rw [Body.stmt]
  refine (resolve_yields node.position type written).bind ?_
  intro t c ends
  obtain ⟨rfl, resolved, known⟩ := ends
  dsimp only
  split
  · rename_i defaults
    refine record_bind ((declare_yields name t .mutable node.position).mono ?_)
    intro _ c1 ends1
    obtain ⟨scopes, defined, rfl⟩ := ends1
    refine ⟨Scopes.define?_outer defined, ?_⟩
    have noted := Context.Finds.insert (p := p) c node t
    exact ⟨noted.others, fun kept =>
      .declare resolved known defaults (noted.fact kept) defined⟩
  · exact Yields.refuse

theorem definition_yields (node : Node) (name : String) (type : Ty) (value : Expr)
    (isConst : Bool) (distinct : (Stmt.define node name type value isConst).ids.Nodup)
    (written : type.Written) (inLoop : Bool) :
    (Body.stmt ⟨p.globals, f⟩ inLoop (.define node name type value isConst)).Yields c fun _ c' =>
      Passes p c (Stmt.define node name type value isConst).ids c'
        ((Stmt.define node name type value isConst).Typed p f.returns inLoop c.scopes
          c'.scopes) := by
  rw [Stmt.ids] at distinct
  rw [Body.stmt]
  refine (resolve_yields node.position type written).bind ?_
  intro t c ends
  obtain ⟨rfl, resolved, known⟩ := ends
  refine (expr_yields p value distinct.of_cons c).bind fun found c1 typed => ?_
  dsimp only
  split
  · rename_i accepted
    have all := typed.record node t (List.nodup_append_comm.mp distinct)
    refine record_bind ((declare_yields name t _ node.position).mono ?_)
    intro _ c2 ends2
    obtain ⟨scopes, defined, rfl⟩ := ends2
    obtain ⟨others, found⟩ := (all.perm List.perm_append_comm).2
    refine ⟨(Scopes.define?_outer defined).trans (congrArg _ all.1), others, fun kept => ?_⟩
    obtain ⟨value_typed, noted⟩ := found kept
    have same : c1.scopes = c.scopes := typed.1
    dsimp only at defined
    rw [same] at defined
    exact .define resolved known value_typed accepted noted defined
  · exact Yields.refuse

theorem scoped_yields {body : List Stmt} {inLoop : Bool} {ids : List NodeId}
    (h : (Body.stmts ⟨p.globals, f⟩ inLoop body).Yields { c with scopes := c.scopes.push }
      fun _ c' => Passes p { c with scopes := c.scopes.push } ids c'
        (Stmt.BlockTyped p f.returns inLoop c.scopes.push body c'.scopes)) :
    (inBlock (Body.stmts ⟨p.globals, f⟩ inLoop body)).Yields c fun _ c' =>
      c.Notes p ids c' (∃ inner,
        Stmt.BlockTyped p f.returns inLoop c.scopes.push body inner) := by
  refine inBlock_yields (h.mono ?_)
  intro _ c' ends
  obtain ⟨outer, others, typed⟩ := ends
  refine ⟨?_, others, fun kept => ⟨c'.scopes, typed kept⟩⟩
  obtain ⟨types, inner, frames⟩ := c'
  change frames = c.scopes.frames at outer
  rw [outer]
  rfl

theorem branch_bind {test : Expr} {body : List Stmt} {inLoop : Bool} {ids : List NodeId}
    {rest : Unit → Check Unit} {post : Unit → Context → Prop}
    (distinct : (test.ids ++ ids).Nodup)
    (block : ∀ c : Context, (Body.stmts ⟨p.globals, f⟩ inLoop body).Yields c fun _ c' =>
      Passes p c ids c' (Stmt.BlockTyped p f.returns inLoop c.scopes body c'.scopes))
    (next : ∀ c', c.Notes p (test.ids ++ ids) c' (test.Typed p c.scopes .bool ∧
      ∃ inner, Stmt.BlockTyped p f.returns inLoop c.scopes.push body inner) →
      (rest ()).Yields c' post) :
    (Body.condition ⟨p.globals, f⟩ test >>= fun _ =>
      inBlock (Body.stmts ⟨p.globals, f⟩ inLoop body) >>= rest).Yields c post := by
  refine (condition_yields test distinct.of_append_left).bind fun _ c1 tested => ?_
  refine (scoped_yields (block _)).bind fun _ c2 ran => ?_
  have both := tested.seq ran distinct
  rw [tested.1] at both
  exact next c2 both

mutual

theorem stmt_yields (p : Program) (f : Function) : (s : Stmt) → s.ids.Nodup →
    (∀ t ∈ s.types, t.Written) → (inLoop : Bool) → (c : Context) →
    (Body.stmt ⟨p.globals, f⟩ inLoop s).Yields c fun _ c' => Passes p c s.ids c'
      (s.Typed p f.returns inLoop c.scopes c'.scopes)
  | .declare node name type, _, written, inLoop, c => by
    simp only [Stmt.types, List.mem_singleton, forall_eq] at written
    exact declaration_yields node name type written inLoop
  | .define node name type value isConst, distinct, written, inLoop, c => by
    simp only [Stmt.types, List.mem_singleton, forall_eq] at written
    exact definition_yields node name type value isConst distinct written inLoop
  | .assign position target root path value, distinct, _, inLoop, c => by
    rw [Stmt.ids] at distinct
    rw [Body.stmt]
    exact (assign_yields position target root path value distinct inLoop).mono
      fun _ _ => passes_of_notes (P := (Stmt.Typed p f.returns inLoop c.scopes _ ·))
  | .loop position body, distinct, written, inLoop, c => by
    rw [Stmt.ids] at distinct
    simp only [Stmt.types] at written
    rw [Body.stmt]
    refine (scoped_yields (stmts_yields p f body distinct written true _)).mono
      fun _ c1 noted => passes_of_notes (P := (Stmt.Typed p f.returns inLoop c.scopes _ ·))
        (noted.imp ?_)
    intro both
    obtain ⟨inner, typed⟩ := both
    exact .loop typed
  | .choose position ⟨test, body⟩ elifs none, distinct, written, inLoop, c => by
    simp only [Stmt.ids, Stmt.types, List.append_nil, List.mem_append] at distinct written
    rw [Body.stmt]
    refine branch_bind distinct.of_append_left
      (stmts_yields p f body distinct.of_append_left.of_append_right
        (fun t member => written t (.inl member)) inLoop) fun c1 branch => ?_
    refine (branches_yields p f elifs distinct.of_append_right
      (fun t member => written t (.inr member)) inLoop c1).bind fun _ c2 others => ?_
    refine Yields.pure (passes_of_notes (P := (Stmt.Typed p f.returns inLoop c.scopes _ ·)) ?_)
    have all := branch.seq others distinct
    rw [branch.1] at all
    rw [Stmt.ids, List.append_nil]
    apply all.imp
    intro all
    obtain ⟨⟨test_typed, inner, body_typed⟩, rest_typed⟩ := all
    exact .choose (.cons test_typed body_typed (rest_typed none .none))
  | .choose position ⟨test, body⟩ elifs (some final), distinct, written, inLoop, c => by
    simp only [Stmt.ids, Stmt.types, List.mem_append] at distinct written
    rw [Body.stmt]
    refine branch_bind distinct.of_append_left.of_append_left
      (stmts_yields p f body distinct.of_append_left.of_append_left.of_append_right
        (fun t member => written t (.inl (.inl member))) inLoop) fun c1 branch => ?_
    refine (branches_yields p f elifs distinct.of_append_left.of_append_right
      (fun t member => written t (.inl (.inr member))) inLoop c1).bind fun _ c2 others => ?_
    refine (scoped_yields (stmts_yields p f final distinct.of_append_right
      (fun t member => written t (.inr member)) inLoop _)).mono fun _ c3 last => ?_
    apply passes_of_notes (P := (Stmt.Typed p f.returns inLoop c.scopes _ ·))
    have all := (branch.seq others distinct.of_append_left).seq last distinct
    rw [others.1, branch.1] at all
    apply all.imp
    intro all
    obtain ⟨⟨⟨test_typed, inner, body_typed⟩, rest_typed⟩, innermost, final_typed⟩ := all
    exact .choose (.cons test_typed body_typed (rest_typed _ (.otherwise final_typed)))
  | .return position value, distinct, _, inLoop, c => by
    rw [Body.stmt]
    exact (returned_yields value position distinct inLoop).mono
      fun _ _ => passes_of_notes (P := (Stmt.Typed p f.returns inLoop c.scopes _ ·))
  | .break position, _, _, true, c => by
    rw [Body.stmt]
    exact Yields.pure ⟨rfl, .nothing .break c.scopes⟩
  | .continue position, _, _, true, c => by
    rw [Body.stmt]
    exact Yields.pure ⟨rfl, .nothing .continue c.scopes⟩
  | .break position, _, _, false, c | .continue position, _, _, false, c => by
    rw [Body.stmt]
    exact Yields.fail
  | .call position node callee args, distinct, _, inLoop, c => by
    rw [Stmt.ids] at distinct
    rw [Body.stmt]
    exact (call_yields node callee args position distinct inLoop).mono
      fun _ _ => passes_of_notes (P := (Stmt.Typed p f.returns inLoop c.scopes _ ·))
  | .place position node root steps, _, _, inLoop, c => by
    rw [Body.stmt]
    exact Yields.fail
  | .method position node root path name nameAt args, distinct, _, inLoop, c => by
    rw [Stmt.ids] at distinct
    rw [Body.stmt]
    exact (methodCall_yields node root path name nameAt args position distinct inLoop).mono
      fun _ _ => passes_of_notes (P := (Stmt.Typed p f.returns inLoop c.scopes _ ·))
termination_by structural s => s

theorem stmts_yields (p : Program) (f : Function) : (body : List Stmt) →
    (Stmt.idsOf body).Nodup → (∀ t ∈ Stmt.typesOf body, t.Written) → (inLoop : Bool) →
    (c : Context) →
    (Body.stmts ⟨p.globals, f⟩ inLoop body).Yields c fun _ c' => Passes p c (Stmt.idsOf body) c'
      (Stmt.BlockTyped p f.returns inLoop c.scopes body c'.scopes)
  | [], _, _, inLoop, c => by
    rw [Body.stmts]
    exact Yields.pure ⟨rfl, .nothing .nil c.scopes⟩
  | s :: rest, distinct, written, inLoop, c => by
    rw [Stmt.idsOf] at distinct
    simp only [Stmt.typesOf, List.mem_append] at written
    rw [Body.stmts]
    refine (stmt_yields p f s distinct.of_append_left (fun t member => written t (.inl member))
      inLoop c).bind ?_
    intro _ c1 ends1
    obtain ⟨outer1, first⟩ := ends1
    refine (stmts_yields p f rest distinct.of_append_right
      (fun t member => written t (.inr member)) inLoop c1).mono ?_
    intro _ c2 ends2
    obtain ⟨outer2, second⟩ := ends2
    exact ⟨outer2.trans outer1, (first.seq second distinct).imp fun found =>
      .cons found.1 found.2⟩
termination_by structural body => body

theorem branches_yields (p : Program) (f : Function) : (elifs : List (Branch Stmt)) →
    (Stmt.idsOfBranches elifs).Nodup → (∀ t ∈ Stmt.typesOfBranches elifs, t.Written) →
    (inLoop : Bool) → (c : Context) →
    (Body.branches ⟨p.globals, f⟩ inLoop elifs).Yields c fun _ c' =>
      c.Notes p (Stmt.idsOfBranches elifs) c' (∀ otherwise,
        Stmt.BranchesTyped p f.returns inLoop c.scopes [] otherwise →
        Stmt.BranchesTyped p f.returns inLoop c.scopes elifs otherwise)
  | [], _, _, inLoop, c => by
    rw [Body.branches]
    exact Yields.pure (.nothing fun _ last => last)
  | ⟨test, body⟩ :: rest, distinct, written, inLoop, c => by
    rw [Stmt.idsOfBranches] at distinct
    simp only [Stmt.typesOfBranches, List.mem_append] at written
    rw [Body.branches]
    refine branch_bind distinct.of_append_left (stmts_yields p f body
      distinct.of_append_left.of_append_right (fun t member => written t (.inl member)) inLoop)
      fun c1 branch => ?_
    refine (branches_yields p f rest distinct.of_append_right
      (fun t member => written t (.inr member)) inLoop c1).mono fun _ c2 others => ?_
    have all := branch.seq others distinct
    rw [branch.1] at all
    apply all.imp
    intro pair otherwise last
    obtain ⟨⟨test_typed, inner, body_typed⟩, rest_typed⟩ := pair
    exact .cons test_typed body_typed (rest_typed otherwise last)
termination_by structural elifs => elifs

end

end Check
end LoopLang
