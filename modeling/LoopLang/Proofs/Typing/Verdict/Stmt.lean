import LoopLang.Proofs.Typing.Verdict.Expr

namespace LoopLang

namespace Method

def all : List Method := [append, arrayLength, stringLength, toLowerCase, toUpperCase, codePoint]

def isSilent (name : String) : Bool := all.any fun m => m.name == name && m.signature.returns.isNone

theorem isSilent_name (m : Method) : isSilent m.name = m.signature.returns.isNone := by
  cases m <;> rfl

end Method

namespace Globals

def isSilent (g : Globals) (callee : String) : Bool :=
  (g.signature? callee).any (·.returns.isNone)

end Globals

mutual

/-- The nodes of the calls within a statement that stand as statements and return nothing. -/
def Stmt.silent (g : Globals) : Stmt → List NodeId
  | .loop _ body => Stmt.silentOf g body
  | .choose _ ⟨_, body⟩ elifs otherwise =>
    Stmt.silentOf g body ++ Stmt.silentOfBranches g elifs ++
      match otherwise with
      | some body => Stmt.silentOf g body
      | none => []
  | .call _ node callee _ => if g.isSilent callee then [node.id] else []
  | .method _ node _ _ name _ _ => if Method.isSilent name then [node.id] else []
  | _ => []
termination_by structural s => s

def Stmt.silentOf (g : Globals) : List Stmt → List NodeId
  | [] => []
  | s :: rest => s.silent g ++ Stmt.silentOf g rest
termination_by structural body => body

def Stmt.silentOfBranches (g : Globals) : List (Branch Stmt) → List NodeId
  | [] => []
  | ⟨_, body⟩ :: rest => Stmt.silentOf g body ++ Stmt.silentOfBranches g rest
termination_by structural branches => branches

end

namespace Globals

def silent (g : Globals) : List NodeId := g.functions.flatMap fun f => Stmt.silentOf g f.body

end Globals

namespace Scopes

variable {α : Type}

theorem get?_of_define? {s t : Scopes α} {name other : String} {a b : α}
    (defined : s.define? name a = some t) (found : t.get? other = some b) :
    b = a ∨ s.get? other = some b := by
  unfold define? at defined
  split at defined
  · cases defined
  · cases defined
    simp only [get?, frames, List.findSome?_cons, List.lookup_cons] at found ⊢
    cases same : other == name with
    | true =>
      rw [same] at found
      cases found
      exact .inl rfl
    | false =>
      rw [same] at found
      exact .inr found

end Scopes

theorem Ty.Written.decided {g : Globals} {type : Ty} (written : type.Written)
    (position : Position) : Decided (type.resolve g position) (·.Known g) := by
  have name_decided (name : String) : Decided (Ty.ofName g name position) (·.Known g) := by
    cases found : Ty.ofName g name position with
    | ok type => exact Ty.known_of_ofName found
    | error e =>
      unfold Ty.ofName at found
      split at found <;> cases found
      exact ⟨_, rfl⟩
  unfold Ty.Written at written
  split at written
  · exact name_decided _
  · exact (name_decided _).bind fun element known => known
  · exact written.elim

namespace Check

variable {g : Globals} {f : Function} {c : Context}

def Completes (g : Globals) (c : Context) (ids silent : List NodeId) (c' : Context) : Prop :=
  c'.scopes.outer = c.scopes.outer ∧ c.Filled g ids silent c'

theorem completes_of_reads {c' : Context} {ids : List NodeId} (h : c.Reads g ids c') :
    Completes g c ids [] c' := ⟨by rw [h.1], h.2⟩

theorem declare_decides (sound : c.Sound g) (name : String) {type : Ty} (known : type.Known g)
    (mutability : Mutability) (position : Position) :
    (declare name type mutability position).Decides c fun _ c' => Completes g c [] [] c' := by
  have step (f : Context → Check Unit) : (get >>= f) c = f c c := rfl
  unfold Decides
  rw [declare, step]
  cases defined : c.scopes.define? name ⟨type, mutability⟩ with
  | none => exact ⟨_, rfl⟩
  | some scopes =>
    refine ⟨Scopes.define?_outer defined, ⟨sound.noted, fun other b found => ?_⟩, [], .refl _, ?_⟩
    · rcases Scopes.get?_of_define? defined found with rfl | before
      · exact known
      · exact sound.bound other b before
    · simp

theorem recordReturn_decides (sound : c.Sound g) (node : Node) {returns : Option Ty}
    (known : ∀ type, returns = some type → type.Known g) :
    (returns.forM (record node)).Decides c fun _ c' => c'.scopes = c.scopes ∧
      c.Filled g [node.id] (if returns.isNone then [node.id] else []) c' := by
  cases returns with
  | none => exact ⟨rfl, sound, [], .refl _, by simp⟩
  | some type => exact ⟨rfl, .insert sound (known type rfl) node.id⟩

theorem resolve_decides (position : Position) {type : Ty} (written : type.Written) :
    (Body.resolve ⟨g, f⟩ position type).Decides c fun t c' => c' = c ∧ t.Known g :=
  lift_decides (written.decided position)

theorem condition_decides (resolved : g.Resolved) (sound : c.Sound g) (e : Expr) :
    (Body.condition ⟨g, f⟩ e).Decides c fun _ c' => c.Reads g e.ids c' := by
  refine (expr_decides g resolved e c sound).bind fun type c1 ends => ?_
  split
  · exact Decides.pure ends.1
  · exact Decides.fail

theorem assignable_decides (root : String) (path : List Step) (position : Position) :
    (Body.assignable ⟨g, f⟩ root path position).Decides c fun _ c' => c' = c := by
  apply binding_decides
  split
  · split
    · exact Decides.pure rfl
    · exact Decides.fail
    · split
      · exact Decides.fail
      · exact Decides.pure rfl
  · split
    · exact Decides.fail
    · exact Decides.pure rfl

theorem assign_decides (resolved : g.Resolved) (sound : c.Sound g) (position : Position)
    (target : Node) (root : String) (path : List Step) (value : Expr) :
    (Body.assign ⟨g, f⟩ position target root path value).Decides c fun _ c' =>
      c.Reads g (Step.idsOf path ++ [target.id] ++ value.ids) c' := by
  refine (expr_decides g resolved value c sound).bind fun found c1 ends1 => ?_
  refine (assignable_decides root path position).bind ?_
  intro _ _ same
  subst same
  refine (root_decides ends1.1.2.sound root target.position).bind ?_
  intro reached _ ends
  obtain ⟨rfl, known, _⟩ := ends
  refine (steps_decides g resolved target.position path reached _ ends1.1.2.sound known).bind ?_
  intro pair c2 ends2
  obtain ⟨type, inString⟩ := pair
  obtain ⟨read, type_known, _⟩ := ends2
  cases inString with
  | true => exact Decides.refuse
  | false =>
    apply record_decides
    have all := ends1.1.seq (read.record type_known target.id)
    split
    · exact Decides.pure ⟨all.1, all.2.perm List.perm_append_comm⟩
    · exact Decides.fail

theorem returned_decides (resolved : g.Resolved) (sound : c.Sound g) (value : Option Expr)
    (position : Position) :
    (Body.returned ⟨g, f⟩ value position).Decides c fun _ c' =>
      c.Reads g (Stmt.return position value).ids c' := by
  unfold Body.returned
  split
  · rename_i e returns _
    refine (expr_decides g resolved e c sound).bind fun found c1 ends => ?_
    split
    · exact Decides.pure ends.1
    · exact Decides.fail
  · exact Decides.fail
  · exact Decides.fail
  · exact Decides.pure (.nothing sound)

theorem call_decides (resolved : g.Resolved) (sound : c.Sound g) (node : Node) (callee : String)
    (args : List Expr) (position : Position) :
    (Body.call ⟨g, f⟩ node callee args).Decides c fun _ c' => Completes g c
      (Stmt.call position node callee args).ids ((Stmt.call position node callee args).silent g)
      c' := by
  refine (function_decides callee node.position).bind ?_
  intro s _ ends
  obtain ⟨rfl, lookup⟩ := ends
  refine (argumentCount_decides _ _ _ _).bind ?_
  intro _ _ ends
  obtain ⟨rfl, count⟩ := ends
  refine (arguments_decides g resolved callee args _ count _ sound).bind fun _ c1 read => ?_
  refine (recordReturn_decides read.2.sound node fun type =>
    resolved.known_returns lookup).mono fun _ c2 ends => ?_
  have silent : g.isSilent callee = s.returns.isNone := by
    rw [Globals.isSilent, lookup, Option.any_some]
  rw [Stmt.ids, Stmt.silent, silent]
  exact ⟨by rw [ends.1, read.1], read.2.seq ends.2⟩

theorem methodCall_decides (resolved : g.Resolved) (sound : c.Sound g) (node : Node)
    (root : String) (path : List Step) (name : String) (nameAt : Position) (args : List Expr)
    (position : Position) :
    (Body.methodCall ⟨g, f⟩ node root path name nameAt args).Decides c fun _ c' => Completes g c
      (Stmt.method position node root path name nameAt args).ids
      ((Stmt.method position node root path name nameAt args).silent g) c' := by
  refine (root_decides sound root node.position).bind ?_
  intro reached _ ends
  obtain ⟨rfl, known, rooted⟩ := ends
  refine (steps_decides g resolved node.position path reached _ sound known).bind ?_
  intro pair c1 ends1
  obtain ⟨receiver, inString⟩ := pair
  obtain ⟨read, receiver_known, entry⟩ := ends1
  refine (method_decides receiver_known (read.1.symm ▸ rooted.bound entry) name nameAt).bind ?_
  intro s _ ends2
  obtain ⟨rfl, m, rfl, same⟩ := ends2
  refine (argumentCount_decides _ _ _ _).bind ?_
  intro _ _ ends3
  obtain ⟨rfl, count⟩ := ends3
  refine (arguments_decides g resolved m.name args _ count _ read.2.sound).bind
    fun _ c2 others => ?_
  have both := read.seq others
  refine (recordReturn_decides both.2.sound node fun type returns =>
    Method.known_returns (same ▸ returns)).mono fun _ c3 ends => ?_
  rw [Stmt.ids, Stmt.silent, Method.isSilent_name, ← same]
  exact ⟨by rw [ends.1, both.1], both.2.seq ends.2⟩

theorem scoped_decides {body : Check Unit} {ids silent : List NodeId} (sound : c.Sound g)
    (h : ∀ c : Context, c.Sound g → body.Decides c fun _ c' => Completes g c ids silent c') :
    (inBlock body).Decides c fun _ c' => c'.scopes = c.scopes ∧ c.Filled g ids silent c' := by
  have pushed : Context.Sound g { c with scopes := c.scopes.push } :=
    ⟨sound.noted, fun name b found => sound.bound name b (Scopes.get?_push c.scopes name ▸ found)⟩
  refine Decided.bind (h _ pushed) fun ends complete => ?_
  obtain ⟨⟨⟩, c'⟩ := ends
  obtain ⟨outer, filled⟩ := complete
  have popped : c'.scopes.pop = c.scopes := by
    dsimp only at outer
    rw [Scopes.pop, outer]
    rfl
  refine ⟨popped, ⟨filled.sound.noted, fun name b found => sound.bound name b ?_⟩, filled.noted⟩
  rw [← popped]
  exact found

theorem branch_decides (resolved : g.Resolved) (sound : c.Sound g) {test : Expr}
    {body : Check Unit} {ids silent : List NodeId} {rest : Unit → Check Unit}
    {post : Unit → Context → Prop}
    (block : ∀ c : Context, c.Sound g → body.Decides c fun _ c' => Completes g c ids silent c')
    (next : ∀ c', c'.scopes = c.scopes → c.Filled g (test.ids ++ ids) silent c' →
      (rest ()).Decides c' post) :
    (Body.condition ⟨g, f⟩ test >>= fun _ => inBlock body >>= rest).Decides c post := by
  refine (condition_decides resolved sound test).bind fun _ c1 read => ?_
  refine (scoped_decides read.2.sound block).bind fun _ c2 ends => ?_
  exact next c2 (ends.1.trans read.1) (read.2.seq ends.2)

mutual

theorem stmt_decides (resolved : g.Resolved) (f : Function) : (s : Stmt) →
    (∀ t ∈ s.types, t.Written) → (inLoop : Bool) → (c : Context) → c.Sound g →
    (Body.stmt ⟨g, f⟩ inLoop s).Decides c fun _ c' => Completes g c s.ids (s.silent g) c'
  | .declare node name type, written, inLoop, c, sound => by
    simp only [Stmt.types, List.mem_singleton, forall_eq] at written
    rw [Body.stmt]
    refine (resolve_decides node.position written).bind ?_
    intro t _ ends
    obtain ⟨rfl, known⟩ := ends
    dsimp only
    split
    · apply record_decides
      refine (declare_decides (sound.insert known node.id) name known .mutable
        node.position).mono fun _ c1 named => ?_
      exact ⟨named.1, (Context.Filled.insert sound known node.id).seq named.2⟩
    · exact Decides.refuse
  | .define node name type value isConst, written, inLoop, c, sound => by
    simp only [Stmt.types, List.mem_singleton, forall_eq] at written
    rw [Body.stmt]
    refine (resolve_decides node.position written).bind ?_
    intro t _ ends
    obtain ⟨rfl, known⟩ := ends
    refine (expr_decides g resolved value _ sound).bind fun found c1 ends1 => ?_
    obtain ⟨read, _⟩ := ends1
    dsimp only
    split
    · apply record_decides
      refine (declare_decides (read.2.sound.insert known node.id) name known _
        node.position).mono fun _ c2 named => ?_
      refine ⟨named.1.trans (congrArg Scopes.outer read.1), ?_⟩
      have all := (read.record known node.id).2.seq named.2
      exact all.perm (by simp [Stmt.ids])
    · exact Decides.refuse
  | .assign position target root path value, _, inLoop, c, sound => by
    rw [Body.stmt]
    exact (assign_decides resolved sound position target root path value).mono
      fun _ _ => completes_of_reads
  | .loop position body, written, inLoop, c, sound => by
    simp only [Stmt.types] at written
    rw [Body.stmt]
    exact (scoped_decides sound (stmts_decides resolved f body written true)).mono
      fun _ c1 ends => ⟨by rw [ends.1], ends.2⟩
  | .choose position ⟨test, body⟩ elifs none, written, inLoop, c, sound => by
    simp only [Stmt.types, List.append_nil, List.mem_append] at written
    rw [Body.stmt]
    refine branch_decides resolved sound (stmts_decides resolved f body
      (fun t member => written t (.inl member)) inLoop) fun c1 same1 first => ?_
    refine (branches_decides resolved f elifs (fun t member => written t (.inr member)) inLoop c1
      first.sound).bind fun _ c2 ends2 => ?_
    refine Decides.pure ⟨by rw [ends2.1, same1], ?_⟩
    simpa only [Stmt.ids, Stmt.silent, List.append_nil] using first.seq ends2.2
  | .choose position ⟨test, body⟩ elifs (some final), written, inLoop, c, sound => by
    simp only [Stmt.types, List.mem_append] at written
    rw [Body.stmt]
    refine branch_decides resolved sound (stmts_decides resolved f body
      (fun t member => written t (.inl (.inl member))) inLoop) fun c1 same1 first => ?_
    refine (branches_decides resolved f elifs (fun t member => written t (.inl (.inr member)))
      inLoop c1 first.sound).bind fun _ c2 ends2 => ?_
    refine (scoped_decides ends2.2.sound (stmts_decides resolved f final
      (fun t member => written t (.inr member)) inLoop)).mono fun _ c3 ends3 => ?_
    refine ⟨by rw [ends3.1, ends2.1, same1], ?_⟩
    simpa only [Stmt.ids, Stmt.silent] using (first.seq ends2.2).seq ends3.2
  | .return position value, _, inLoop, c, sound => by
    rw [Body.stmt]
    exact (returned_decides resolved sound value position).mono fun _ _ => completes_of_reads
  | .break position, _, true, c, sound | .continue position, _, true, c, sound => by
    rw [Body.stmt]
    exact Decides.pure ⟨rfl, .nothing sound⟩
  | .break position, _, false, c, _ | .continue position, _, false, c, _ => by
    rw [Body.stmt]
    exact Decides.fail
  | .call position node callee args, _, inLoop, c, sound => by
    rw [Body.stmt]
    exact call_decides resolved sound node callee args position
  | .place position node root steps, _, inLoop, c, sound => by
    rw [Body.stmt]
    exact Decides.fail
  | .method position node root path name nameAt args, _, inLoop, c, sound => by
    rw [Body.stmt]
    exact methodCall_decides resolved sound node root path name nameAt args position
termination_by structural s => s

theorem stmts_decides (resolved : g.Resolved) (f : Function) : (body : List Stmt) →
    (∀ t ∈ Stmt.typesOf body, t.Written) → (inLoop : Bool) → (c : Context) → c.Sound g →
    (Body.stmts ⟨g, f⟩ inLoop body).Decides c fun _ c' =>
      Completes g c (Stmt.idsOf body) (Stmt.silentOf g body) c'
  | [], _, inLoop, c, sound => by
    rw [Body.stmts]
    exact Decides.pure ⟨rfl, .nothing sound⟩
  | s :: rest, written, inLoop, c, sound => by
    simp only [Stmt.typesOf, List.mem_append] at written
    rw [Body.stmts]
    refine (stmt_decides resolved f s (fun t member => written t (.inl member)) inLoop c
      sound).bind fun _ c1 first => ?_
    refine (stmts_decides resolved f rest (fun t member => written t (.inr member)) inLoop c1
      first.2.sound).mono fun _ c2 others => ?_
    exact ⟨others.1.trans first.1, first.2.seq others.2⟩
termination_by structural body => body

theorem branches_decides (resolved : g.Resolved) (f : Function) : (elifs : List (Branch Stmt)) →
    (∀ t ∈ Stmt.typesOfBranches elifs, t.Written) → (inLoop : Bool) → (c : Context) →
    c.Sound g →
    (Body.branches ⟨g, f⟩ inLoop elifs).Decides c fun _ c' => c'.scopes = c.scopes ∧
      c.Filled g (Stmt.idsOfBranches elifs) (Stmt.silentOfBranches g elifs) c'
  | [], _, inLoop, c, sound => by
    rw [Body.branches]
    exact Decides.pure ⟨rfl, .nothing sound⟩
  | ⟨test, body⟩ :: rest, written, inLoop, c, sound => by
    simp only [Stmt.typesOfBranches, List.mem_append] at written
    rw [Body.branches]
    refine branch_decides resolved sound (stmts_decides resolved f body
      (fun t member => written t (.inl member)) inLoop) fun c1 same1 first => ?_
    refine (branches_decides resolved f rest (fun t member => written t (.inr member)) inLoop c1
      first.sound).mono fun _ c2 ends2 => ?_
    exact ⟨ends2.1.trans same1, first.seq ends2.2⟩
termination_by structural elifs => elifs

end

end Check
end LoopLang
