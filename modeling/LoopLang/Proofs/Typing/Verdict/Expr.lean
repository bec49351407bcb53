import LoopLang.Proofs.Typing.Accepted

namespace LoopLang

/-- A stage that yields something that satisfies `post`, unless it refuses the program. -/
def Decided {α : Type} (x : Except Error α) (post : α → Prop) : Prop :=
  match x with
  | .ok a => post a
  | .error e => ∃ refusal, e = .compile refusal

namespace Decided

variable {α β : Type} {P : α → Prop} {post : β → Prop}

theorem bind {x : Except Error α} {f : α → Except Error β} (first : Decided x P)
    (second : ∀ a, P a → Decided (f a) post) : Decided (x >>= f) post := by
  cases x with
  | error e => exact first
  | ok a => exact second a first

theorem mono {x : Except Error α} {Q : α → Prop} (h : Decided x P) (imp : ∀ a, P a → Q a) :
    Decided x Q := by
  cases x with
  | error e => exact h
  | ok a => exact imp a h

theorem ok {x : Except Error α} {a : α} (h : Decided x P) (same : x = .ok a) : P a := by
  rw [same] at h
  exact h

end Decided

namespace Globals

structure Resolved (g : Globals) : Prop where
  members : ∀ s ∈ g.structs, ∀ m ∈ s.members, m.type.Known g
  params : ∀ f ∈ g.functions, ∀ param ∈ f.params, param.type.Known g
  returns : ∀ f ∈ g.functions, ∀ type ∈ f.returns, type.Known g

end Globals

namespace Context

structure Sound (g : Globals) (c : Context) : Prop where
  noted : ∀ (id : NodeId) type, c.types[id]? = some type → type.Known g
  bound : ∀ name b, c.scopes.get? name = some b → b.type.Known g

/-- Of the nodes `ids`, all but the `silent` ones have been given types, and no other node has. -/
structure Filled (g : Globals) (c : Context) (ids silent : List NodeId) (c' : Context) : Prop where
  sound : c'.Sound g
  noted : ∃ noted, (noted ++ silent).Perm ids ∧
    ∀ id : NodeId, id ∈ c'.types ↔ id ∈ c.types ∨ id ∈ noted

def Reads (g : Globals) (c : Context) (ids : List NodeId) (c' : Context) : Prop :=
  c'.scopes = c.scopes ∧ c.Filled g ids [] c'

variable {g : Globals} {c c1 c2 : Context} {ids ids1 ids2 silent silent1 silent2 : List NodeId}

theorem Filled.nothing (sound : c.Sound g) : c.Filled g [] [] c := ⟨sound, [], .refl _, by simp⟩

theorem Filled.seq (first : c.Filled g ids1 silent1 c1) (second : c1.Filled g ids2 silent2 c2) :
    c.Filled g (ids1 ++ ids2) (silent1 ++ silent2) c2 := by
  obtain ⟨noted1, all1, keys1⟩ := first.noted
  obtain ⟨noted2, all2, keys2⟩ := second.noted
  refine ⟨second.sound, noted1 ++ noted2, ?_, fun id => ?_⟩
  · refine List.Perm.trans ?_ (all1.append all2)
    rw [List.perm_iff_count]
    intro id
    simp only [List.count_append]
    omega
  · rw [keys2, keys1, List.mem_append, or_assoc]

theorem Filled.perm (h : c.Filled g ids1 silent c1) (same : ids1.Perm ids2) :
    c.Filled g ids2 silent c1 := by
  obtain ⟨noted, all, keys⟩ := h.noted
  exact ⟨h.sound, noted, all.trans same, keys⟩

theorem Sound.insert (sound : c.Sound g) {type : Ty} (known : type.Known g) (id : NodeId) :
    Sound g { c with types := c.types.insert id type } := by
  refine ⟨fun other found lookup => ?_, sound.bound⟩
  rw [Std.TreeMap.getElem?_insert] at lookup
  split at lookup
  · cases lookup
    exact known
  · exact sound.noted other found lookup

theorem Filled.insert (sound : c.Sound g) {type : Ty} (known : type.Known g) (id : NodeId) :
    c.Filled g [id] [] { c with types := c.types.insert id type } := by
  refine ⟨sound.insert known id, [id], .refl _, fun other => ?_⟩
  rw [Std.TreeMap.mem_insert, List.mem_singleton, Nat.compare_eq_eq, or_comm, eq_comm]

theorem Reads.nothing (sound : c.Sound g) : c.Reads g [] c := ⟨rfl, .nothing sound⟩

theorem Reads.seq (first : c.Reads g ids1 c1) (second : c1.Reads g ids2 c2) :
    c.Reads g (ids1 ++ ids2) c2 := ⟨second.1.trans first.1, first.2.seq second.2⟩

theorem Reads.record (h : c.Reads g ids c1) {type : Ty} (known : type.Known g) (id : NodeId) :
    c.Reads g (ids ++ [id]) { c1 with types := c1.types.insert id type } :=
  ⟨h.1, h.2.seq (.insert h.2.sound known id)⟩

end Context

namespace Check

def Decides {α : Type} (x : Check α) (c : Context) (post : α → Context → Prop) : Prop :=
  Decided (x c) fun ends => post ends.1 ends.2

section Rules

variable {α β : Type} {c : Context}

theorem Decides.bind {x : Check α} {f : α → Check β} {P : α → Context → Prop}
    {post : β → Context → Prop} (first : x.Decides c P)
    (second : ∀ a c', P a c' → (f a).Decides c' post) : (x >>= f).Decides c post :=
  Decided.bind first fun ends holds => second ends.1 ends.2 holds

theorem Decides.mono {x : Check α} {P post : α → Context → Prop} (h : x.Decides c P)
    (imp : ∀ a c', P a c' → post a c') : x.Decides c post :=
  Decided.mono h fun ends holds => imp ends.1 ends.2 holds

theorem Decides.pure {a : α} {post : α → Context → Prop} (h : post a c) :
    (pure a : Check α).Decides c post := h

theorem Decides.fail {position : Position} {cause : CompileCause} {post : α → Context → Prop} :
    (Check.fail position cause : Check α).Decides c post := ⟨_, rfl⟩

theorem Decides.refuse {position : Position} {cause : CompileCause} {f : α → Check β}
    {post : β → Context → Prop} : (Check.fail position cause >>= f).Decides c post := ⟨_, rfl⟩

theorem liftAt_decides {position : Position} {x : Except CompileCause α} {f : α → Check β}
    {post : β → Context → Prop} (rest : ∀ a, x = .ok a → (f a).Decides c post) :
    (liftAt position x >>= f).Decides c post := by
  cases x with
  | error cause => exact Decides.refuse
  | ok a => exact rest a rfl

theorem lift_decides {x : Except Error α} {P : α → Prop} (h : Decided x P) :
    (liftM x : Check α).Decides c fun a c' => c' = c ∧ P a := by
  cases x with
  | error e => exact h
  | ok a => exact ⟨rfl, h⟩

theorem record_decides {node : Node} {type : Ty} {f : Unit → Check β}
    {post : β → Context → Prop}
    (rest : (f ()).Decides { c with types := c.types.insert node.id type } post) :
    (record node type >>= f).Decides c post := rest

theorem binding_decides {name : String} {f : Option Binding → Check β}
    {post : β → Context → Prop} (rest : (f (c.scopes.get? name)).Decides c post) :
    (binding? name >>= f).Decides c post := rest

end Rules
end Check

namespace Ty

variable {g : Globals} {left right type : Ty}

theorem known_ofLiteral {value : Literal} (h : ofLiteral value = .ok type) : type.Known g := by
  unfold ofLiteral at h
  split at h
  · split at h <;> cases h
    trivial
  all_goals
    cases h
    trivial

theorem known_ofConstant {value : Constant} (h : ofConstant value = .ok type) :
    type.Known g := by
  cases value with
  | int v =>
    have written : ofLiteral (.integer v) = .ok type := h
    exact known_ofLiteral written
  | float v =>
    cases h
    trivial

theorem known_common? (left_known : left.Known g) (right_known : right.Known g)
    (h : common? left right = some type) : type.Known g := by
  unfold common? at h
  split at h
  · cases h
    exact left_known
  · split at h <;> cases h
    exact right_known

theorem known_ofMath {op : MathOp} (left_known : left.Known g) (right_known : right.Known g)
    (h : ofMath op left right = .ok type) : type.Known g := by
  unfold ofMath at h
  split at h
  · cases h
  · rename_i common
    split at h <;> cases h
    exact known_common? left_known right_known common

theorem known_ofCompare {op : CompareOp} (h : ofCompare op left right = .ok type) :
    type.Known g := by
  unfold ofCompare at h
  split at h
  · cases h
  · split at h <;> cases h
    trivial

theorem known_ofUnary {op : UnaryOp} (known : left.Known g) (h : ofUnary op left = .ok type) :
    type.Known g := by
  unfold ofUnary at h
  split at h <;> split at h <;> cases h
  · trivial
  · exact known

theorem known_item? (known : left.Known g) (h : left.item? = some type) : type.Known g := by
  unfold item? at h
  split at h
  · cases h
    exact known
  · cases h
    trivial
  · cases h

theorem known_enum {name : String} {e : Enum} (h : g.enum? name = some e) :
    (enum name).Known g := by
  have same := List.find?_some h
  exact List.mem_map.mpr ⟨e, List.mem_of_find?_eq_some h, by simpa using same⟩

theorem known_struct {name : String} {s : Struct} (h : g.struct? name = some s) :
    (struct name).Known g := by
  have same := List.find?_some h
  exact List.mem_map.mpr ⟨s, List.mem_of_find?_eq_some h, by simpa using same⟩

end Ty

namespace Method

variable {m : Method} {type : Ty} {name : String}

theorem known_returns {g : Globals} (h : m.signature.returns = some type) : type.Known g := by
  cases m with
  | append => cases h
  | _ =>
    cases h
    trivial

theorem name_of_ofTy? (h : ofTy? type name = some m) : m.name = name := by
  unfold ofTy? at h
  split at h
  · unfold ofArray? at h
    split at h <;> cases h <;> rfl
  · unfold ofPrimitive? at h
    split at h <;> cases h <;> rfl
  · cases h

end Method

theorem Globals.Resolved.known_returns {g : Globals} (resolved : g.Resolved) {callee : String}
    {s : Signature} {type : Ty} (lookup : g.signature? callee = some s)
    (h : s.returns = some type) : type.Known g := by
  unfold Globals.signature? at lookup
  split at lookup
  · rename_i f found
    cases lookup
    exact resolved.returns f (List.mem_of_find?_eq_some found) type h
  · obtain ⟨b, _, rfl⟩ := Option.map_eq_some_iff.mp lookup
    cases h

namespace Reached

def Known (g : Globals) : Reached → Prop
  | .enum _ => True
  | .part type _ => type.Known g

/-- An enum or a member of it, from which no step leads to anything of another type. -/
def IsEntry (name : String) : Reached → Prop
  | .enum other => other = name
  | .part type _ => type = .enum name

end Reached

namespace Check

variable {g : Globals} {c : Context}

theorem root_decides (sound : c.Sound g) (name : String) (position : Position) :
    (root g name position).Decides c fun reached c' => c' = c ∧ reached.Known g ∧
      Rooted c.scopes name reached := by
  apply binding_decides
  split
  · rename_i b bound
    exact Decides.pure ⟨rfl, sound.bound name b bound, .inl ⟨b, bound, rfl⟩⟩
  · rename_i free
    split
    · exact Decides.pure ⟨rfl, trivial, .inr ⟨free, rfl⟩⟩
    · exact Decides.fail

theorem Rooted.bound {names : Scopes Binding} {name : String} {reached : Reached} {receiver : Ty}
    (root : Rooted names name reached)
    (entry : ∀ enum, reached.IsEntry enum → receiver = .enum enum)
    (part : ∀ enum, receiver ≠ .enum enum) : ∃ b, names.get? name = some b := by
  rcases root with ⟨b, bound, _⟩ | ⟨_, rfl⟩
  · exact ⟨b, bound⟩
  · exact (part name (entry name rfl)).elim

theorem memberType_decides (resolved : g.Resolved) {type : Ty} (known : type.Known g)
    (name : String) (position : Position) :
    (memberType g type name position).Decides c fun found c' => c' = c ∧ found.Known g ∧
      ∃ struct, type = .struct struct := by
  unfold memberType
  split
  · rename_i struct
    split
    · -- A struct that a known type names is defined.
      rename_i missing
      obtain ⟨s, defined, same⟩ := List.mem_map.mp known
      have other := List.find?_eq_none.mp missing s defined
      simp [same] at other
    · rename_i s lookup
      split
      · rename_i m member
        have declared := resolved.members s (List.mem_of_find?_eq_some lookup) m
          (List.mem_of_find?_eq_some member)
        exact Decides.pure ⟨rfl, declared, struct, rfl⟩
      · exact Decides.fail
  · exact Decides.fail

theorem receiverMayChange_decides {root : String} {b : Binding}
    (bound : c.scopes.get? root = some b) (method : String) (position : Position) :
    (receiverMayChange root method position).Decides c fun _ c' => c' = c := by
  apply binding_decides
  rw [bound]
  dsimp only
  split
  · exact Decides.fail
  · exact Decides.pure rfl

theorem method_decides {root : String} {receiver : Ty} (known : receiver.Known g)
    (rooted : (∀ enum, receiver ≠ .enum enum) → ∃ b, c.scopes.get? root = some b)
    (name : String) (position : Position) :
    (method root receiver name position).Decides c fun s c' => c' = c ∧
      ∃ m : Method, m.name = name ∧ s.returns = m.signature.returns := by
  have found (m : Method) (named : m.name = name) (s : Signature)
      (same : s.returns = m.signature.returns) (part : ∀ enum, receiver ≠ .enum enum) :
      (do
        if m.mutates then receiverMayChange root name position
        return s : Check Signature).Decides c fun s c' => c' = c ∧
          ∃ m : Method, m.name = name ∧ s.returns = m.signature.returns := by
    split
    · obtain ⟨b, bound⟩ := rooted part
      refine (receiverMayChange_decides bound name position).bind ?_
      intro _ _ same_context
      exact Decides.pure ⟨same_context, m, named, same⟩
    · exact Decides.pure ⟨rfl, m, named, same⟩
  unfold method
  split
  · exact Decides.fail
  · exact Decides.fail
  · exact known.elim
  · exact known.elim
  · split
    · exact Decides.fail
    · rename_i m lookup
      exact found m (Method.name_of_ofTy? lookup) _ rfl nofun
  · split
    · exact Decides.fail
    · rename_i m lookup
      exact found m (Method.name_of_ofTy? lookup) _ rfl nofun

theorem function_decides (callee : String) (position : Position) :
    (function g callee position).Decides c fun s c' => c' = c ∧
      g.signature? callee = some s := by
  unfold function
  split
  · rename_i s lookup
    exact Decides.pure ⟨rfl, lookup⟩
  · exact Decides.fail

theorem argumentCount_decides (callee : String) (params : List Param) (args : List Expr)
    (position : Position) :
    (argumentCount callee params args position).Decides c fun _ c' => c' = c ∧
      params.length = args.length := by
  unfold argumentCount
  split
  · exact Decides.fail
  · rename_i same
    exact Decides.pure ⟨rfl, not_not.mp same⟩

theorem referenceArgument_decides (sound : c.Sound g) (callee : String) (param : Param)
    (arg : Expr) :
    (referenceArgument callee param arg).Decides c fun _ c' => c.Reads g arg.ids c' := by
  unfold referenceArgument
  split
  · exact Decides.fail
  · rename_i name bare
    obtain ⟨node, rfl⟩ := bareName?_eq_some bare
    apply binding_decides
    split
    · exact Decides.fail
    · rename_i b bound
      split
      · exact Decides.fail
      · split
        · exact Decides.fail
        · exact (Context.Reads.nothing sound).record (sound.bound name b bound) node.id

theorem missingFields_decides (s : Struct) (given : List String) (position : Position) :
    (missingFields g s given position).Decides c fun _ c' => c' = c := by
  unfold missingFields
  split
  · exact Decides.fail
  · exact Decides.pure rfl

theorem recorded_decides {c1 : Context} {ids : List NodeId} (h : c.Reads g ids c1) (node : Node)
    {type : Ty} (known : type.Known g) :
    (record node type >>= fun _ => pure type).Decides c1 fun found c2 =>
      c.Reads g (ids ++ [node.id]) c2 ∧ found.Known g :=
  record_decides (Decides.pure ⟨h.record known node.id, known⟩)

theorem operands_decides {left right : Expr} {k : Ty → Ty → Check Ty}
    {post : Ty → Context → Prop}
    (first : (expr g left).Decides c fun l c1 => c.Reads g left.ids c1 ∧ l.Known g)
    (second : ∀ c1 : Context, c1.Sound g →
      (expr g right).Decides c1 fun r c2 => c1.Reads g right.ids c2 ∧ r.Known g)
    (rest : ∀ l r c2, c.Reads g (left.ids ++ right.ids) c2 → l.Known g → r.Known g →
      (k l r).Decides c2 post) :
    (expr g left >>= fun l => expr g right >>= k l).Decides c post := by
  refine first.bind fun l c1 ends1 => ?_
  obtain ⟨read1, l_known⟩ := ends1
  refine (second c1 read1.2.sound).bind fun r c2 ends2 => ?_
  obtain ⟨read2, r_known⟩ := ends2
  exact rest l r c2 (read1.seq read2) l_known r_known

mutual

theorem expr_decides (g : Globals) (resolved : g.Resolved) : (e : Expr) → (c : Context) →
    c.Sound g →
    (expr g e).Decides c fun type c' => c.Reads g e.ids c' ∧ type.Known g
  | .literal node value, c, sound => by
    rw [expr]
    exact liftAt_decides fun type literal =>
      recorded_decides (.nothing sound) node (Ty.known_ofLiteral literal)
  | .place node name path, c, sound => by
    rw [expr]
    refine (root_decides sound name node.position).bind ?_
    intro reached _ ends
    obtain ⟨rfl, known, _⟩ := ends
    refine (steps_decides g resolved node.position path reached _ sound known).bind ?_
    intro pair c1 ends1
    obtain ⟨read, type_known, _⟩ := ends1
    exact recorded_decides read node type_known
  | .method node name path called calledAt args, c, sound => by
    rw [expr]
    refine (root_decides sound name node.position).bind ?_
    intro reached _ ends
    obtain ⟨rfl, known, rooted⟩ := ends
    refine (steps_decides g resolved node.position path reached _ sound known).bind ?_
    intro pair c1 ends1
    obtain ⟨receiver, inString⟩ := pair
    obtain ⟨read, receiver_known, entry⟩ := ends1
    refine (method_decides receiver_known (read.1.symm ▸ rooted.bound entry) called
      calledAt).bind ?_
    intro s _ ends2
    obtain ⟨rfl, m, _, same⟩ := ends2
    refine (argumentCount_decides _ _ _ _).bind ?_
    intro _ _ ends3
    obtain ⟨rfl, count⟩ := ends3
    refine (arguments_decides g resolved called args _ count _ read.2.sound).bind
      fun _ c2 fits => ?_
    split
    · exact Decides.fail
    · rename_i type returns
      rw [same] at returns
      exact recorded_decides (read.seq fits) node (Method.known_returns returns)
  | .call node callee args, c, sound => by
    rw [expr]
    refine (function_decides callee node.position).bind ?_
    intro s _ ends
    obtain ⟨rfl, lookup⟩ := ends
    refine (argumentCount_decides _ _ _ _).bind ?_
    intro _ _ ends1
    obtain ⟨rfl, count⟩ := ends1
    refine (arguments_decides g resolved callee args _ count _ sound).bind fun _ c1 fits => ?_
    split
    · exact Decides.fail
    · rename_i type returns
      exact recorded_decides fits node (resolved.known_returns lookup returns)
  | .math node op left right, c, sound => by
    rw [expr]
    refine operands_decides (expr_decides g resolved left c sound)
      (expr_decides g resolved right) fun l r c2 read l_known r_known => ?_
    split
    · refine liftAt_decides fun folded _ => liftAt_decides fun type typed =>
        recorded_decides read node ?_
      cases folded with
      | none => exact Ty.known_ofMath l_known r_known typed
      | some result => exact Ty.known_ofConstant typed
    · rw [pure_bind]
      exact liftAt_decides fun type typed =>
        recorded_decides read node (Ty.known_ofMath l_known r_known typed)
  | .compare node op left right, c, sound => by
    rw [expr]
    refine operands_decides (expr_decides g resolved left c sound)
      (expr_decides g resolved right) fun l r c2 read l_known r_known => ?_
    exact liftAt_decides fun type typed => recorded_decides read node (Ty.known_ofCompare typed)
  | .unary node op operand, c, sound => by
    rw [expr]
    refine (expr_decides g resolved operand c sound).bind fun t c1 ends => ?_
    exact liftAt_decides fun type typed =>
      recorded_decides ends.1 node (Ty.known_ofUnary ends.2 typed)
  | .build node name given, c, sound => by
    rw [expr]
    split
    · exact Decides.fail
    · rename_i s lookup
      refine (fields_decides g resolved s given [] c sound).bind fun _ c1 read => ?_
      refine (missingFields_decides _ _ _).bind ?_
      intro _ _ ends
      subst ends
      exact recorded_decides read node (Ty.known_struct lookup)
termination_by structural e => e

theorem steps_decides (g : Globals) (resolved : g.Resolved) (position : Position) :
    (path : List Step) → (reached : Reached) → (c : Context) → c.Sound g → reached.Known g →
    (steps g position reached path).Decides c fun found c' => c.Reads g (Step.idsOf path) c' ∧
      found.1.Known g ∧ ∀ enum, reached.IsEntry enum → found.1 = .enum enum
  | [], .enum root, c, _, _ => by
    rw [steps]
    · exact Decides.fail
    · intro name nameAt path same
      cases same
  | .index e :: path, .enum root, c, _, _ => by
    rw [steps]
    · exact Decides.fail
    · intro name nameAt path same
      cases same
  | .member name nameAt :: path, .enum root, c, sound, _ => by
    rw [steps]
    refine liftAt_decides fun type entry => ?_
    obtain ⟨rfl, e, lookup, _⟩ := ofEnumMember_eq_ok entry
    refine (steps_decides g resolved position path (.part (.enum root) false) c sound
      (Ty.known_enum lookup)).mono ?_
    intro pair c' ends
    obtain ⟨read, known, entry⟩ := ends
    exact ⟨read, known, fun enum same => entry enum (congrArg Ty.enum same)⟩
  | [], .part type inString, c, sound, known => by
    rw [steps]
    exact Decides.pure ⟨.nothing sound, known, fun _ same => same⟩
  | .index index :: path, .part type inString, c, sound, known => by
    rw [steps]
    refine (expr_decides g resolved index c sound).bind fun t c1 ends1 => ?_
    by_cases integer : t.int?.isNone = true
    · rw [if_pos integer]
      exact Decides.refuse
    · rw [if_neg integer]
      split
      · rename_i item picked
        refine (steps_decides g resolved position path (.part item _) c1 ends1.1.2.sound
          (Ty.known_item? known picked)).mono ?_
        intro pair c2 ends2
        refine ⟨ends1.1.seq ends2.1, ends2.2.1, fun enum same => ?_⟩
        cases (same : type = .enum enum)
        cases picked
      · exact Decides.fail
  | .member name nameAt :: path, .part type inString, c, sound, known => by
    rw [steps]
    refine (memberType_decides resolved known name nameAt).bind ?_
    intro found _ ends
    obtain ⟨rfl, found_known, struct, rfl⟩ := ends
    refine (steps_decides g resolved position path (.part found _) _ sound found_known).mono ?_
    intro pair c' ends1
    exact ⟨ends1.1, ends1.2.1, fun enum same => nomatch (same : Ty.struct struct = .enum enum)⟩
termination_by structural path => path

theorem arguments_decides (g : Globals) (resolved : g.Resolved) (callee : String) :
    (args : List Expr) → (params : List Param) → params.length = args.length →
    (c : Context) → c.Sound g →
    (arguments g callee params args).Decides c fun _ c' => c.Reads g (Expr.idsOf args) c'
  | [], [], _, c, sound => by
    rw [arguments]
    · exact Decides.pure (.nothing sound)
    · intro param params arg args same
      cases same
  | arg :: args, param :: params, count, c, sound => by
    have rest := arguments_decides g resolved callee args params (Nat.succ.inj count)
    rw [arguments]
    split
    · refine (referenceArgument_decides sound callee param arg).bind fun _ c1 read => ?_
      exact (rest c1 read.2.sound).mono fun _ c2 others => read.seq others
    · refine (expr_decides g resolved arg c sound).bind fun type c1 ends => ?_
      split
      · exact (rest c1 ends.1.2.sound).mono fun _ c2 others => ends.1.seq others
      · exact Decides.refuse
termination_by structural args => args

theorem fields_decides (g : Globals) (resolved : g.Resolved) (s : Struct) :
    (given : List Field) → (earlier : List String) → (c : Context) → c.Sound g →
    (fields g s earlier given).Decides c fun _ c' => c.Reads g (Field.idsOf given) c'
  | [], earlier, c, sound => by
    rw [fields]
    exact Decides.pure (.nothing sound)
  | .mk name nameAt value :: given, earlier, c, sound => by
    rw [fields]
    split
    · exact Decides.fail
    · split
      · exact Decides.refuse
      · refine (expr_decides g resolved value c sound).bind fun type c1 ends => ?_
        split
        · exact (fields_decides g resolved s given (name :: earlier) c1 ends.1.2.sound).mono
            fun _ c2 others => ends.1.seq others
        · exact Decides.refuse
termination_by structural given => given

end

end Check
end LoopLang
