import LoopLang.Proofs.Related
import LoopLang.Proofs.Tree.Source
import LoopLang.Proofs.Typing.Bodies
import LoopLang.Typing

namespace LoopLang

namespace Ty

theorem Known.mono {g g' : Globals} {type : Ty} (h : type.Known g)
    (structs : g.structs.map Struct.name = g'.structs.map Struct.name)
    (enums : g.enums = g'.enums) : type.Known g' := by
  induction type with
  | named name => exact h
  | primitive t => trivial
  | array element ih => exact ih h
  | struct name =>
    simp only [Known] at h ⊢
    rwa [← structs]
  | enum name =>
    simp only [Known] at h ⊢
    rwa [← enums]
  | any => exact h

end Ty

namespace Check

variable {p : Program}

theorem Yields.mapM {α β : Type} {f : α → Check β} {ids : α → List NodeId} {N : α → β → Prop}
    {F : β → Prop} (as : List α) (distinct : (as.flatMap ids).Nodup)
    (each : ∀ a ∈ as, (ids a).Nodup → ∀ c, (f a).Yields c fun b c' =>
      N a b ∧ c.Notes p (ids a) c' (F b)) (c : Context) :
    (as.mapM f).Yields c fun bs c' =>
      List.Forall₂ N as bs ∧ c.Notes p (as.flatMap ids) c' (∀ b ∈ bs, F b) := by
  induction as generalizing c with
  | nil => exact Yields.pure ⟨.nil, .nothing nofun⟩
  | cons a as ih =>
    rw [List.flatMap_cons] at distinct
    rw [List.mapM_cons]
    refine (each a List.mem_cons_self distinct.of_append_left c).bind ?_
    intro b c1 ends1
    obtain ⟨made, first⟩ := ends1
    refine (ih distinct.of_append_right (fun a member => each a (.tail _ member)) c1).bind ?_
    intro bs c2 ends2
    obtain ⟨all_made, rest⟩ := ends2
    refine Yields.pure ⟨.cons made all_made, ?_⟩
    exact (first.seq rest distinct).imp fun found => List.forall_mem_cons.mpr found

end Check

namespace Struct

variable {p : Program} {g : Globals} {c : Context}

theorem defaultType_yields (enums : g.enums = p.globals.enums) (e : Expr) :
    (defaultType g e).Yields c fun type c' => c.Notes p e.ids c' (e.Constant p type) := by
  unfold defaultType
  split
  · rename_i node value
    refine Check.liftAt_bind fun type picked => Check.record_bind (Check.Yields.pure ?_)
    exact (Context.Notes.insert c node type).imp (.literal picked)
  · rename_i node root name at_
    split
    · refine Check.liftAt_bind fun type picked => Check.record_bind (Check.Yields.pure ?_)
      obtain ⟨rfl, e, found, entry⟩ := Check.ofEnumMember_eq_ok picked
      rw [Globals.enum?, enums] at found
      exact (Context.Notes.insert c node _).imp fun _ => .entry found entry
    · exact Check.Yields.refuse
  · exact Check.Yields.fail

def Resolves (g : Globals) (written m : Member) : Prop :=
  m.name = written.name ∧ m.type.Known g

theorem resolveMember_yields (enums : g.enums = p.globals.enums) (m : Member)
    (written : m.type.Written) :
    (resolveMember g m).Yields c fun m' c' => Resolves g m m' ∧ c.Notes p m.ids c'
      (∀ e ∈ m'.default, ∃ found, e.Constant p found ∧ m'.type.accepts found = true) := by
  refine (Check.lift_yields (m.type.resolve g m.position)).bind ?_
  intro type _ ends
  obtain ⟨rfl, resolved⟩ := ends
  have known := written.known resolved
  unfold Member.ids
  split
  · rename_i none_given
    rw [none_given]
    exact Check.Yields.pure ⟨⟨rfl, known⟩, .nothing (by simp)⟩
  · rename_i e given
    rw [given]
    refine (defaultType_yields enums e).bind fun found c1 constant => ?_
    dsimp only
    split
    · rename_i accepted
      refine Check.Yields.pure ⟨⟨rfl, known⟩, constant.imp fun constant => ?_⟩
      simpa [given] using ⟨found, constant, accepted⟩
    · exact Check.Yields.refuse

/-- What is found out of a struct, apart from its defaults, when it is resolved. -/
structure Comes (g : Globals) (written s : Struct) : Prop where
  name : s.name = written.name
  distinct : (s.members.map Member.name).Nodup
  known : ∀ m ∈ s.members, m.type.Known g

theorem comes_of_resolves {members : List Member} {s : Struct} (written : s.Written)
    (made : List.Forall₂ (Resolves g) s.members members) : Comes g s { s with members } := by
  refine ⟨rfl, ?_, ?_⟩
  · rw [map_eq_of_forall₂ made fun _ _ resolved => resolved.1]
    exact written.distinct
  · intro m member
    obtain ⟨_, _, resolved⟩ := exists_of_forall₂ made m member
    exact resolved.2

theorem resolve_yields (enums : g.enums = p.globals.enums) (s : Struct) (written : s.Written)
    (distinct : s.ids.Nodup) (c : Context) :
    (resolve g s).Yields c fun s' c' => Comes g s s' ∧ c.Notes p s.ids c'
      (∀ m ∈ s'.members, ∀ e ∈ m.default, ∃ found, e.Constant p found ∧
        m.type.accepts found = true) := by
  refine (Check.Yields.mapM s.members distinct (fun m member _ c =>
    resolveMember_yields enums m (written.types m member)) c).bind ?_
  intro members c1 ends1
  obtain ⟨made, defaults⟩ := ends1
  exact Check.Yields.pure ⟨comes_of_resolves written made, defaults⟩

end Struct

namespace Function

variable {g : Globals} {f f' : Function}

structure Comes (g : Globals) (written f : Function) : Prop where
  body : f.body = written.body
  params : ∀ param ∈ f.params, param.type.Known g
  returns : ∀ type ∈ f.returns, type.Known g

theorem resolve_comes (written : f.Written) (h : resolve g f = .ok f') : Comes g f f' := by
  obtain ⟨params, heads, h⟩ := exists_of_bind h
  obtain ⟨returns, returned, h⟩ := exists_of_bind h
  cases h
  refine ⟨rfl, fun param member => ?_, fun type member => ?_⟩
  · obtain ⟨head, found, ran⟩ := exists_of_forall₂ (forall₂_of_mapM heads) param member
    obtain ⟨type, resolved, made⟩ := exists_of_bind ran
    cases made
    exact (written.params head found).known resolved
  · cases declared : f.returns with
    | none =>
      rw [declared] at returned
      cases returned
      cases member
    | some named =>
      rw [declared] at returned
      obtain ⟨found, resolved, made⟩ := exists_of_bind (x := named.resolve g f.position) returned
      cases made
      cases member
      exact (written.returns named declared).known resolved

end Function

namespace Check

variable {p : Program} {c : Context}

theorem params_yields (params : List Param) : (Check.params params).Yields c fun _ c' =>
    c'.types = c.types ∧ c'.scopes = params.foldl
      (fun s param => (s.define? param.name (Scopes.ofParam param)).getD s) c.scopes := by
  induction params generalizing c with
  | nil => exact Yields.pure ⟨rfl, rfl⟩
  | cons param params ih =>
    refine (declare_yields param.name param.type _ param.position).bind ?_
    intro _ _ ends
    obtain ⟨scopes, defined, rfl⟩ := ends
    have same : c.scopes.define? param.name (Scopes.ofParam param) = some scopes := defined
    rw [List.foldl_cons, same, Option.getD_some]
    exact ih

theorem functionBody_finds {f : Function} {types types' : TypeTable}
    (written : ∀ type ∈ Stmt.typesOf f.body, type.Written) (distinct : (Stmt.idsOf f.body).Nodup)
    (run : functionBody p.globals f types = .ok types') :
    (⟨types, Scopes.empty⟩ : Context).Finds p (Stmt.idsOf f.body) ⟨types', Scopes.empty⟩
      (∃ names', Stmt.BlockTyped p f.returns false (Scopes.ofParams f.params) f.body names') := by
  obtain ⟨⟨_, c'⟩, body, made⟩ := exists_of_bind run
  cases made
  have found : (params f.params >>= fun _ => Body.stmts ⟨p.globals, f⟩ false f.body).Yields
      ⟨types, Scopes.empty⟩ fun _ c' => (⟨types, Scopes.empty⟩ : Context).Finds p
        (Stmt.idsOf f.body) c' (Stmt.BlockTyped p f.returns false (Scopes.ofParams f.params)
          f.body c'.scopes) := by
    refine (params_yields f.params).bind ?_
    intro _ pair ends
    obtain ⟨types1, scopes⟩ := pair
    obtain ⟨same, begun⟩ := ends
    change types1 = types at same
    change scopes = Scopes.ofParams f.params at begun
    rw [same, begun]
    exact (stmts_yields p f f.body distinct written false _).mono fun _ _ passed =>
      ⟨passed.2.others, passed.2.fact⟩
  obtain ⟨others, typed⟩ := found () c' body
  exact ⟨others, fun kept => ⟨c'.scopes, typed kept⟩⟩

theorem foldlM_finds {functions : List Function} {types types' : TypeTable}
    (written : ∀ f ∈ functions, ∀ type ∈ Stmt.typesOf f.body, type.Written)
    (distinct : (functions.flatMap fun f => Stmt.idsOf f.body).Nodup)
    (run : functions.foldlM (fun types f =>
      (functionBody p.globals f types).mapError (Error.within ⟨f.name, f.position⟩)) types =
        .ok types') :
    (⟨types, Scopes.empty⟩ : Context).Finds p (functions.flatMap fun f => Stmt.idsOf f.body)
      ⟨types', Scopes.empty⟩ (∀ f ∈ functions, ∃ names',
        Stmt.BlockTyped p f.returns false (Scopes.ofParams f.params) f.body names') := by
  induction functions generalizing types with
  | nil =>
    cases run
    exact .nothing nofun Scopes.empty
  | cons f functions ih =>
    rw [List.flatMap_cons] at distinct ⊢
    rw [List.foldlM_cons] at run
    obtain ⟨types1, first, rest⟩ := exists_of_bind run
    have one := functionBody_finds (written f List.mem_cons_self) distinct.of_append_left
      (ok_of_mapError first)
    have others := ih (fun f member => written f (.tail _ member)) distinct.of_append_right rest
    exact (one.seq others distinct).imp fun found => List.forall_mem_cons.mpr found

end Check

namespace Program

theorem typed_of_check {g : Globals} {count : Nat} {p : Program} (written : g.Written count)
    (h : check g = .ok p) : p.Typed := by
  obtain ⟨⟨structs, c⟩, resolved, h⟩ := exists_of_bind h
  dsimp only at h
  split at h
  · cases h
  · obtain ⟨functions, heads, h⟩ := exists_of_bind h
    obtain ⟨types, bodies, h⟩ := exists_of_bind h
    cases h
    have distinct := written.nodup
    obtain ⟨made, defaults⟩ := Check.Yields.mapM (p := ⟨{ g with structs, functions }, types⟩)
      g.structs distinct.of_append_left (fun s member =>
        Struct.resolve_yields (g := g) rfl s (written.structs s member)) _ structs c resolved
    have names : structs.map Struct.name = g.structs.map Struct.name :=
      map_eq_of_forall₂ made fun _ _ comes => comes.name
    have known {type : Ty} (h : type.Known g) : type.Known { g with structs, functions } :=
      h.mono names.symm rfl
    have comes : List.Forall₂ (Function.Comes g) g.functions functions :=
      (List.forall₂_iff_zip.mpr ⟨(forall₂_of_mapM heads).length_eq, fun {f0 f} pair =>
        Function.resolve_comes (written.functions f0 (List.of_mem_zip pair).1)
          (List.forall₂_zip (forall₂_of_mapM heads) pair)⟩)
    have ids_same : (functions.flatMap fun f => Stmt.idsOf f.body) =
        g.functions.flatMap fun f => Stmt.idsOf f.body := by
      have bodies_same : functions.map (fun f => Stmt.idsOf f.body) =
          g.functions.map fun f => Stmt.idsOf f.body :=
        map_eq_of_forall₂ comes fun _ _ comes => congrArg Stmt.idsOf comes.body
      rw [List.flatMap_def, List.flatMap_def, bodies_same]
    have checked := Check.foldlM_finds (p := ⟨{ g with structs, functions }, types⟩)
      (fun f member => by
        obtain ⟨f0, found, comes⟩ := exists_of_forall₂ comes f member
        exact comes.body ▸ (written.functions f0 found).body)
      (ids_same ▸ distinct.of_append_right) bodies
    obtain ⟨types0, scopes0⟩ := c
    obtain ⟨rfl, defaults⟩ := defaults
    obtain ⟨defaults_typed, bodies_typed⟩ :=
      (defaults.seq checked (ids_same ▸ distinct)).fact fun _ _ => rfl
    refine ⟨fun s member => ?_, fun f member => ?_⟩
    · obtain ⟨_, _, comes⟩ := exists_of_forall₂ made s member
      exact ⟨comes.distinct, fun m found => known (comes.known m found),
        defaults_typed s member⟩
    · obtain ⟨_, _, comes⟩ := exists_of_forall₂ comes f member
      exact ⟨fun param found => known (comes.params param found),
        fun type found => known (comes.returns type found), bodies_typed f member⟩

theorem typed_of_compile {source : String} {p : Program} (h : compile source = .ok p) :
    p.Typed := by
  obtain ⟨g, parsed, checked⟩ := exists_of_bind h
  obtain ⟨count, written⟩ := Globals.parse_written parsed
  exact typed_of_check written checked

end Program
end LoopLang
