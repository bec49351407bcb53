import LoopLang.Proofs.Tree.Progress
import LoopLang.Proofs.Typing.Verdict.Stmt

namespace LoopLang

namespace Decided

variable {α β : Type}

theorem of_ok {x : Except Error α} {P : α → Prop} (refuses : Decided x fun _ => True)
    (h : ∀ a, x = .ok a → P a) : Decided x P := by
  cases x with
  | error e => exact refuses
  | ok a => exact h a rfl

theorem mapM {f : α → Except Error β} {R : α → β → Prop} {as : List α}
    (each : ∀ a ∈ as, Decided (f a) (R a)) : Decided (as.mapM f) (List.Forall₂ R as) := by
  induction as with
  | nil => exact .nil
  | cons a as ih =>
    rw [List.mapM_cons]
    refine (each a List.mem_cons_self).bind fun b made => ?_
    refine (ih fun a member => each a (.tail _ member)).bind fun bs others => ?_
    exact List.Forall₂.cons made others

end Decided

namespace Check

theorem Decides.mapM {α β : Type} {g : Globals} {f : α → Check β} {ids : α → List NodeId}
    {R : α → β → Prop} {as : List α} {c : Context} (sound : c.Sound g)
    (each : ∀ a ∈ as, ∀ c : Context, c.Sound g →
      (f a).Decides c fun b c' => R a b ∧ c.Reads g (ids a) c') :
    (as.mapM f).Decides c fun bs c' =>
      List.Forall₂ R as bs ∧ c.Reads g (as.flatMap ids) c' := by
  induction as generalizing c with
  | nil => exact Decides.pure ⟨.nil, .nothing sound⟩
  | cons a as ih =>
    rw [List.mapM_cons, List.flatMap_cons]
    refine (each a List.mem_cons_self c sound).bind fun b c1 ends => ?_
    obtain ⟨made, first⟩ := ends
    refine (ih first.2.sound fun a member => each a (.tail _ member)).bind fun bs c2 ends => ?_
    exact Decides.pure ⟨.cons made ends.1, first.seq ends.2⟩

end Check

namespace Struct

variable {g : Globals} {c : Context}

theorem defaultType_decides (sound : c.Sound g) (e : Expr) :
    (defaultType g e).Decides c fun _ c' => c.Reads g e.ids c' := by
  unfold defaultType
  split
  · rename_i node value
    refine Check.liftAt_decides fun type literal => Check.record_decides (Check.Decides.pure ?_)
    exact (Context.Reads.nothing sound).record (Ty.known_ofLiteral literal) node.id
  · rename_i node root name at_
    split
    · refine Check.liftAt_decides fun type entry => Check.record_decides (Check.Decides.pure ?_)
      obtain ⟨rfl, e, lookup, _⟩ := Check.ofEnumMember_eq_ok entry
      exact (Context.Reads.nothing sound).record (Ty.known_enum lookup) node.id
    · exact Check.Decides.refuse
  · exact Check.Decides.fail

theorem resolveMember_decides (sound : c.Sound g) (m : Member) (written : m.type.Written) :
    (resolveMember g m).Decides c fun m' c' =>
      (m'.type.Known g ∧ m'.ids = m.ids) ∧ c.Reads g m.ids c' := by
  refine (Check.lift_decides (written.decided m.position)).bind ?_
  intro type _ ends
  obtain ⟨rfl, known⟩ := ends
  unfold Member.ids
  split
  · rename_i none_given
    rw [none_given]
    exact Check.Decides.pure ⟨⟨known, rfl⟩, .nothing sound⟩
  · rename_i e given
    rw [given]
    refine (defaultType_decides sound e).bind fun found c1 read => ?_
    dsimp only
    split
    · exact Check.Decides.pure ⟨⟨known, rfl⟩, read⟩
    · exact Check.Decides.refuse

structure Settles (g : Globals) (written s : Struct) : Prop where
  name : s.name = written.name
  known : ∀ m ∈ s.members, m.type.Known g
  ids : s.ids = written.ids

theorem resolve_decides (sound : c.Sound g) (s : Struct) (written : s.Written) :
    (resolve g s).Decides c fun s' c' => s.Settles g s' ∧ c.Reads g s.ids c' := by
  refine (Check.Decides.mapM sound fun m member c sound =>
    resolveMember_decides sound m (written.types m member)).bind fun members c1 ends => ?_
  obtain ⟨made, read⟩ := ends
  refine Check.Decides.pure ⟨⟨rfl, fun m member => ?_, ?_⟩, read⟩
  · obtain ⟨_, _, known, _⟩ := exists_of_forall₂ made m member
    exact known
  · have same := map_eq_of_forall₂ made fun _ _ settled => settled.2
    rw [ids, ids, List.flatMap_def, List.flatMap_def, same]

end Struct

namespace Function

variable {g : Globals}

theorem resolve_decides (f : Function) (written : f.Written) :
    Decided (f.resolve g) (f.Comes g) := by
  refine Decided.of_ok ?_ fun _ => resolve_comes written
  refine (Decided.mapM (R := fun _ _ => True) fun param member => ?_).bind fun params _ => ?_
  · exact ((written.params param member).decided param.position).bind fun _ _ => trivial
  · refine Decided.bind (P := fun _ => True) ?_ fun _ _ => trivial
    cases declared : f.returns with
    | none => trivial
    | some named =>
      exact ((written.returns named declared).decided f.position).bind fun _ _ => trivial

end Function

namespace Check

variable {g : Globals} {f : Function} {c : Context} {types : TypeTable}

theorem params_decides (params : List Param) (known : ∀ param ∈ params, param.type.Known g)
    (sound : c.Sound g) :
    (Check.params params).Decides c fun _ c' => Completes g c [] [] c' := by
  induction params generalizing c with
  | nil => exact Decides.pure ⟨rfl, .nothing sound⟩
  | cons param params ih =>
    refine (declare_decides sound param.name (known param List.mem_cons_self) _
      param.position).bind fun _ c1 first => ?_
    refine (ih (fun param member => known param (.tail _ member)) first.2.sound).mono
      fun _ c2 rest => ?_
    exact ⟨rest.1.trans first.1, first.2.seq rest.2⟩

theorem sound_empty (noted : ∀ (id : NodeId) type, types[id]? = some type → type.Known g) :
    Context.Sound g ⟨types, Scopes.empty⟩ := ⟨noted, nofun⟩

theorem functionBody_decides (resolved : g.Resolved)
    (params_known : ∀ param ∈ f.params, param.type.Known g)
    (written : ∀ type ∈ Stmt.typesOf f.body, type.Written)
    (sound : Context.Sound g ⟨types, Scopes.empty⟩) :
    Decided (functionBody g f types) fun types' => Context.Filled g ⟨types, Scopes.empty⟩
      (Stmt.idsOf f.body) (Stmt.silentOf g f.body) ⟨types', Scopes.empty⟩ := by
  have body : (do params f.params; Body.stmts ⟨g, f⟩ false f.body : Check Unit).Decides
      ⟨types, Scopes.empty⟩ fun _ c' =>
        Completes g ⟨types, Scopes.empty⟩ (Stmt.idsOf f.body) (Stmt.silentOf g f.body) c' := by
    refine (params_decides f.params params_known sound).bind fun _ c1 begun => ?_
    refine (stmts_decides resolved f f.body written false c1 begun.2.sound).mono
      fun _ c2 ends => ?_
    exact ⟨ends.1.trans begun.1, begun.2.seq ends.2⟩
  refine Decided.bind body fun ends complete => ?_
  exact ⟨sound_empty complete.2.sound.noted, complete.2.noted⟩

theorem foldlM_decides (resolved : g.Resolved) (functions : List Function)
    (known : ∀ f ∈ functions, ∀ param ∈ f.params, param.type.Known g)
    (written : ∀ f ∈ functions, ∀ type ∈ Stmt.typesOf f.body, type.Written)
    (sound : Context.Sound g ⟨types, Scopes.empty⟩) :
    Decided (functions.foldlM (fun types f =>
      (functionBody g f types).mapError (Error.within ⟨f.name, f.position⟩)) types)
      fun types' => Context.Filled g ⟨types, Scopes.empty⟩
        (functions.flatMap fun f => Stmt.idsOf f.body)
        (functions.flatMap fun f => Stmt.silentOf g f.body) ⟨types', Scopes.empty⟩ := by
  induction functions generalizing types with
  | nil => exact Context.Filled.nothing sound
  | cons f functions ih =>
    have body := functionBody_decides resolved (known f List.mem_cons_self)
      (written f List.mem_cons_self) sound
    have named : Decided ((functionBody g f types).mapError (Error.within ⟨f.name, f.position⟩))
        fun types' => Context.Filled g ⟨types, Scopes.empty⟩ (Stmt.idsOf f.body)
          (Stmt.silentOf g f.body) ⟨types', Scopes.empty⟩ := by
      cases ran : functionBody g f types with
      | error e =>
        rw [ran] at body
        obtain ⟨refusal, rfl⟩ := body
        exact ⟨_, rfl⟩
      | ok types' => exact body.ok ran
    rw [List.foldlM_cons, List.flatMap_cons, List.flatMap_cons]
    refine named.bind fun types1 first => ?_
    exact (ih (fun f member => known f (.tail _ member))
      (fun f member => written f (.tail _ member)) first.sound).mono fun _ rest => first.seq rest

end Check

namespace Globals

theorem parseOnto_cases {g : Globals} {fuel definitions : Nat} {r : Reader}
    (all : r.rest.length ≤ definitions) (enough : 10 * r.rest.length + 1 ≤ fuel) :
    (∃ g', parseOnto g fuel definitions r = .ok g') ∨
      (∃ e, parseOnto g fuel definitions r = .error (.parse e) ∧ e.cause ≠ .tooDeep) ∨
      ∃ e, parseOnto g fuel definitions r = .error (.compile e) := by
  induction definitions generalizing g r with
  | zero =>
    have empty : r.rest.isEmpty := List.isEmpty_iff_length_eq_zero.mpr (Nat.le_zero.mp all)
    rw [parseOnto, if_pos empty]
    exact .inl ⟨g, rfl⟩
  | succ definitions ih =>
    have progress := Definition.parse_leaves enough r rfl
    unfold parseOnto
    split
    · exact .inl ⟨_, rfl⟩
    · split
      · rename_i e failed
        rw [StateT.run] at failed
        rw [failed] at progress
        exact .inr (.inl ⟨e, rfl, progress⟩)
      · rename_i d r' read
        rw [StateT.run] at read
        rw [read] at progress
        dsimp only at progress
        split
        · exact .inr (.inr ⟨_, rfl⟩)
        · exact ih (by omega) (by omega)

theorem parse_cases (source : String) :
    (∃ g, parse source = .ok g) ∨
      (∃ e, parse source = .error (.parse e) ∧ e.cause ≠ .tooDeep) ∨
      ∃ e, parse source = .error (.compile e) := by
  unfold parse
  split
  · exact .inr (.inl ⟨_, rfl, nofun⟩)
  · rename_i l _
    exact parseOnto_cases (Nat.le_refl _) (by dsimp only; omega)

end Globals

namespace Program

/-- The types that a program names are known, and so are those in its table, which has the nodes
    of the program without its calls that stand as statements and return nothing. -/
structure Annotated (p : Program) : Prop where
  resolved : p.globals.Resolved
  known : ∀ (id : NodeId) type, p.types[id]? = some type → type.Known p.globals
  keys : ∀ id : NodeId, id ∈ p.types ↔ id ∈ p.globals.ids ∧ id ∉ p.globals.silent

theorem keys_of_filled {g : Globals} {ids silent : List NodeId} {types : TypeTable}
    (h : Context.Filled g ⟨∅, Scopes.empty⟩ ids silent ⟨types, Scopes.empty⟩)
    (distinct : ids.Nodup) (id : NodeId) : id ∈ types ↔ id ∈ ids ∧ id ∉ silent := by
  obtain ⟨noted, all, keys⟩ := h.noted
  have apart := List.nodup_append.mp (all.nodup_iff.mpr distinct)
  rw [keys, ← all.mem_iff, List.mem_append]
  constructor
  · intro found
    rcases found with before | found
    · exact (Std.TreeMap.not_mem_emptyc before).elim
    · exact ⟨.inl found, fun silent => apart.2.2 id found id silent rfl⟩
  · intro both
    exact .inr (both.1.resolve_right both.2)

theorem check_decided {g : Globals} {count : Nat} (written : g.Written count) :
    Decided (check g) Annotated := by
  have distinct := written.nodup
  have start : Context.Sound g ⟨∅, Scopes.empty⟩ := Check.sound_empty fun id type found => by
    rw [Std.TreeMap.getElem?_emptyc] at found
    cases found
  refine Decided.bind (Check.Decides.mapM start fun s member c sound =>
    Struct.resolve_decides sound s (written.structs s member)) fun ends settled => ?_
  obtain ⟨structs, types, scopes⟩ := ends
  obtain ⟨made, same, defaults⟩ := settled
  cases same
  dsimp only at made defaults ⊢
  split
  · exact ⟨_, rfl⟩
  · refine (Decided.mapM fun f member => Function.resolve_decides f
      (written.functions f member)).bind fun functions comes => ?_
    -- Names of types stand for the same after the types are resolved.
    have names : structs.map Struct.name = g.structs.map Struct.name :=
      map_eq_of_forall₂ made fun _ _ settled => settled.name
    have known {type : Ty} (h : type.Known g) : type.Known { g with structs, functions } :=
      h.mono names.symm rfl
    have struct_ids : structs.map Struct.ids = g.structs.map Struct.ids :=
      map_eq_of_forall₂ made fun _ _ settled => settled.ids
    have body_ids : functions.map (fun f => Stmt.idsOf f.body) =
        g.functions.map fun f => Stmt.idsOf f.body :=
      map_eq_of_forall₂ comes fun _ _ comes => congrArg Stmt.idsOf comes.body
    have ids_same : Globals.ids { g with structs, functions } = g.ids := by
      simp only [Globals.ids, List.flatMap_def, struct_ids, body_ids]
    have resolved : Globals.Resolved { g with structs, functions } := by
      refine ⟨fun s member m found => ?_, fun f member param found => ?_,
        fun f member type found => ?_⟩
      · obtain ⟨_, _, settled⟩ := exists_of_forall₂ made s member
        exact known (settled.known m found)
      · obtain ⟨_, _, comes⟩ := exists_of_forall₂ comes f member
        exact known (comes.params param found)
      · obtain ⟨_, _, comes⟩ := exists_of_forall₂ comes f member
        exact known (comes.returns type found)
    have begun : Context.Filled { g with structs, functions } ⟨∅, Scopes.empty⟩
        (structs.flatMap Struct.ids) [] ⟨types, Scopes.empty⟩ := by
      rw [List.flatMap_def, struct_ids, ← List.flatMap_def]
      exact ⟨Check.sound_empty fun id type found => known (defaults.sound.noted id type found),
        defaults.noted⟩
    refine (Check.foldlM_decides resolved functions resolved.params (fun f member => ?_)
      begun.sound).bind fun types' bodies => ?_
    · obtain ⟨f0, found, comes⟩ := exists_of_forall₂ comes f member
      exact comes.body ▸ (written.functions f0 found).body
    · have filled := begun.seq bodies
      exact ⟨resolved, filled.sound.noted, keys_of_filled filled (ids_same ▸ distinct)⟩

/-- Every text is compiled or refused, and for what it says: no check comes upon a state that it
    takes for impossible, and reading never reaches its bound. -/
theorem compile_cases (source : String) :
    (∃ p, compile source = .ok p) ∨
      (∃ e, compile source = .error (.parse e) ∧ e.cause ≠ .tooDeep) ∨
      ∃ e, compile source = .error (.compile e) := by
  unfold compile
  rcases Globals.parse_cases source with ⟨g, parsed⟩ | ⟨e, refused, text⟩ | ⟨e, refused⟩
  · obtain ⟨count, written⟩ := Globals.parse_written parsed
    have decided := check_decided written
    rw [parsed]
    change (∃ p, check g = .ok p) ∨
      (∃ e, check g = .error (.parse e) ∧ e.cause ≠ .tooDeep) ∨
      ∃ e, check g = .error (.compile e)
    cases checked : check g with
    | ok p => exact .inl ⟨p, rfl⟩
    | error e =>
      rw [checked] at decided
      obtain ⟨refusal, rfl⟩ := decided
      exact .inr (.inr ⟨refusal, rfl⟩)
  · rw [refused]
    exact .inr (.inl ⟨e, rfl, text⟩)
  · rw [refused]
    exact .inr (.inr ⟨e, rfl⟩)

theorem annotated_of_compile {source : String} {p : Program} (compiled : compile source = .ok p) :
    p.Annotated := by
  obtain ⟨g, parsed, checked⟩ := exists_of_bind compiled
  obtain ⟨count, written⟩ := Globals.parse_written parsed
  exact (check_decided written).ok checked

def weighing : String :=
  "enum Size { Small, Large } struct Crate { size: Size = Size.Small, weights: [u8] } " ++
  "func main() { c: Crate; c.weights.append(3); print(c.weights[0] + 1); }"

set_option maxRecDepth 100000 in
theorem annotated_weighing : ∃ p, compile weighing = .ok p ∧ p.globals.ids.length = 9 ∧
    p.globals.silent.length = 2 ∧ p.Annotated := by
  have facts : (compile weighing).toOption.any fun p =>
    p.globals.ids.length == 9 && p.globals.silent.length == 2 := by decide +kernel
  obtain ⟨p, compiled, facts⟩ := exists_of_any facts
  rw [Bool.and_eq_true, beq_iff_eq, beq_iff_eq] at facts
  exact ⟨p, compiled, facts.1, facts.2, annotated_of_compile compiled⟩

end Program
end LoopLang
