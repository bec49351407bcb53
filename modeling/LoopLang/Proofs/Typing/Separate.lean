import LoopLang.Proofs.Relabelling.Checking
import LoopLang.Proofs.Relabelling.Laws
import LoopLang.Proofs.Typing.Accepted

namespace LoopLang

variable {r : Relabelling} {g g' : Globals}

theorem Globals.Matches.refl (g : Globals) : g.Matches .refl g where
  function? name := by rw [Function.relabelled_refl, Option.map_id, id]
  struct? name := by rw [Struct.relabelled_refl, Option.map_id, id]
  enum? name := (Option.map_id_apply).symm
  count := rfl

namespace Noting

def any (r : Relabelling) : Noting r := ⟨fun _ _ => True, fun _ _ _ => trivial⟩

/-- The second table holds what the first one holds, and where that holds nothing what there was
    before. -/
def onto (injective : r.number.Injective) (before : TypeTable) : Noting r where
  related types types' :=
    ∀ id, types'[r.number id]? = types[id]?.or before[r.number id]?
  insert {types types'} id type related := by
    intro other
    rw [Std.TreeMap.getElem?_insert, Std.TreeMap.getElem?_insert]
    by_cases same : id = other
    · rw [same]
      simp
    · have apart : r.number id ≠ r.number other := fun h => same (injective h)
      simpa [same, apart] using related other

end Noting

namespace Function

/-- Checked on its own, the body of the function gets these types. -/
def PassesWith (g : Globals) (f : Function) (types : TypeTable) : Prop :=
  Check.functionBody g f ∅ = .ok types

variable {f : Function} {types types' before noted : TypeTable}

theorem PassesWith.onto (same : g.Matches r g') (injective : r.number.Injective)
    (own : f.PassesWith g noted) (before : TypeTable) :
    ∃ types, Check.functionBody g' (f.relabelled r) before = .ok types ∧
      ∀ id, types[r.number id]? = noted[id]?.or before[r.number id]? := by
  have start : (Noting.onto injective before).related ∅ before := fun id => rfl
  have checked := Check.functionBody_follows same f start
  rw [PassesWith] at own
  rwa [own] at checked

theorem PassesWith.of_check (checked : Check.functionBody g f before = .ok types) :
    ∃ noted : TypeTable, f.PassesWith g noted ∧
      ∀ id : NodeId, types[id]? = noted[id]?.or before[id]? := by
  have start : (Noting.any .refl).related before ∅ := trivial
  have alone := Check.functionBody_follows (.refl g) f start
  rw [checked, relabelled_refl] at alone
  obtain ⟨noted, own, _⟩ := alone
  obtain ⟨types', again, joined⟩ := PassesWith.onto (.refl g) Function.injective_id own before
  rw [relabelled_refl] at again
  cases checked.symm.trans again
  exact ⟨noted, own, joined⟩

theorem PassesWith.own (written : ∀ type ∈ Stmt.typesOf f.body, type.Written)
    (distinct : (Stmt.idsOf f.body).Nodup) (noted : f.PassesWith g types) :
    ∀ id ∉ Stmt.idsOf f.body, types[id]? = none :=
  (Check.functionBody_finds (p := ⟨g, ∅⟩) written distinct noted).others

end Function

namespace Struct

def PassesAs (g : Globals) (s resolved : Struct) (types : TypeTable) : Prop :=
  s.resolve g ⟨∅, Scopes.empty⟩ = .ok (resolved, ⟨types, Scopes.empty⟩)

variable {s resolved : Struct} {types before noted : TypeTable} {c : Context}

theorem PassesAs.onto (same : g.Matches r g') (injective : r.number.Injective)
    (own : s.PassesAs g resolved noted) (before : TypeTable) :
    ∃ types, (s.relabelled r).resolve g' ⟨before, Scopes.empty⟩ =
        .ok (resolved.relabelled r, ⟨types, Scopes.empty⟩) ∧
      ∀ id, types[r.number id]? = noted[id]?.or before[r.number id]? := by
  have start : (Noting.onto injective before).related ∅ before := fun id => rfl
  have checked := follows_resolve same s ⟨∅, Scopes.empty⟩ ⟨before, Scopes.empty⟩ ⟨rfl, start⟩
  rw [PassesAs] at own
  rw [own] at checked
  obtain ⟨⟨types, scopes⟩, ran, kept, joined⟩ := checked
  cases kept
  exact ⟨types, ran, joined⟩

theorem PassesAs.of_check (checked : s.resolve g ⟨before, Scopes.empty⟩ = .ok (resolved, c))
    (outside : c.scopes = Scopes.empty) :
    ∃ noted : TypeTable, s.PassesAs g resolved noted ∧
      ∀ id : NodeId, c.types[id]? = noted[id]?.or before[id]? := by
  have start : (Noting.any .refl).related before ∅ := trivial
  have alone := follows_resolve (.refl g) s ⟨before, Scopes.empty⟩ ⟨∅, Scopes.empty⟩ ⟨rfl, start⟩
  rw [checked, relabelled_refl] at alone
  obtain ⟨⟨noted, scopes⟩, own, kept, _⟩ := alone
  rw [outside] at kept
  cases kept
  obtain ⟨types, again, joined⟩ := PassesAs.onto (.refl g) Function.injective_id own before
  rw [relabelled_refl] at again
  cases checked.symm.trans again
  exact ⟨noted, own, joined⟩

theorem PassesAs.own (written : s.Written) (distinct : s.ids.Nodup)
    (noted : s.PassesAs g resolved types) : ∀ id ∉ s.ids, types[id]? = none :=
  (resolve_yields (p := ⟨g, ∅⟩) rfl s written distinct _ _ _ noted).2.2.others

end Struct

def Adds (types types' : TypeTable) (notes : NodeId → Ty → Prop) : Prop :=
  ∀ (id : NodeId) type, types'[id]? = some type ↔ types[id]? = some type ∨ notes id type

theorem adds_of_onto {types types' noted : TypeTable} {ids : List NodeId}
    (joined : ∀ id : NodeId, types'[id]? = noted[id]?.or types[id]?)
    (own : ∀ id ∉ ids, noted[id]? = none) (fresh : ∀ id ∈ ids, types[id]? = none) :
    Adds types types' fun id type => noted[id]? = some type := by
  intro id type
  rw [joined]
  by_cases within : id ∈ ids
  · simp [fresh id within]
  · simp [own id within]

inductive Steps {α : Type} (step : α → TypeTable → TypeTable → Prop) :
    List α → TypeTable → TypeTable → Prop where
  | nil {types : TypeTable} : Steps step [] types types
  | cons {a : α} {as : List α} {types types' types'' : TypeTable} (first : step a types types')
    (others : Steps step as types' types'') : Steps step (a :: as) types types''

theorem Steps.adds {α : Type} {step : α → TypeTable → TypeTable → Prop} {ids : α → List NodeId}
    {notes : α → NodeId → Ty → Prop} {as : List α} {types types' : TypeTable}
    (each : ∀ a ∈ as, ∀ types types', step a types types' → (∀ id ∈ ids a, types[id]? = none) →
      Adds types types' (notes a))
    (own : ∀ a ∈ as, ∀ id type, notes a id type → id ∈ ids a)
    (steps : Steps step as types types') (distinct : (as.flatMap ids).Nodup)
    (fresh : ∀ id ∈ as.flatMap ids, types[id]? = none) :
    Adds types types' fun id type => ∃ a ∈ as, notes a id type := by
  induction steps with
  | nil => exact fun id type => by simp
  | @cons a as types types' types'' first _ ih =>
    rw [List.flatMap_cons, List.nodup_append'] at distinct
    rw [List.flatMap_cons, List.forall_mem_append] at fresh
    rw [List.forall_mem_cons] at each own
    have now := each.1 _ _ first fresh.1
    have later : ∀ id ∈ as.flatMap ids, types'[id]? = none := by
      intro id member
      rw [Option.eq_none_iff_forall_ne_some]
      intro type noted
      rcases (now id type).mp noted with before | added
      · rw [fresh.2 id member] at before
        cases before
      · exact distinct.2.2 (own.1 id type added) member
    have rest := ih each.2 own.2 distinct.2.1 later
    intro id type
    rw [rest, now, or_assoc]
    simp

namespace Function

def Notes (g : Globals) (f : Function) (id : NodeId) (type : Ty) : Prop :=
  ∃ types, f.PassesWith g types ∧ types[id]? = some type

variable {f : Function}

theorem PassesWith.notes_iff {noted : TypeTable} (own : f.PassesWith g noted) {id : NodeId}
    {type : Ty} : f.Notes g id type ↔ noted[id]? = some type := by
  refine ⟨fun h => ?_, fun found => ⟨noted, own, found⟩⟩
  obtain ⟨types, again, found⟩ := h
  cases own.symm.trans again
  exact found

theorem Notes.mem (written : ∀ type ∈ Stmt.typesOf f.body, type.Written)
    (distinct : (Stmt.idsOf f.body).Nodup) {id : NodeId} {type : Ty}
    (noted : f.Notes g id type) : id ∈ Stmt.idsOf f.body := by
  obtain ⟨types, passes, found⟩ := noted
  by_contra outside
  rw [passes.own written distinct id outside] at found
  cases found

theorem adds_of_check (written : ∀ type ∈ Stmt.typesOf f.body, type.Written)
    (distinct : (Stmt.idsOf f.body).Nodup) {types types' : TypeTable}
    (checked : Check.functionBody g f types = .ok types')
    (fresh : ∀ id ∈ Stmt.idsOf f.body, types[id]? = none) : Adds types types' (f.Notes g) := by
  obtain ⟨noted, passes, joined⟩ := PassesWith.of_check checked
  have adds := adds_of_onto joined (passes.own written distinct) fresh
  intro id type
  rw [adds, passes.notes_iff]

theorem adds_of_steps {fs : List Function} {types types' : TypeTable}
    (written : ∀ f ∈ fs, ∀ type ∈ Stmt.typesOf f.body, type.Written)
    (distinct : (fs.flatMap fun f => Stmt.idsOf f.body).Nodup)
    (steps : Steps (fun f types types' => Check.functionBody g f types = .ok types') fs types
      types')
    (fresh : ∀ id ∈ fs.flatMap fun f => Stmt.idsOf f.body, types[id]? = none) :
    Adds types types' fun id type => ∃ f ∈ fs, f.Notes g id type := by
  have own := (List.nodup_flatMap.mp distinct).1
  refine steps.adds (fun f member types types' ran => ?_) (fun f member id type => ?_)
    distinct fresh
  · exact adds_of_check (written f member) (own f member) ran
  · exact Notes.mem (written f member) (own f member)

theorem name_of_resolve {f f' : Function} (h : f.resolve g = .ok f') : f'.name = f.name := by
  obtain ⟨params, _, h⟩ := exists_of_bind h
  obtain ⟨returns, _, h⟩ := exists_of_bind h
  cases h
  rfl

theorem body_of_resolve {f f' : Function} (h : f.resolve g = .ok f') : f'.body = f.body := by
  obtain ⟨params, _, h⟩ := exists_of_bind h
  obtain ⟨returns, _, h⟩ := exists_of_bind h
  cases h
  rfl

section Heads

variable {fs fs' : List Function} (heads : List.Forall₂ (fun f f' => f.resolve g = .ok f') fs fs')
include heads

theorem ids_of_heads :
    (fs'.flatMap fun f => Stmt.idsOf f.body) = fs.flatMap fun f => Stmt.idsOf f.body := by
  have same : fs'.map (fun f => Stmt.idsOf f.body) = fs.map fun f => Stmt.idsOf f.body :=
    map_eq_of_forall₂ heads fun _ _ resolved => congrArg Stmt.idsOf (body_of_resolve resolved)
  rw [List.flatMap_def, List.flatMap_def, same]

theorem written_of_heads (written : ∀ f ∈ fs, f.Written) :
    ∀ f ∈ fs', ∀ type ∈ Stmt.typesOf f.body, type.Written := by
  intro f' member
  obtain ⟨f, found, resolved⟩ := exists_of_forall₂ heads f' member
  rw [body_of_resolve resolved]
  exact (written f found).body

end Heads

theorem steps_of_foldlM {fs : List Function} {types types' : TypeTable}
    (ran : fs.foldlM (fun types f =>
      (Check.functionBody g f types).mapError (Error.within ⟨f.name, f.position⟩)) types =
        .ok types') :
    (∀ f ∈ fs, ∃ noted, f.PassesWith g noted) ∧
      Steps (fun f types types' => Check.functionBody g f types = .ok types') fs types types' := by
  induction fs generalizing types with
  | nil =>
    cases ran
    exact ⟨List.forall_mem_nil _, .nil⟩
  | cons f fs ih =>
    rw [List.foldlM_cons] at ran
    obtain ⟨types1, first, others⟩ := exists_of_bind ran
    have checked := ok_of_mapError first
    obtain ⟨noted, passes, _⟩ := PassesWith.of_check checked
    obtain ⟨all, steps⟩ := ih others
    exact ⟨List.forall_mem_cons.mpr ⟨⟨noted, passes⟩, all⟩, .cons checked steps⟩

theorem foldlM_of_passes {fs : List Function} (passes : ∀ f ∈ fs, ∃ noted, f.PassesWith g noted)
    (types : TypeTable) : ∃ types', fs.foldlM (fun types f =>
      (Check.functionBody g f types).mapError (Error.within ⟨f.name, f.position⟩)) types =
        .ok types' := by
  induction fs generalizing types with
  | nil => exact ⟨types, rfl⟩
  | cons f fs ih =>
    obtain ⟨⟨noted, first⟩, others⟩ := List.forall_mem_cons.mp passes
    obtain ⟨types1, checked, _⟩ := first.onto (.refl g) Function.injective_id types
    obtain ⟨types', ran⟩ := ih others types1
    rw [relabelled_refl] at checked
    rw [List.foldlM_cons, show Check.functionBody g f types = .ok types1 from checked]
    exact ⟨types', ran⟩

end Function

namespace Struct

def Notes (g : Globals) (s : Struct) (id : NodeId) (type : Ty) : Prop :=
  ∃ resolved types, s.PassesAs g resolved types ∧ types[id]? = some type

variable {s : Struct}

theorem PassesAs.notes_iff {resolved : Struct} {noted : TypeTable}
    (own : s.PassesAs g resolved noted) {id : NodeId} {type : Ty} :
    s.Notes g id type ↔ noted[id]? = some type := by
  refine ⟨fun h => ?_, fun found => ⟨resolved, noted, own, found⟩⟩
  obtain ⟨resolved', types, again, found⟩ := h
  cases own.symm.trans again
  exact found

theorem Notes.mem (written : s.Written) (distinct : s.ids.Nodup) {id : NodeId}
    {type : Ty} (noted : s.Notes g id type) : id ∈ s.ids := by
  obtain ⟨resolved, types, passes, found⟩ := noted
  by_contra outside
  rw [passes.own written distinct id outside] at found
  cases found

theorem adds_of_check (written : s.Written) (distinct : s.ids.Nodup) {types types' : TypeTable}
    {resolved : Struct}
    (checked : s.resolve g ⟨types, Scopes.empty⟩ = .ok (resolved, ⟨types', Scopes.empty⟩))
    (fresh : ∀ id ∈ s.ids, types[id]? = none) : Adds types types' (s.Notes g) := by
  obtain ⟨noted, passes, joined⟩ := PassesAs.of_check checked rfl
  have adds := adds_of_onto joined (passes.own written distinct) fresh
  intro id type
  rw [adds, passes.notes_iff]

theorem adds_of_steps {ss : List Struct} {types types' : TypeTable}
    (written : ∀ s ∈ ss, s.Written) (distinct : (ss.flatMap ids).Nodup)
    (steps : Steps (fun s types types' => ∃ s',
      s.resolve g ⟨types, Scopes.empty⟩ = .ok (s', ⟨types', Scopes.empty⟩)) ss types types')
    (fresh : ∀ id ∈ ss.flatMap ids, types[id]? = none) :
    Adds types types' fun id type => ∃ s ∈ ss, s.Notes g id type := by
  have own := (List.nodup_flatMap.mp distinct).1
  refine steps.adds (fun s member types types' ran => ?_) (fun s member id type => ?_)
    distinct fresh
  · obtain ⟨s', ran⟩ := ran
    exact adds_of_check (written s member) (own s member) ran
  · exact Notes.mem (written s member) (own s member)

theorem steps_of_mapM {ss resolved : List Struct} {types : TypeTable} {c : Context}
    (written : ∀ s ∈ ss, s.Written) (distinct : (ss.flatMap ids).Nodup)
    (ran : ss.mapM (resolve g) ⟨types, Scopes.empty⟩ = .ok (resolved, c)) :
    List.Forall₂ (fun s s' => ∃ noted, s.PassesAs g s' noted) ss resolved ∧
      ∃ types', c = ⟨types', Scopes.empty⟩ ∧ Steps (fun s types types' => ∃ s',
        s.resolve g ⟨types, Scopes.empty⟩ = .ok (s', ⟨types', Scopes.empty⟩)) ss types types' := by
  induction ss generalizing resolved types with
  | nil =>
    cases ran
    exact ⟨.nil, types, rfl, .nil⟩
  | cons s ss ih =>
    rw [List.mapM_cons] at ran
    obtain ⟨⟨s', c1⟩, first, ran⟩ := exists_of_bind ran
    obtain ⟨⟨resolved', c2⟩, others, made⟩ := exists_of_bind ran
    cases made
    rw [List.flatMap_cons] at distinct
    rw [List.forall_mem_cons] at written
    obtain ⟨_, outside, _⟩ := resolve_yields (p := ⟨g, ∅⟩) rfl s written.1
      distinct.of_append_left _ _ _ first
    obtain ⟨types1, scopes⟩ := c1
    change scopes = Scopes.empty at outside
    subst outside
    obtain ⟨noted, passes, _⟩ := PassesAs.of_check first rfl
    obtain ⟨all, types', same, steps⟩ := ih written.2 distinct.of_append_right others
    exact ⟨.cons ⟨noted, passes⟩ all, types', same, .cons ⟨s', first⟩ steps⟩

theorem mapM_of_passes {ss resolved : List Struct}
    (passes : List.Forall₂ (fun s s' => ∃ noted, s.PassesAs g s' noted) ss resolved)
    (types : TypeTable) : ∃ types', ss.mapM (resolve g) ⟨types, Scopes.empty⟩ =
      .ok (resolved, ⟨types', Scopes.empty⟩) := by
  induction passes generalizing types with
  | nil => exact ⟨types, rfl⟩
  | @cons s s' ss resolved first _ ih =>
    obtain ⟨noted, first⟩ := first
    obtain ⟨types1, checked, _⟩ := first.onto (.refl g) Function.injective_id types
    obtain ⟨types', ran⟩ := ih types1
    rw [relabelled_refl] at checked
    rw [List.mapM_cons]
    refine ⟨types', ?_⟩
    change (s.resolve g ⟨types, Scopes.empty⟩ >>= fun pair => ss.mapM (resolve g) pair.2 >>=
      fun rest => Except.ok (pair.1 :: rest.1, rest.2)) = _
    rw [show s.resolve g ⟨types, Scopes.empty⟩ = .ok (s', ⟨types1, Scopes.empty⟩) from checked]
    exact congrArg (· >>= fun rest => Except.ok (s' :: rest.1, rest.2)) ran

end Struct

namespace Globals

/-- Each definition of `g` passes on its own, and `resolved` is what they are resolved to. -/
structure Passes (g resolved : Globals) : Prop where
  structs : List.Forall₂ (fun s s' => ∃ noted, s.PassesAs g s' noted) g.structs resolved.structs
  grounded : Struct.inItself? resolved.structs = none
  heads : List.Forall₂ (fun f f' => f.resolve g = .ok f') g.functions resolved.functions
  bodies : ∀ f ∈ resolved.functions, ∃ noted, f.PassesWith resolved noted
  enums : resolved.enums = g.enums

def Notes (g resolved : Globals) (id : NodeId) (type : Ty) : Prop :=
  (∃ s ∈ g.structs, s.Notes g id type) ∨ ∃ f ∈ resolved.functions, f.Notes resolved id type

end Globals

namespace Program

theorem check_of_passes {resolved : Globals} (passes : g.Passes resolved) :
    ∃ types, check g = .ok ⟨resolved, types⟩ := by
  obtain ⟨functions, structs, enums⟩ := resolved
  obtain ⟨structs_pass, grounded, heads, bodies, same⟩ := passes
  cases same
  obtain ⟨types0, made⟩ := Struct.mapM_of_passes structs_pass ∅
  obtain ⟨types, checked⟩ := Function.foldlM_of_passes bodies types0
  have resolves : g.functions.mapM (Function.resolve g) = .ok functions := mapM_of_forall₂ heads
  refine ⟨types, ?_⟩
  rw [check, StateT.run, made]
  dsimp only [bind, Except.bind]
  rw [grounded]
  dsimp only
  rw [resolves]
  dsimp only
  rw [checked]
  rfl

/-- If the program passes, so does each definition on its own, and the nodes have the types that
    they get there. -/
theorem passes_of_check {count : Nat} {p : Program} (written : g.Written count)
    (checked : check g = .ok p) :
    g.Passes p.globals ∧ Adds ∅ p.types (g.Notes p.globals) := by
  obtain ⟨⟨structs, c⟩, resolved, checked⟩ := exists_of_bind checked
  dsimp only at checked
  split at checked
  · cases checked
  · rename_i grounded
    obtain ⟨functions, heads, checked⟩ := exists_of_bind checked
    obtain ⟨types, bodies, made⟩ := exists_of_bind checked
    cases made
    have heads := forall₂_of_mapM heads
    obtain ⟨own_structs, own_bodies, apart⟩ := List.nodup_append'.mp written.nodup
    rw [← Function.ids_of_heads heads] at own_bodies apart
    obtain ⟨structs_pass, defaults, rfl, struct_steps⟩ :=
      Struct.steps_of_mapM written.structs own_structs resolved
    obtain ⟨bodies_pass, function_steps⟩ := Function.steps_of_foldlM bodies
    refine ⟨⟨structs_pass, grounded, heads, bodies_pass, rfl⟩, ?_⟩
    have noted : Adds ∅ defaults fun id type => ∃ s ∈ g.structs, s.Notes g id type :=
      Struct.adds_of_steps written.structs own_structs struct_steps fun _ _ => rfl
    -- Bodies have other nodes than defaults.
    have fresh : ∀ id ∈ functions.flatMap fun f => Stmt.idsOf f.body, defaults[id]? = none := by
      intro id inBody
      rw [Option.eq_none_iff_forall_ne_some]
      intro type found
      rcases (noted id type).mp found with before | ⟨s, member, noted⟩
      · cases before
      · have own := (List.nodup_flatMap.mp own_structs).1 s member
        have inDefault := noted.mem (written.structs s member) own
        exact apart (List.mem_flatMap.mpr ⟨s, member, inDefault⟩) inBody
    have later := Function.adds_of_steps (Function.written_of_heads heads written.functions)
      own_bodies function_steps fresh
    intro id type
    rw [later, noted, or_assoc]
    rfl

end Program
end LoopLang
