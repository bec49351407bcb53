import LoopLang.Proofs.Related
import LoopLang.Proofs.Value.Typed

namespace LoopLang

namespace Struct

variable {p : Program} {s : Struct} {m : Member}

theorem member?_of_mem (distinct : (s.members.map Member.name).Nodup) (declared : m ∈ s.members) :
    s.member? m.name = some m := by
  obtain ⟨found, lookup⟩ := exists_member? (List.mem_map_of_mem declared)
  have same : found.name = m.name := by simpa using List.find?_some lookup
  have eq := List.inj_on_of_nodup_map distinct (List.mem_of_find?_eq_some lookup) declared same
  rw [eq] at lookup
  exact lookup

theorem typed_of_struct? {name : String} (typed : p.Typed)
    (lookup : p.globals.struct? name = some s) : s.Typed p :=
  typed.structs s (List.mem_of_find?_eq_some lookup)

end Struct

/-- The value that a literal or a member of an enum stands for. The type of an integer is open. -/
inductive Expr.Denotes : Expr → Value → Prop where
  | integer {node v t} : Expr.Denotes (.literal node (.integer v)) (.int v t)
  | float {node x} : Expr.Denotes (.literal node (.float x)) (.float x.toFloat32)
  | string {node s} : Expr.Denotes (.literal node (.string s)) (.string s)
  | char {node c} : Expr.Denotes (.literal node (.char c)) (.char c)
  | bool {node b} : Expr.Denotes (.literal node (.bool b)) (.bool b)
  | entry {node root name nameAt} :
    Expr.Denotes (.place node root [.member name nameAt]) (.enum root name)

theorem Expr.Denotes.coerce {e : Expr} {v : Value} (h : e.Denotes v) (target : Ty) :
    e.Denotes (v.coerce target) := by
  rcases v.coerce_cases target with same | ⟨i, s, t, rfl, _, retagged⟩ | ⟨_, _, _, rfl, _⟩
  · rwa [same]
  · rw [retagged]
    cases h
    exact .integer
  · cases h

namespace Value

/-- What a variable of a type begins with. A struct has all its members: each denotes its declared
default, or else begins itself as its type does. -/
inductive Initial (g : Globals) : Value → Ty → Prop where
  | primitive {t} : Initial g (Program.primitiveDefault t) (.primitive t)
  | array {element} : Initial g (.array element []) (.array element)
  | struct {name fields s} :
    g.struct? name = some s →
    fields.map Prod.fst = s.members.map Member.name →
    (∀ m ∈ s.members, ∀ e ∈ m.default, ∀ v, (m.name, v) ∈ fields → e.Denotes v) →
    (∀ m ∈ s.members, m.default = none → ∀ v, (m.name, v) ∈ fields → Initial g v m.type) →
    Initial g (.struct name fields) (.struct name)

structure Begins (g : Globals) (m : Member) (v : Value) : Prop where
  typed : v.HasType g m.type
  declared : ∀ e ∈ m.default, e.Denotes v
  initial : m.default = none → v.Initial g m.type

variable {g : Globals} {s : Struct}

theorem begins_of_forall₂ {name : String} {fields : List (String × Value)}
    (lookup : g.struct? name = some s) (distinct : (s.members.map Member.name).Nodup)
    (made : List.Forall₂ (fun m field => field.1 = m.name ∧ Begins g m field.2) s.members fields) :
    (Value.struct name fields).HasType g (.struct name) ∧
      (Value.struct name fields).Initial g (.struct name) := by
  have keys : fields.map Prod.fst = s.members.map Member.name :=
    map_eq_of_forall₂ made fun _ _ pair => pair.1
  have begins : ∀ m ∈ s.members, ∀ v, (m.name, v) ∈ fields → Begins g m v := by
    intro m declared v member
    obtain ⟨m', declared', named, begins⟩ := exists_of_forall₂ made (m.name, v) member
    exact List.inj_on_of_nodup_map distinct declared declared' named ▸ begins
  constructor
  · have typed : FieldsOf g s fields := by
      refine ⟨keys ▸ distinct, fun key v member => ?_⟩
      obtain ⟨m, declared, named, begins⟩ := exists_of_forall₂ made (key, v) member
      change key = m.name at named
      exact ⟨m, named ▸ Struct.member?_of_mem distinct declared, begins.typed⟩
    exact typed.hasType lookup fun m declared => keys ▸ List.mem_map_of_mem declared
  · exact .struct lookup keys
      (fun m declared e given v member => (begins m declared v member).declared e given)
      fun m declared not_given v member => (begins m declared v member).initial not_given

end Value

namespace Program

variable {p : Program} {node : Node} {type : Ty} {position : Position}
  {name : String}

theorem typeOf_eq (noted : p.types[node.id]? = some type) : p.typeOf node = .ok type := by
  rw [typeOf, noted]

theorem exists_literal {value : Literal} (picked : Ty.ofLiteral value = .ok type)
    (noted : p.types[node.id]? = some type) :
    ∃ v, p.literal node value = .ok v ∧ v.HasType p.globals type ∧
      (Expr.literal node value).Denotes v := by
  cases value with
  | integer value =>
    simp only [Ty.ofLiteral] at picked
    split at picked
    · rename_i t narrowest
      cases picked
      unfold IntTy.ofLiteral? at narrowest
      have fits := List.find?_some narrowest
      refine ⟨.int value t, ?_, .int fits, .integer⟩
      rw [literal, typeOf_eq noted]
      rfl
    · cases picked
  | float value =>
    cases picked
    exact ⟨_, rfl, .float, .float⟩
  | string value =>
    cases picked
    exact ⟨_, rfl, .string, .string⟩
  | char value =>
    cases picked
    exact ⟨_, rfl, .char, .char⟩
  | bool value =>
    cases picked
    exact ⟨_, rfl, .bool, .bool⟩

theorem literal_answers {value : Literal} (picked : Ty.ofLiteral value = .ok type)
    (noted : p.types[node.id]? = some type) :
    Answers (p.literal node value) (·.HasType p.globals type) := by
  obtain ⟨v, made, typed, _⟩ := exists_literal picked noted
  rw [made]
  exact typed

theorem exists_declaredDefault {e : Expr} (h : e.Constant p type) :
    ∃ v, p.declaredDefault e = .ok v ∧ v.HasType p.globals type ∧ e.Denotes v := by
  cases h with
  | literal picked noted => exact exists_literal picked noted
  | entry found entry => exact ⟨_, rfl, .enum found entry, .entry⟩

theorem hasType_primitiveDefault (t : Primitive) :
    (primitiveDefault t).HasType p.globals (.primitive t) := by
  cases t with
  | int t =>
    refine .int ?_
    cases t <;> decide
  | _ => constructor

theorem exists_memberValue {s : Struct} {m : Member} {e : Expr} (typed : s.Typed p)
    (declared : m ∈ s.members) (given : m.default = some e) :
    ∃ v, p.declaredDefault e = .ok v ∧ (v.coerce m.type).Begins p.globals m := by
  obtain ⟨found, constant, accepted⟩ := typed.defaults m declared e given
  obtain ⟨v, made, found_typed, denotes⟩ := exists_declaredDefault constant
  refine ⟨v, made, found_typed.coerce (typed.known m declared).specific accepted, ?_, ?_⟩
  · rw [given]
    rintro _ ⟨⟩
    exact denotes.coerce m.type
  · rw [given]
    exact nofun

def fieldWithin (p : Program) (position : Position) (depth : Nat) (m : Member) :
    Except Fault (String × Value) :=
  match m.default with
  | some e => do return (m.name, (← p.declaredDefault e).coerce m.type)
  | none => do return (m.name, ← p.defaultWithin position depth m.type)

theorem defaultWithin_struct {s : Struct} (lookup : p.globals.struct? name = some s)
    (depth : Nat) : p.defaultWithin position (depth + 1) (.struct name) =
      Value.struct name <$> s.members.mapM (p.fieldWithin position depth) := by
  unfold defaultWithin
  simp only [lookup]
  rw [map_eq_pure_bind]
  rfl

theorem exists_leafDefault {depth : Nat}
    (defaults : p.globals.hasDefaultWithin depth type = true)
    (leaf : ∀ name, type ≠ .struct name) :
    ∃ v, p.defaultWithin position depth type = .ok v ∧ v.HasType p.globals type ∧
      v.Initial p.globals type := by
  cases type with
  | primitive t =>
    exact ⟨primitiveDefault t, by rw [defaultWithin], hasType_primitiveDefault t, .primitive⟩
  | array element => exact ⟨.array element [], by rw [defaultWithin], .array nofun, .array⟩
  | struct name => exact absurd rfl (leaf name)
  | _ => simp [Globals.hasDefaultWithin] at defaults

theorem exists_defaultWithin (typed : p.Typed) {depth : Nat}
    (defaults : p.globals.hasDefaultWithin depth type = true) :
    ∃ v, p.defaultWithin position depth type = .ok v ∧ v.HasType p.globals type ∧
      v.Initial p.globals type := by
  induction depth generalizing type with
  | zero =>
    cases type with
    | struct name => simp [Globals.hasDefaultWithin] at defaults
    | _ => exact exists_leafDefault defaults nofun
  | succ depth ih =>
    cases type with
    | struct name =>
      rw [Globals.hasDefaultWithin, Option.any_eq_true] at defaults
      obtain ⟨s, lookup, members⟩ := defaults
      have found := Struct.typed_of_struct? typed lookup
      have each : ∀ m ∈ s.members, ∃ field, p.fieldWithin position depth m = .ok field ∧
          field.1 = m.name ∧ field.2.Begins p.globals m := by
        intro m declared
        unfold fieldWithin
        cases given : m.default with
        | some e =>
          obtain ⟨v, made, begins⟩ := exists_memberValue found declared given
          exact ⟨(m.name, v.coerce m.type), by dsimp only; rw [made]; rfl, rfl, begins⟩
        | none =>
          have inside := List.all_eq_true.mp members m declared
          rw [given] at inside
          obtain ⟨v, made, v_typed, initial⟩ := ih (by simpa using inside)
          refine ⟨(m.name, v), by dsimp only; rw [made]; rfl, rfl, v_typed, ?_, fun _ => initial⟩
          rw [given]
          exact nofun
      obtain ⟨fields, made, begin⟩ := exists_mapM each
      exact ⟨.struct name fields, by rw [defaultWithin_struct lookup, made]; rfl,
        Value.begins_of_forall₂ lookup found.distinct begin⟩
    | _ => exact exists_leafDefault defaults nofun

theorem defaultWithin_refused {depth : Nat}
    (refused : p.globals.hasDefaultWithin depth type = false) :
    ∃ fault, p.defaultWithin position depth type = .error fault := by
  induction depth generalizing type with
  | zero =>
    cases type with
    | primitive t => simp [Globals.hasDefaultWithin] at refused
    | array element => simp [Globals.hasDefaultWithin] at refused
    | struct name =>
      unfold defaultWithin
      cases p.globals.struct? name <;> exact ⟨_, rfl⟩
    | _ => exact ⟨_, by rw [defaultWithin] <;> nofun⟩
  | succ depth ih =>
    cases type with
    | primitive t => simp [Globals.hasDefaultWithin] at refused
    | array element => simp [Globals.hasDefaultWithin] at refused
    | struct name =>
      cases lookup : p.globals.struct? name with
      | none =>
        unfold defaultWithin
        simp only [lookup]
        exact ⟨_, rfl⟩
      | some s =>
        rw [Globals.hasDefaultWithin, lookup, Option.any_some, List.all_eq_false] at refused
        obtain ⟨m, declared, lacks⟩ := refused
        rw [Bool.not_eq_true, Bool.or_eq_false_iff, Option.isSome_eq_false_iff,
          Option.isNone_iff_eq_none] at lacks
        obtain ⟨fault, inside⟩ := ih lacks.2
        have fails : p.fieldWithin position depth m = .error fault := by
          rw [fieldWithin, lacks.1, inside]
          rfl
        obtain ⟨other, first⟩ := mapM_eq_error declared fails
        exact ⟨other, by rw [defaultWithin_struct lookup, first]; rfl⟩
    | _ => exact ⟨_, by rw [defaultWithin] <;> nofun⟩

theorem defaultWithin_answers (typed : p.Typed) {depth : Nat}
    (defaults : p.globals.hasDefaultWithin depth type = true) :
    Answers (p.defaultWithin position depth type) (·.HasType p.globals type) := by
  obtain ⟨v, made, v_typed, _⟩ := exists_defaultWithin typed defaults
  rw [made]
  exact v_typed

theorem exists_memberDefault {s : Struct} {m : Member} (typed : p.Typed)
    (lookup : p.globals.struct? name = some s) (declared : m ∈ s.members)
    (defaults : m.default.isSome ∨ p.globals.hasDefault m.type = true) :
    ∃ v, p.memberDefault position m = .ok v ∧ v.Begins p.globals m := by
  unfold memberDefault
  cases given : m.default with
  | some e =>
    obtain ⟨v, made, begins⟩ :=
      exists_memberValue (Struct.typed_of_struct? typed lookup) declared given
    exact ⟨v.coerce m.type, by dsimp only; rw [made]; rfl, begins⟩
  | none =>
    rw [given] at defaults
    obtain ⟨v, made, v_typed, initial⟩ := exists_defaultWithin typed
      (by simpa [Globals.hasDefault] using defaults)
    refine ⟨v, made, v_typed, ?_, fun _ => initial⟩
    rw [given]
    exact nofun

theorem memberDefault_refused {m : Member} (not_given : m.default = none)
    (refused : p.globals.hasDefault m.type = false) :
    ∃ fault, p.memberDefault position m = .error fault := by
  rw [memberDefault, not_given]
  exact defaultWithin_refused refused

/-- The fields of a struct once its members are completed: those that were given, and for each of
the others what it begins with. -/
structure Completes (g : Globals) (members : List Member) (fields done : List (String × Value)) :
    Prop where
  kept : ∀ key v, fields.lookup key = some v → done.lookup key = some v
  begun : ∀ m ∈ members, fields.lookup m.name = none →
    ∃ v, done.lookup m.name = some v ∧ v.Begins g m
  only : ∀ key v, (key, v) ∈ done →
    (key, v) ∈ fields ∨ ∃ m ∈ members, key = m.name ∧ v.Begins g m
  distinct : (fields.map Prod.fst).Nodup → (done.map Prod.fst).Nodup

namespace Completes

variable {g : Globals} {m : Member} {members : List Member} {v : Value}
  {fields done : List (String × Value)}

theorem nothing (g : Globals) (fields : List (String × Value)) : Completes g [] fields fields :=
  ⟨fun _ _ found => found, nofun, fun _ _ => .inl, id⟩

theorem given (h : Completes g members fields done) (present : (fields.lookup m.name).isSome) :
    Completes g (m :: members) fields done := by
  refine ⟨h.kept, ?_, fun key v member => ?_, h.distinct⟩
  · intro m' declared absent
    rcases List.mem_cons.mp declared with rfl | later
    · rw [absent] at present
      cases present
    · exact h.begun m' later absent
  · exact (h.only key v member).imp_right fun found =>
      found.imp fun m' ends => ⟨.tail _ ends.1, ends.2⟩

theorem left (h : Completes g members (Value.insertField m.name v fields) done)
    (absent : fields.lookup m.name = none) (begins : v.Begins g m)
    (same : ∀ m' ∈ members, m'.name = m.name → m' = m) :
    Completes g (m :: members) fields done := by
  refine ⟨fun key w found => ?_, ?_, fun key w member => ?_, fun distinct => ?_⟩
  · refine h.kept key w ?_
    rw [Value.lookup_insertField, if_neg, found]
    rintro rfl
    rw [absent] at found
    cases found
  · have here : done.lookup m.name = some v :=
      h.kept m.name v (by rw [Value.lookup_insertField, if_pos rfl])
    intro m' declared absent'
    rcases List.mem_cons.mp declared with rfl | later
    · exact ⟨v, here, begins⟩
    · by_cases named : m'.name = m.name
      · cases same m' later named
        exact ⟨v, here, begins⟩
      · exact h.begun m' later (by rw [Value.lookup_insertField, if_neg named, absent'])
  · rcases h.only key w member with before | later
    · rcases Value.mem_insertField before with ⟨rfl, rfl⟩ | old
      · exact .inr ⟨m, List.mem_cons_self, rfl, begins⟩
      · exact .inl old
    · exact .inr (later.imp fun m' ends => ⟨.tail _ ends.1, ends.2⟩)
  · exact h.distinct (Value.nodup_keys_insertField distinct)

theorem complete (h : Completes g members fields done) :
    ∀ m ∈ members, m.name ∈ done.map Prod.fst := by
  intro m declared
  rw [← Value.lookup_isSome_iff]
  cases found : fields.lookup m.name with
  | some v => rw [h.kept m.name v found, Option.isSome_some]
  | none =>
    obtain ⟨v, made, _⟩ := h.begun m declared found
    rw [made, Option.isSome_some]

end Completes

section Completion

variable {s : Struct} {members : List Member} {fields : List (String × Value)}

theorem exists_withDefaults (typed : p.Typed) (lookup : p.globals.struct? name = some s)
    (declared : ∀ m ∈ members, m ∈ s.members)
    (covered : ∀ m ∈ members, m.name ∈ fields.map Prod.fst ∨ m.default.isSome ∨
      p.globals.hasDefault m.type = true) :
    ∃ done, p.withDefaults position members fields = .ok done ∧
      Completes p.globals members fields done := by
  induction members generalizing fields with
  | nil => exact ⟨fields, rfl, .nothing _ _⟩
  | cons m members ih =>
    have declared_rest := fun m found => declared m (.tail _ found)
    have here := declared m List.mem_cons_self
    rw [withDefaults]
    split
    · rename_i present
      obtain ⟨done, made, completes⟩ := ih declared_rest fun m found => covered m (.tail _ found)
      exact ⟨done, made, completes.given present⟩
    · rename_i absent
      rw [Option.not_isSome_iff_eq_none] at absent
      have defaults := (covered m List.mem_cons_self).resolve_left
        (Value.lookup_eq_none_iff.mp absent)
      have exists_default : ∃ v, p.memberDefault position m = .ok v ∧ v.Begins p.globals m :=
        exists_memberDefault typed lookup here defaults
      obtain ⟨v, made, begins⟩ := exists_default
      have covered_rest : ∀ m' ∈ members,
          m'.name ∈ (Value.insertField m.name v fields).map Prod.fst ∨ m'.default.isSome ∨
            p.globals.hasDefault m'.type = true := fun m' later =>
        (covered m' (.tail _ later)).imp_left fun before =>
          Value.mem_keys_insertField.mpr (.inr before)
      obtain ⟨done, rest, completes⟩ := ih declared_rest covered_rest
      refine ⟨done, by rw [made]; exact rest, completes.left absent begins ?_⟩
      intro m' later named
      exact List.inj_on_of_nodup_map (Struct.typed_of_struct? typed lookup).distinct
        (declared_rest m' later) here named

theorem withDefaults_refused {m : Member} (distinct : (s.members.map Member.name).Nodup)
    (declared : ∀ m ∈ members, m ∈ s.members) (member : m ∈ members)
    (absent : m.name ∉ fields.map Prod.fst) (not_given : m.default = none)
    (refused : p.globals.hasDefault m.type = false) :
    ∃ fault, p.withDefaults position members fields = .error fault := by
  have fails : ∃ fault, p.memberDefault position m = .error fault :=
    memberDefault_refused not_given refused
  induction members generalizing fields with
  | nil => cases member
  | cons first members ih =>
    have declared_rest := fun m found => declared m (.tail _ found)
    rw [withDefaults]
    split
    · rename_i present
      rw [Value.lookup_isSome_iff] at present
      rcases List.mem_cons.mp member with rfl | later
      · exact absurd present absent
      · exact ih declared_rest later absent
    · cases made : p.memberDefault position first with
      | error fault => exact ⟨fault, rfl⟩
      | ok v =>
        have other : first ≠ m := by
          rintro rfl
          obtain ⟨fault, fails⟩ := fails
          rw [made] at fails
          cases fails
        have later := (List.mem_cons.mp member).resolve_left other.symm
        refine ih declared_rest later fun before => ?_
        rcases Value.mem_keys_insertField.mp before with named | old
        · exact other (List.inj_on_of_nodup_map distinct (declared first List.mem_cons_self)
            (declared m member) named.symm)
        · exact absent old

theorem withDefaults_answers (typed : p.Typed) (lookup : p.globals.struct? name = some s)
    (declared : ∀ m ∈ members, m ∈ s.members) (given : Value.FieldsOf p.globals s fields)
    (covered : ∀ m ∈ members, m.name ∈ fields.map Prod.fst ∨ m.default.isSome ∨
      p.globals.hasDefault m.type = true) :
    Answers (p.withDefaults position members fields) fun done =>
      Value.FieldsOf p.globals s done ∧ ∀ m ∈ members, m.name ∈ done.map Prod.fst := by
  have exists_completed : ∃ done, p.withDefaults position members fields = .ok done ∧
      Completes p.globals members fields done :=
    exists_withDefaults typed lookup declared covered
  obtain ⟨done, made, completes⟩ := exists_completed
  rw [made]
  refine ⟨⟨completes.distinct given.distinct, fun key v member => ?_⟩, completes.complete⟩
  rcases completes.only key v member with before | ⟨m, found, rfl, begins⟩
  · exact given.typed key v before
  · exact ⟨m, Struct.member?_of_mem (Struct.typed_of_struct? typed lookup).distinct
      (declared m found), begins.typed⟩

end Completion

end Program
end LoopLang
