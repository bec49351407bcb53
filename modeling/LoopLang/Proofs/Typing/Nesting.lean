import LoopLang.Proofs.Typing.Containment
import LoopLang.Proofs.Value.Defaults

namespace LoopLang

namespace Struct

structure Nested (structs : List Struct) (around : List String) (name : String) : Prop where
  distinct : around.Nodup
  known : around ⊆ structs.map Struct.name
  leads : ∀ outer ∈ around, Relation.TransGen (Contains structs) outer name

variable {structs : List Struct} {around : List String} {name : String}

namespace Nested

theorem outermost : Nested structs [] name := ⟨.nil, List.nil_subset _, nofun⟩

theorem fresh (h : Nested structs around name) (acyclic : Acyclic structs) : name ∉ around :=
  fun again => acyclic name (h.leads name again)

theorem member {inner : String} (h : Nested structs around name) (acyclic : Acyclic structs)
    (defined : name ∈ structs.map Struct.name) (inside : Contains structs name inner) :
    Nested structs (name :: around) inner := by
  refine ⟨List.nodup_cons.mpr ⟨h.fresh acyclic, h.distinct⟩,
    List.cons_subset.mpr ⟨defined, h.known⟩, List.forall_mem_cons.mpr ⟨.single inside, fun outer before => ?_⟩⟩
  exact (h.leads outer before).tail inside

theorem length_lt (h : Nested structs around name) (acyclic : Acyclic structs)
    (defined : name ∈ structs.map Struct.name) : around.length < structs.length := by
  have distinct : (name :: around).Nodup := List.nodup_cons.mpr ⟨h.fresh acyclic, h.distinct⟩
  have inside := List.cons_subset.mpr ⟨defined, h.known⟩
  have short := (List.subperm_of_subset distinct inside).length_le
  rw [List.length_cons, List.length_map] at short
  exact short

end Nested
end Struct

namespace Globals

variable {g : Globals} {type : Ty} {name : String} {s : Struct}

theorem mem_of_struct? (lookup : g.struct? name = some s) :
    name ∈ g.structs.map Struct.name := by
  have named : s.name = name := by simpa using List.find?_some lookup
  exact List.mem_map.mpr ⟨s, List.mem_of_find?_eq_some lookup, named⟩

/-- What holds of every type that is no struct of the program, and of a struct one level deeper than
of the types of its members, holds of every type at the depth that counts all structs. -/
theorem nesting_induction {P : Nat → Ty → Prop} (acyclic : Struct.Acyclic g.structs)
    (leaf : ∀ depth type, (∀ name s, type = .struct name → g.struct? name ≠ some s) → P depth type)
    (struct : ∀ depth name s, g.struct? name = some s → (∀ m ∈ s.members, P depth m.type) →
      P (depth + 1) (.struct name))
    {depth : Nat} (deep : g.structs.length ≤ depth) (type : Ty) : P depth type := by
  -- One level less is one struct more around the type, so that what is used up and what is left
  -- count all structs together.
  have within : ∀ (depth : Nat) (around : List String) (type : Ty),
      (∀ name, type = .struct name → Struct.Nested g.structs around name) →
      g.structs.length ≤ depth + around.length → P depth type := by
    intro depth
    induction depth with
    | zero =>
      intro around type nested deep
      refine leaf 0 type fun name s same lookup => ?_
      have short := (nested name same).length_lt acyclic (mem_of_struct? lookup)
      omega
    | succ depth ih =>
      intro around type nested deep
      by_cases defined : ∃ name s, type = .struct name ∧ g.struct? name = some s
      · obtain ⟨name, s, rfl, lookup⟩ := defined
        refine struct depth name s lookup fun m member => ih (name :: around) m.type ?_ ?_
        · intro inner isStruct
          exact (nested name rfl).member acyclic (mem_of_struct? lookup)
            ⟨s, lookup, m, member, isStruct⟩
        · rw [List.length_cons]
          omega
      · exact leaf _ type fun name s same lookup => defined ⟨name, s, same, lookup⟩
  exact within depth [] type (fun _ _ => .outermost) (by simpa using deep)

theorem struct?_eq_none (leaf : ∀ name s, type = .struct name → g.struct? name ≠ some s)
    (same : type = .struct name) : g.struct? name = none :=
  Option.eq_none_iff_forall_ne_some.mpr fun s => leaf name s same

theorem hasDefaultWithin_succ (acyclic : Struct.Acyclic g.structs) {depth : Nat}
    (deep : g.structs.length ≤ depth) (type : Ty) :
    g.hasDefaultWithin (depth + 1) type = g.hasDefaultWithin depth type := by
  refine nesting_induction (P := fun depth type =>
    g.hasDefaultWithin (depth + 1) type = g.hasDefaultWithin depth type) acyclic ?_ ?_ deep type
  · intro depth type leaf
    cases type with
    | struct name =>
      have missing := struct?_eq_none leaf rfl
      cases depth <;> simp [hasDefaultWithin, missing]
    | _ => simp [hasDefaultWithin]
  · intro depth name s lookup members
    rw [hasDefaultWithin, hasDefaultWithin, lookup, Option.any_some, Option.any_some,
      Bool.eq_iff_iff, List.all_eq_true, List.all_eq_true]
    refine forall₂_congr fun m member => ?_
    rw [members m member]

theorem hasDefaultWithin_eq (acyclic : Struct.Acyclic g.structs) {depth : Nat}
    (deep : g.structs.length ≤ depth) (type : Ty) :
    g.hasDefaultWithin depth type = g.hasDefault type := by
  induction depth, deep using Nat.le_induction with
  | base => rfl
  | succ depth deep ih => rw [hasDefaultWithin_succ acyclic deep, ih]

theorem hasDefault_struct (acyclic : Struct.Acyclic g.structs) (lookup : g.struct? name = some s) :
    g.hasDefault (.struct name) =
      s.members.all fun m => m.default.isSome || g.hasDefault m.type := by
  rw [← hasDefaultWithin_eq acyclic (Nat.le_succ _), hasDefaultWithin, lookup, Option.any_some]
  rfl

end Globals

namespace Program

variable {p : Program} {position : Position} {type : Ty} {name : String} {s : Struct}

theorem fieldWithin_eq (p : Program) (position : Position) (m : Member) :
    p.fieldWithin position p.globals.structs.length m =
      (m.name, ·) <$> p.memberDefault position m := by
  unfold fieldWithin memberDefault
  cases m.default with
  | none => rfl
  | some e =>
    dsimp only
    cases p.declaredDefault e <;> rfl

theorem defaultWithin_succ (acyclic : Struct.Acyclic p.globals.structs) {depth : Nat}
    (deep : p.globals.structs.length ≤ depth) (type : Ty) :
    p.defaultWithin position (depth + 1) type = p.defaultWithin position depth type := by
  refine Globals.nesting_induction (P := fun depth type =>
    p.defaultWithin position (depth + 1) type = p.defaultWithin position depth type)
    acyclic ?_ ?_ deep type
  · intro depth type leaf
    cases type with
    | struct name =>
      have missing := Globals.struct?_eq_none leaf rfl
      cases depth <;> simp [defaultWithin, missing]
    | _ => simp [defaultWithin]
  · intro depth name s lookup members
    rw [defaultWithin_struct lookup, defaultWithin_struct lookup]
    refine congrArg _ (mapM_congr fun m member => ?_)
    unfold fieldWithin
    rw [members m member]

theorem defaultWithin_eq (acyclic : Struct.Acyclic p.globals.structs) {depth : Nat}
    (deep : p.globals.structs.length ≤ depth) (type : Ty) :
    p.defaultWithin position depth type = p.defaultValue position type := by
  induction depth, deep using Nat.le_induction with
  | base => rfl
  | succ depth deep ih => rw [defaultWithin_succ acyclic deep, ih]

theorem defaultValue_struct (acyclic : Struct.Acyclic p.globals.structs)
    (lookup : p.globals.struct? name = some s) :
    p.defaultValue position (.struct name) =
      Value.struct name <$> s.members.mapM fun m => (m.name, ·) <$> p.memberDefault position m := by
  rw [← defaultWithin_eq acyclic (Nat.le_succ _), defaultWithin_struct lookup]
  exact congrArg _ (mapM_congr fun m _ => fieldWithin_eq p position m)

end Program

namespace Ty

def Inside (g : Globals) (inner outer : Ty) : Prop :=
  ∃ name s m, outer = .struct name ∧ g.struct? name = some s ∧ m ∈ s.members ∧ inner = m.type

theorem wellFounded_inside {g : Globals} (acyclic : Struct.Acyclic g.structs) :
    WellFounded (Inside g) := by
  have structs : ∀ name, Acc (Inside g) (.struct name) := by
    intro name
    induction Struct.acyclic_iff_grounded.mp acyclic name with
    | intro name _ ih =>
      refine ⟨_, fun inner inside => ?_⟩
      obtain ⟨_, s, m, same, lookup, member, rfl⟩ := inside
      cases same
      cases isStruct : m.type with
      | struct inner => exact ih inner ⟨s, lookup, m, member, isStruct⟩
      | _ => exact ⟨_, fun _ inside => by obtain ⟨_, _, _, ⟨⟩, _⟩ := inside⟩
  refine ⟨fun type => ?_⟩
  cases type with
  | struct name => exact structs name
  | _ => exact ⟨_, fun _ inside => by obtain ⟨_, _, _, ⟨⟩, _⟩ := inside⟩

end Ty

namespace Program

/-- Whoever asks whether a type has a default, or makes it, asks for nothing but the types of its
members, and so comes to an end. No bound on the depth is felt. -/
structure DefaultsEnd (p : Program) : Prop where
  founded : WellFounded (Ty.Inside p.globals)
  hasDefault_struct : ∀ name s, p.globals.struct? name = some s →
    p.globals.hasDefault (.struct name) =
      s.members.all fun m => m.default.isSome || p.globals.hasDefault m.type
  defaultValue_struct : ∀ position name s, p.globals.struct? name = some s →
    p.defaultValue position (.struct name) =
      Value.struct name <$> s.members.mapM fun m => (m.name, ·) <$> p.memberDefault position m
  hasDefault_deeper : ∀ type depth, p.globals.structs.length ≤ depth →
    p.globals.hasDefaultWithin depth type = p.globals.hasDefault type
  defaultValue_deeper : ∀ position type depth, p.globals.structs.length ≤ depth →
    p.defaultWithin position depth type = p.defaultValue position type

theorem defaultsEnd_of_acyclic {p : Program} (acyclic : Struct.Acyclic p.globals.structs) :
    p.DefaultsEnd where
  founded := Ty.wellFounded_inside acyclic
  hasDefault_struct _ _ lookup := Globals.hasDefault_struct acyclic lookup
  defaultValue_struct _ _ _ lookup := defaultValue_struct acyclic lookup
  hasDefault_deeper type _ deep := Globals.hasDefaultWithin_eq acyclic deep type
  defaultValue_deeper _ type _ deep := defaultWithin_eq acyclic deep type

theorem inItself?_of_check {g : Globals} {p : Program} (checked : check g = .ok p) :
    Struct.inItself? p.globals.structs = none := by
  obtain ⟨⟨structs, c⟩, _, h⟩ := exists_of_bind checked
  dsimp only at h
  split at h
  · cases h
  · rename_i passed
    obtain ⟨functions, _, h⟩ := exists_of_bind h
    obtain ⟨types, _, h⟩ := exists_of_bind h
    cases h
    exact passed

theorem inItself?_of_compile {source : String} {p : Program} (compiled : compile source = .ok p) :
    Struct.inItself? p.globals.structs = none := by
  obtain ⟨g, _, checked⟩ := exists_of_bind compiled
  exact inItself?_of_check checked

end Program

namespace Struct

/-- The search finds a struct that is inside itself just if there is one, from whatever structs it
starts and in whatever order, and what it finds is inside itself. Where it finds none, asking for
defaults and making them come to an end on every type. -/
theorem search_exact (structs : List Struct) :
    (∀ (roots : List String) (depth : Nat), (∀ s ∈ structs, s.name ∈ roots) →
      structs.length < depth →
      ((∃ done, search structs depth roots [] = .ok done) ↔ Acyclic structs) ∧
      ∀ s, search structs depth roots [] = .error s →
        s ∈ structs ∧ Relation.TransGen (Contains structs) s.name s.name) ∧
    (inItself? structs = none ↔ Acyclic structs) ∧
    (∀ s, inItself? structs = some s →
      s ∈ structs ∧ Relation.TransGen (Contains structs) s.name s.name) ∧
    (∀ p : Program, p.globals.structs = structs → inItself? structs = none → p.DefaultsEnd) ∧
    ∀ source p, Program.compile source = .ok p → inItself? p.globals.structs = none := by
  refine ⟨fun roots depth all deep => ⟨search_eq_ok_iff all deep, fun s => cycle_of_search⟩,
    inItself?_eq_none_iff, fun s => cycle_of_inItself?, ?_, fun source p =>
    Program.inItself?_of_compile⟩
  intro p same passed
  subst same
  exact Program.defaultsEnd_of_acyclic (inItself?_eq_none_iff.mp passed)

def sharing : String :=
  "struct A { b: B, c: C } struct B { d: D } struct C { d: D } struct D { x: u8, all: [D] } " ++
  "func main() { a: A; }"

def ring : List Struct :=
  let member (inner : String) : Member := ⟨"inner", .struct inner, none, ⟨1, 1⟩⟩
  [⟨"A", [member "B"], ⟨1, 1⟩⟩, ⟨"B", [member "C"], ⟨2, 1⟩⟩, ⟨"C", [member "B"], ⟨3, 1⟩⟩]

set_option maxRecDepth 100000 in
theorem search_of_sharing :
    (∃ p, Program.compile sharing = .ok p ∧ Acyclic p.globals.structs ∧
      (∃ done, search p.globals.structs 5 ["D", "B", "C", "A"] [] = .ok done) ∧ p.DefaultsEnd) ∧
    ∃ s, inItself? ring = some s ∧ s.name = "B" ∧
      Relation.TransGen (Contains ring) s.name s.name := by
  constructor
  · have names : (Program.compile sharing).toOption.any fun p =>
        p.globals.structs.map Struct.name == ["A", "B", "C", "D"] := by decide +kernel
    obtain ⟨p, compiled, names⟩ := exists_of_any names
    rw [beq_iff_eq] at names
    obtain ⟨searched, passes, _, ends, compiles⟩ := search_exact p.globals.structs
    have passed := compiles sharing p compiled
    have acyclic := passes.mp passed
    have turned : List.Perm ["A", "B", "C", "D"] ["D", "B", "C", "A"] := by decide
    have all : ∀ s ∈ p.globals.structs, s.name ∈ ["D", "B", "C", "A"] := by
      intro s member
      have named : s.name ∈ p.globals.structs.map Struct.name := List.mem_map_of_mem member
      rw [names] at named
      exact turned.mem_iff.mp named
    have short : p.globals.structs.length < 5 := by
      rw [← List.length_map (f := Struct.name), names]
      decide
    exact ⟨p, compiled, acyclic, (searched _ 5 all short).1.mpr acyclic, ends p rfl passed⟩
  · have found : (inItself? ring).any (·.name == "B") = true := by decide
    rw [Option.any_eq_true] at found
    obtain ⟨s, found, named⟩ := found
    exact ⟨s, found, by simpa using named, ((search_exact ring).2.2.1 s found).2⟩

end Struct
end LoopLang
