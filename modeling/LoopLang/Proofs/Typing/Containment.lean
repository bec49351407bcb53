import Mathlib.Data.List.Perm.Subperm
import Mathlib.Logic.Relation
import Mathlib.Order.WellFounded
import LoopLang.Proofs.Related
import LoopLang.Typing

namespace LoopLang

theorem exists_of_foldlM_error {ε α β : Type} {f : β → α → Except ε β} {as : List α} {b : β}
    {e : ε} (h : as.foldlM f b = .error e) : ∃ a ∈ as, ∃ b', f b' a = .error e := by
  induction as generalizing b with
  | nil => cases h
  | cons a as ih =>
    rw [List.foldlM_cons] at h
    cases first : f b a with
    | error e' =>
      rw [first] at h
      cases h
      exact ⟨a, List.mem_cons_self, b, first⟩
    | ok b' =>
      rw [first] at h
      obtain ⟨a', later, refused⟩ := ih h
      exact ⟨a', .tail _ later, refused⟩

namespace Struct

variable {structs : List Struct} {path done done' : List String} {name : String} {depth : Nat}

def Contains (structs : List Struct) (outer inner : String) : Prop :=
  ∃ s, structs.find? (·.name == outer) = some s ∧ ∃ m ∈ s.members, m.type = .struct inner

/-- Whoever goes from the struct to its members, and on to their members, comes to an end. -/
def Grounded (structs : List Struct) (name : String) : Prop :=
  Acc (fun inner outer => Contains structs outer inner) name

theorem grounded_of_find?_eq_none (missing : structs.find? (·.name == name) = none) :
    Grounded structs name := by
  refine ⟨_, fun inner inside => ?_⟩
  obtain ⟨s, found, _⟩ := inside
  rw [missing] at found
  cases found

def follow (visit : List String → String → Except Struct (List String)) (done : List String)
    (m : Member) : Except Struct (List String) :=
  match m.type with
  | .struct inner => visit done inner
  | _ => .ok done

theorem visit_succ : visit structs (depth + 1) path done name =
    if done.contains name then .ok done
    else
      match structs.find? (·.name == name) with
      | none => .ok done
      | some s =>
        if path.contains name then .error s
        else
          (name :: ·) <$> s.members.foldlM (follow (visit structs depth (name :: path))) done := by
  rw [visit]
  split
  · rfl
  · cases structs.find? (·.name == name) with
    | none => rfl
    | some s =>
      dsimp only
      split
      · rfl
      · rw [map_eq_pure_bind]
        rfl

theorem grounded_of_members {visit : List String → String → Except Struct (List String)}
    (each : ∀ {done done' inner}, (∀ x ∈ done, Grounded structs x) → visit done inner = .ok done' →
      (∀ x ∈ done', Grounded structs x) ∧ Grounded structs inner)
    {members : List Member} (sound : ∀ x ∈ done, Grounded structs x)
    (ran : members.foldlM (follow visit) done = .ok done') :
    (∀ x ∈ done', Grounded structs x) ∧
      ∀ m ∈ members, ∀ inner, m.type = .struct inner → Grounded structs inner := by
  induction members generalizing done with
  | nil =>
    cases ran
    exact ⟨sound, nofun⟩
  | cons m members ih =>
    rw [List.foldlM_cons] at ran
    obtain ⟨done1, first, others⟩ := exists_of_bind ran
    have now : (∀ x ∈ done1, Grounded structs x) ∧
        ∀ inner, m.type = .struct inner → Grounded structs inner := by
      unfold follow at first
      split at first
      · rename_i inner isStruct
        obtain ⟨sound1, grounded⟩ := each sound first
        rw [isStruct]
        exact ⟨sound1, fun _ same => by cases same; exact grounded⟩
      · rename_i other
        cases first
        exact ⟨sound, fun inner isStruct => absurd isStruct (other inner)⟩
    obtain ⟨sound', rest⟩ := ih now.1 others
    exact ⟨sound', List.forall_mem_cons.mpr ⟨now.2, rest⟩⟩

/-- A struct that is followed to its end is grounded. As the path meets no struct twice, the bound
    on its length is not reached. -/
theorem grounded_of_visit (sound : ∀ x ∈ done, Grounded structs x) (distinct : path.Nodup)
    (known : path ⊆ structs.map Struct.name) (deep : structs.length < depth + path.length)
    (ran : visit structs depth path done name = .ok done') :
    (∀ x ∈ done', Grounded structs x) ∧ Grounded structs name := by
  induction depth generalizing path done done' name with
  | zero =>
    -- A path that meets no struct twice has no more steps than there are structs.
    have short := (List.subperm_of_subset distinct known).length_le
    rw [List.length_map] at short
    omega
  | succ depth ih =>
    rw [visit_succ] at ran
    split at ran
    · rename_i passed
      cases ran
      exact ⟨sound, sound name (by simpa using passed)⟩
    · cases found : structs.find? (·.name == name) with
      | none =>
        rw [found] at ran
        cases ran
        exact ⟨sound, grounded_of_find?_eq_none found⟩
      | some s =>
        rw [found] at ran
        dsimp only at ran
        split at ran
        · cases ran
        · rename_i fresh
          rw [map_eq_pure_bind] at ran
          obtain ⟨done1, followed, made⟩ := exists_of_bind ran
          cases made
          have own : name ∈ structs.map Struct.name := by
            have same := List.find?_some found
            exact List.mem_map.mpr ⟨s, List.mem_of_find?_eq_some found, by simpa using same⟩
          obtain ⟨sound1, inside⟩ := grounded_of_members (fun sound ran => ih sound
            (List.nodup_cons.mpr ⟨by simpa using fresh, distinct⟩)
            (List.cons_subset.mpr ⟨own, known⟩) (by rw [List.length_cons]; omega) ran)
            sound followed
          have grounded : Grounded structs name := by
            refine ⟨_, fun inner within => ?_⟩
            obtain ⟨s', found', m, member, isStruct⟩ := within
            rw [found] at found'
            cases found'
            exact inside m member inner isStruct
          exact ⟨List.forall_mem_cons.mpr ⟨grounded, sound1⟩, grounded⟩

theorem cycle_of_visit {s : Struct}
    (leads : ∀ x ∈ path, Relation.TransGen (Contains structs) x name)
    (ran : visit structs depth path done name = .error s) :
    s ∈ structs ∧ Relation.TransGen (Contains structs) s.name s.name := by
  induction depth generalizing path done name with
  | zero => cases ran
  | succ depth ih =>
    rw [visit_succ] at ran
    split at ran
    · cases ran
    · cases found : structs.find? (·.name == name) with
      | none =>
        rw [found] at ran
        cases ran
      | some s' =>
        rw [found] at ran
        dsimp only at ran
        split at ran
        · rename_i again
          cases ran
          -- Whatever is on the path leads to where it has come to, and so does that itself.
          have named : s.name = name := by simpa using List.find?_some found
          exact ⟨List.mem_of_find?_eq_some found, named ▸ leads name (by simpa using again)⟩
        · cases followed : s'.members.foldlM (follow (visit structs depth (name :: path))) done with
          | ok done1 =>
            rw [followed] at ran
            cases ran
          | error e =>
            rw [followed] at ran
            cases ran
            obtain ⟨m, member, done1, refused⟩ := exists_of_foldlM_error followed
            unfold follow at refused
            split at refused
            · rename_i inner isStruct
              have inside : Contains structs name inner := ⟨s', found, m, member, isStruct⟩
              refine ih (List.forall_mem_cons.mpr ⟨.single inside, fun x before => ?_⟩) refused
              exact (leads x before).tail inside
            · cases refused

def Acyclic (structs : List Struct) : Prop :=
  ∀ name, ¬ Relation.TransGen (Contains structs) name name

theorem acyclic_of_grounded (grounded : ∀ name, Grounded structs name) : Acyclic structs := by
  intro name circle
  have founded : WellFounded fun inner outer => Contains structs outer inner := ⟨grounded⟩
  exact founded.transGen.irrefl.irrefl name (Relation.transGen_swap.mpr circle)

def search (structs : List Struct) (depth : Nat) (roots done : List String) :
    Except Struct (List String) :=
  roots.foldlM (visit structs depth []) done

theorem inItself?_eq_search : inItself? structs =
    match search structs (structs.length + 1) (structs.map Struct.name) [] with
    | .ok _ => none
    | .error s => some s := by
  have mapped : search structs (structs.length + 1) (structs.map Struct.name) [] =
      structs.foldlM (fun done s => visit structs (structs.length + 1) [] done s.name) [] :=
    List.foldlM_map
  exact congrArg (fun ran => match ran with
    | .ok _ => none
    | .error s => some s) mapped.symm

theorem cycle_of_search {roots : List String} {s : Struct}
    (ran : search structs depth roots done = .error s) :
    s ∈ structs ∧ Relation.TransGen (Contains structs) s.name s.name := by
  obtain ⟨root, _, done', refused⟩ := exists_of_foldlM_error ran
  exact cycle_of_visit (List.forall_mem_nil _) refused

theorem grounded_of_search {roots : List String} (deep : structs.length < depth)
    (sound : ∀ x ∈ done, Grounded structs x) (ran : search structs depth roots done = .ok done') :
    ∀ name ∈ roots, Grounded structs name := by
  unfold search at ran
  induction roots generalizing done with
  | nil => exact nofun
  | cons root roots ih =>
    rw [List.foldlM_cons] at ran
    obtain ⟨done1, first, others⟩ := exists_of_bind ran
    obtain ⟨sound1, grounded⟩ := grounded_of_visit sound .nil (List.nil_subset _) deep first
    exact List.forall_mem_cons.mpr ⟨grounded, ih sound1 others⟩

theorem all_grounded_of_search {roots : List String} (all : ∀ s ∈ structs, s.name ∈ roots)
    (deep : structs.length < depth) (ran : search structs depth roots [] = .ok done) :
    ∀ name, Grounded structs name := by
  intro name
  cases found : structs.find? (·.name == name) with
  | none => exact grounded_of_find?_eq_none found
  | some s =>
    have named : s.name = name := by simpa using List.find?_some found
    exact grounded_of_search deep (List.forall_mem_nil _) ran name
      (named ▸ all s (List.mem_of_find?_eq_some found))

/-- A search that starts from all structs, in any order, passes just if none is inside itself. -/
theorem search_eq_ok_iff {roots : List String} (all : ∀ s ∈ structs, s.name ∈ roots)
    (deep : structs.length < depth) :
    (∃ done, search structs depth roots [] = .ok done) ↔ Acyclic structs := by
  constructor
  · intro passed
    obtain ⟨done, ran⟩ := passed
    exact acyclic_of_grounded (all_grounded_of_search all deep ran)
  · intro acyclic
    cases ran : search structs depth roots [] with
    | ok done => exact ⟨done, rfl⟩
    | error s => exact absurd (cycle_of_search ran).2 (acyclic s.name)

theorem acyclic_iff_grounded : Acyclic structs ↔ ∀ name, Grounded structs name := by
  refine ⟨fun acyclic => ?_, acyclic_of_grounded⟩
  have all : ∀ s ∈ structs, s.name ∈ structs.map Struct.name := fun s => List.mem_map_of_mem
  obtain ⟨done, ran⟩ := (search_eq_ok_iff all (Nat.lt_succ_self _)).mpr acyclic
  exact all_grounded_of_search all (Nat.lt_succ_self _) ran

theorem inItself?_eq_none_iff : inItself? structs = none ↔ Acyclic structs := by
  rw [← search_eq_ok_iff (fun s => List.mem_map_of_mem) (Nat.lt_succ_self structs.length),
    inItself?_eq_search]
  cases search structs (structs.length + 1) (structs.map Struct.name) [] with
  | ok done => exact ⟨fun _ => ⟨done, rfl⟩, fun _ => rfl⟩
  | error s => exact ⟨nofun, nofun⟩

theorem cycle_of_inItself? {s : Struct} (found : inItself? structs = some s) :
    s ∈ structs ∧ Relation.TransGen (Contains structs) s.name s.name := by
  rw [inItself?_eq_search] at found
  split at found
  · cases found
  · rename_i ran
    cases found
    exact cycle_of_search ran

theorem inItself?_congr {structs' : List Struct}
    (same : ∀ outer inner, Contains structs' outer inner ↔ Contains structs outer inner) :
    inItself? structs' = none ↔ inItself? structs = none := by
  have relations : Contains structs' = Contains structs :=
    funext fun outer => funext fun inner => propext (same outer inner)
  rw [inItself?_eq_none_iff, inItself?_eq_none_iff]
  unfold Acyclic
  rw [relations]

end Struct
end LoopLang
