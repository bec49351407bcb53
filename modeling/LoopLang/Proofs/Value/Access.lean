import LoopLang.Proofs.Value.Typed
import LoopLang.Proofs.Value.Unchanged

namespace LoopLang

namespace PathStep

/-- A step without the place where it stands. -/
def key : PathStep → String ⊕ Int
  | field name _ => .inl name
  | index i _ => .inr i

def Diverge : List PathStep → List PathStep → Prop
  | s :: path, t :: other => s.key ≠ t.key ∨ Diverge path other
  | _, _ => False

def Extends (path other : List PathStep) : Prop := path.map key <+: other.map key

end PathStep

namespace Value

/-- The part that one step leads to. That is a place of its own, so that no character counts. -/
def part? : Value → PathStep → Option Value
  | .struct _ fields, .field member _ => fields.lookup member
  | .array _ items, .index i position => (itemAt items i position).toOption
  | _, _ => none

def put : Value → PathStep → Value → Value
  | .struct name fields, .field member _, w => .struct name (insertField member w fields)
  | .array element items, .index i _, w => .array element (items.set i.toNat w)
  | v, _, _ => v

def length? : Value → Option Nat
  | .array _ items => some items.length
  | _ => none

def InString (root : Value) (path : List PathStep) : Prop :=
  ∃ front i position back s, path = front ++ .index i position :: back ∧
    root.read front = .ok (.string s)

/-- The step of the path that stands at `position` is an index into an array of `n` items, which
has none there. -/
def OutOfArray (root : Value) (path : List PathStep) (i : Int) (n : Nat) (position : Position) :
    Prop :=
  ∃ front back element items, path = front ++ .index i position :: back ∧
    root.read front = .ok (.array element items) ∧ items.length = n ∧ ¬(0 ≤ i ∧ i < n)

section Items

variable {α : Type} {items : List α} {i j : Int} {position position' : Position} {item : α}

theorem itemAt_eq_ok_iff : itemAt items i position = .ok item ↔
    0 ≤ i ∧ items[i.toNat]? = some item := by
  unfold itemAt
  split
  · rename_i within
    rw [List.getElem?_eq_getElem within.2]
    simp [within.1]
  · rename_i outside
    refine ⟨nofun, fun found => absurd ⟨found.1, ?_⟩ outside⟩
    exact (List.getElem?_eq_some_iff.mp found.2).1

theorem exists_itemAt_iff (position : Position) : (∃ item, itemAt items i position = .ok item) ↔
    0 ≤ i ∧ i < items.length := by
  unfold itemAt
  split
  · rename_i within
    exact ⟨fun _ => by omega, fun _ => ⟨_, rfl⟩⟩
  · rename_i outside
    exact ⟨nofun, fun within => absurd (by omega) outside⟩

theorem itemAt_outside (outside : ¬(0 ≤ i ∧ i < items.length)) :
    itemAt items i position = .error (.runtime (.indexOutOfBounds i items.length position)) := by
  rw [itemAt, dif_neg]
  omega

theorem itemAt_set_self (found : itemAt items i position = .ok item) (new : α) :
    itemAt (items.set i.toNat new) i position = .ok new := by
  rw [itemAt_eq_ok_iff] at found ⊢
  refine ⟨found.1, ?_⟩
  rw [List.getElem?_set_self (List.getElem?_eq_some_iff.mp found.2).1]

theorem itemAt_set_of_ne (found : itemAt items i position = .ok item) (apart : i ≠ j) (new : α) :
    itemAt (items.set i.toNat new) j position' = itemAt items j position' := by
  have low := (itemAt_eq_ok_iff.mp found).1
  by_cases within : 0 ≤ j ∧ j < items.length
  · obtain ⟨other, there⟩ := (exists_itemAt_iff position').mpr within
    rw [there]
    rw [itemAt_eq_ok_iff] at there ⊢
    refine ⟨there.1, ?_⟩
    rw [List.getElem?_set_ne (by omega), there.2]
  · have length : (items.set i.toNat new).length = items.length := List.length_set
    rw [itemAt_outside within, itemAt_outside (length ▸ within), length]

end Items

section Step

variable {α : Type} {v w new u : Value} {step other : PathStep} {path : List PathStep}
  {act : Value → Except Fault (α × Value)}

theorem part?_cases (found : v.part? step = some w) :
    (∃ name fields member position, v = .struct name fields ∧ step = .field member position ∧
      fields.lookup member = some w) ∨
    ∃ element items i position, v = .array element items ∧ step = .index i position ∧
      itemAt items i position = .ok w := by
  unfold part? at found
  split at found
  · rename_i name fields member position
    exact .inl ⟨name, fields, member, position, rfl, rfl, found⟩
  · rename_i element items i position
    refine .inr ⟨element, items, i, position, rfl, rfl, ?_⟩
    cases picked : itemAt items i position with
    | error fault =>
      rw [picked] at found
      cases found
    | ok item =>
      rw [picked] at found
      cases found
      rfl
  · cases found

theorem read_cons (found : v.part? step = some w) (path : List PathStep) :
    v.read (step :: path) = w.read path := by
  rcases part?_cases found with ⟨name, fields, member, position, rfl, rfl, bound⟩ |
    ⟨element, items, i, position, rfl, rfl, picked⟩
  · rw [read, bound]
  · rw [read, picked]
    rfl

theorem write_cons (found : v.part? step = some w) (path : List PathStep) :
    v.write new (step :: path) = v.put step <$> w.write new path := by
  rcases part?_cases found with ⟨name, fields, member, position, rfl, rfl, bound⟩ |
    ⟨element, items, i, position, rfl, rfl, picked⟩
  · rw [write, bound, map_eq_pure_bind]
    rfl
  · rw [write, picked, map_eq_pure_bind]
    rfl

theorem update_cons (found : v.part? step = some w) (path : List PathStep) :
    v.update act (step :: path) = (fun pair => (pair.1, v.put step pair.2)) <$>
      w.update act path := by
  rcases part?_cases found with ⟨name, fields, member, position, rfl, rfl, bound⟩ |
    ⟨element, items, i, position, rfl, rfl, picked⟩
  · rw [update, bound, map_eq_pure_bind]
    rfl
  · rw [update, picked, map_eq_pure_bind]
    rfl

/-- A step that no value of the kind has: whoever takes it fails. -/
structure Refuses (v : Value) (step : PathStep) : Prop where
  read : ∀ path, ∃ defect position, v.read (step :: path) = .error (.internal defect position)
  write : ∀ new path, ∃ defect position,
    v.write new (step :: path) = .error (.internal defect position)
  update : ∀ {α : Type} (act : Value → Except Fault (α × Value)) path, ∃ defect position,
    v.update act (step :: path) = .error (.internal defect position)

theorem stuck_cases (missing : v.part? step = none) :
    (∃ s i position, v = .string s ∧ step = .index i position) ∨
    (∃ element items i position, v = .array element items ∧ step = .index i position ∧
      ¬(0 ≤ i ∧ i < items.length)) ∨
    v.Refuses step := by
  cases step with
  | field member position =>
    refine .inr (.inr ?_)
    cases v with
    | struct name fields =>
      rw [part?] at missing
      constructor
      · intro path
        rw [read, missing]
        exact ⟨_, _, rfl⟩
      · intro new path
        rw [write, missing]
        exact ⟨_, _, rfl⟩
      · intro α act path
        rw [update, missing]
        exact ⟨_, _, rfl⟩
    | _ => exact ⟨fun path => ⟨_, _, rfl⟩, fun new path => ⟨_, _, rfl⟩, fun act path => ⟨_, _, rfl⟩⟩
  | index i position =>
    cases v with
    | string s => exact .inl ⟨s, i, position, rfl, rfl⟩
    | array element items =>
      refine .inr (.inl ⟨element, items, i, position, rfl, rfl, fun within => ?_⟩)
      obtain ⟨item, picked⟩ := (exists_itemAt_iff position).mpr within
      rw [part?, picked] at missing
      cases missing
    | _ =>
      refine .inr (.inr ?_)
      exact ⟨fun path => ⟨_, _, rfl⟩, fun new path => ⟨_, _, rfl⟩, fun act path => ⟨_, _, rfl⟩⟩

theorem char_of_stuck (missing : v.part? step = none) (h : v.read (step :: path) = .ok u) :
    ∃ s i position c, v = .string s ∧ step = .index i position ∧ path = [] ∧ u = .char c := by
  rcases stuck_cases missing with ⟨s, i, position, rfl, rfl⟩ |
    ⟨element, items, i, position, rfl, rfl, outside⟩ | refuses
  · cases path with
    | nil =>
      rw [read] at h
      obtain ⟨c, _, h⟩ := exists_of_bind h
      cases h
      exact ⟨s, i, position, c, rfl, rfl, rfl, rfl⟩
    | cons _ _ => cases h
  · rw [read, itemAt_outside outside] at h
    cases h
  · obtain ⟨_, _, fails⟩ := refuses.read path
    rw [fails] at h
    cases h

theorem write_of_stuck (missing : v.part? step = none) (new : Value) (path : List PathStep) :
    ∃ fault, v.write new (step :: path) = .error fault := by
  rcases stuck_cases missing with ⟨s, i, position, rfl, rfl⟩ |
    ⟨element, items, i, position, rfl, rfl, outside⟩ | refuses
  · exact ⟨_, rfl⟩
  · rw [write, itemAt_outside outside]
    exact ⟨_, rfl⟩
  · obtain ⟨_, _, fails⟩ := refuses.write new path
    exact ⟨_, fails⟩

/-- An action fails where reading does, and in the same way, but for the text of a defect. -/
theorem update_of_stuck {fault : Fault} (missing : v.part? step = none)
    (fails : v.read (step :: path) = .error fault) (act : Value → Except Fault (α × Value)) :
    ∃ fault', v.update act (step :: path) = .error fault' ∧
      ∀ e, fault = .runtime e → fault' = fault := by
  rcases stuck_cases missing with ⟨s, i, position, rfl, rfl⟩ |
    ⟨element, items, i, position, rfl, rfl, outside⟩ | refuses
  · cases path with
    | nil =>
      rw [read] at fails
      cases picked : itemAt s.toList i position with
      | ok c =>
        rw [picked] at fails
        cases fails
      | error fault' =>
        rw [picked] at fails
        cases fails
        exact ⟨_, by rw [update, picked]; rfl, fun _ _ => rfl⟩
    | cons next path =>
      cases fails
      exact ⟨_, rfl, by rintro _ ⟨⟩⟩
  · rw [read, itemAt_outside outside] at fails
    cases fails
    exact ⟨_, by rw [update, itemAt_outside outside]; rfl, fun _ _ => rfl⟩
  · obtain ⟨_, _, inner⟩ := refuses.update act path
    obtain ⟨_, _, other⟩ := refuses.read path
    rw [other] at fails
    cases fails
    exact ⟨_, inner, by rintro _ ⟨⟩⟩

theorem part?_put (found : v.part? step = some w) (new : Value) :
    (v.put step new).part? step = some new := by
  rcases part?_cases found with ⟨name, fields, member, position, rfl, rfl, bound⟩ |
    ⟨element, items, i, position, rfl, rfl, picked⟩
  · rw [put, part?, lookup_insertField, if_pos rfl]
  · rw [put, part?, itemAt_set_self picked]
    rfl

theorem put_part? (found : v.part? step = some w) : v.put step w = v := by
  rcases part?_cases found with ⟨name, fields, member, position, rfl, rfl, bound⟩ |
    ⟨element, items, i, position, rfl, rfl, picked⟩
  · rw [put, insertField_of_lookup bound]
  · rw [put, set_itemAt picked]

theorem put_put : (v.put step new).put step w = v.put step w := by
  fun_cases put v step new with
  | case1 => rw [put, insertField_insertField, put]
  | case2 => rw [put, List.set_set, put]
  | case3 => rfl

theorem part?_of_key (same : step.key = other.key) (v : Value) : v.part? step = v.part? other := by
  cases step with
  | field member position =>
    cases other with
    | field _ _ =>
      cases same
      cases v <;> rfl
    | index _ _ => cases same
  | index i position =>
    cases other with
    | field _ _ => cases same
    | index j position' =>
      cases same
      cases v with
      | array element items =>
        rw [part?, part?]
        unfold itemAt
        split <;> rfl
      | _ => rfl

theorem read_put (found : v.part? step = some w) (apart : step.key ≠ other.key) (new : Value)
    (path : List PathStep) : (v.put step new).read (other :: path) = v.read (other :: path) := by
  rcases part?_cases found with ⟨name, fields, member, position, rfl, rfl, bound⟩ |
    ⟨element, items, i, position, rfl, rfl, picked⟩
  · rw [put]
    cases other with
    | field other position' =>
      have different : other ≠ member := fun same => apart (congrArg Sum.inl same.symm)
      rw [read, read, lookup_insertField, if_neg different]
      rfl
    | index _ _ => rfl
  · rw [put]
    cases other with
    | field _ _ => rfl
    | index j position' =>
      have different : i ≠ j := fun same => apart (congrArg Sum.inr same)
      rw [read, read, itemAt_set_of_ne picked different]

theorem length?_put (v : Value) (step : PathStep) (new : Value) :
    (v.put step new).length? = v.length? := by
  fun_cases put v step new with
  | case1 => rfl
  | case2 element items i position => simp [length?]
  | case3 => rfl

end Step

section Path

variable {α : Type} {root v w u new newer r : Value} {step : PathStep}
  {front path other back : List PathStep} {act : Value → Except Fault (α × Value)}
  {i : Int} {n : Nat} {position : Position}

theorem not_inString_nil : ¬root.InString [] := by
  rintro ⟨front, i, position, back, s, split, _⟩
  simp at split

theorem inString_string (s : String) (i : Int) (position : Position) (path : List PathStep) :
    (Value.string s).InString (.index i position :: path) := ⟨[], i, position, path, s, rfl, rfl⟩

theorem inString_cons (found : v.part? step = some w) :
    v.InString (step :: path) ↔ w.InString path := by
  constructor
  · rintro ⟨front, i, position, back, s, split, string⟩
    cases front with
    | nil =>
      rw [read] at string
      cases string
      cases found
    | cons first front =>
      cases split
      rw [read_cons found] at string
      exact ⟨front, i, position, back, s, rfl, string⟩
  · rintro ⟨front, i, position, back, s, rfl, string⟩
    exact ⟨step :: front, i, position, back, s, rfl, by rw [read_cons found, string]⟩

theorem string_of_stuck (missing : v.part? step = none) (within : v.InString (step :: path)) :
    ∃ s, v = .string s := by
  obtain ⟨front, i, position, back, s, split, string⟩ := within
  cases front with
  | nil =>
    rw [read] at string
    cases string
    exact ⟨s, rfl⟩
  | cons first front =>
    cases split
    obtain ⟨_, _, _, _, _, _, _, ⟨⟩⟩ := char_of_stuck missing string

theorem outOfArray_cons (found : v.part? step = some w) :
    v.OutOfArray (step :: path) i n position ↔ w.OutOfArray path i n position := by
  constructor
  · rintro ⟨front, back, element, items, split, array, length, outside⟩
    cases front with
    | nil =>
      cases split
      rw [read] at array
      cases array
      rw [part?, itemAt_outside (length ▸ outside)] at found
      cases found
    | cons first front =>
      cases split
      rw [read_cons found] at array
      exact ⟨front, back, element, items, rfl, array, length, outside⟩
  · rintro ⟨front, back, element, items, rfl, array, length, outside⟩
    exact ⟨step :: front, back, element, items, rfl, by rw [read_cons found, array], length,
      outside⟩

theorem char_of_inString (within : root.InString path) (h : root.read path = .ok u) :
    ∃ c, u = .char c := by
  induction path generalizing root with
  | nil => exact absurd within not_inString_nil
  | cons step path ih =>
    cases found : root.part? step with
    | some w =>
      rw [inString_cons found] at within
      rw [read_cons found] at h
      exact ih within h
    | none =>
      obtain ⟨_, _, _, c, _, _, _, rfl⟩ := char_of_stuck found h
      exact ⟨c, rfl⟩

theorem read_append (h : root.read front = .ok w) (places : ¬root.InString front)
    (back : List PathStep) : root.read (front ++ back) = w.read back := by
  induction front generalizing root with
  | nil =>
    rw [read] at h
    cases h
    rfl
  | cons step front ih =>
    cases found : root.part? step with
    | some part =>
      rw [inString_cons found] at places
      rw [read_cons found] at h
      rw [List.cons_append, read_cons found]
      exact ih h places
    | none =>
      obtain ⟨s, i, position, _, rfl, rfl, _⟩ := char_of_stuck found h
      exact absurd (inString_string s i position front) places

theorem exists_write_iff : (∃ r, root.write new path = .ok r) ↔
    (∃ u, root.read path = .ok u) ∧ ¬root.InString path := by
  induction path generalizing root with
  | nil => exact ⟨fun _ => ⟨⟨root, by rw [read]⟩, not_inString_nil⟩, fun _ => ⟨new, by rw [write]⟩⟩
  | cons step path ih =>
    cases found : root.part? step with
    | some w =>
      rw [write_cons found, read_cons found, inString_cons found, ← ih]
      cases w.write new path with
      | error fault => exact iff_of_false (by rintro ⟨_, ⟨⟩⟩) (by rintro ⟨_, ⟨⟩⟩)
      | ok r => exact ⟨fun _ => ⟨r, rfl⟩, fun _ => ⟨_, rfl⟩⟩
    | none =>
      obtain ⟨fault, fails⟩ := write_of_stuck found new path
      rw [fails]
      refine ⟨by rintro ⟨_, ⟨⟩⟩, fun readable => ?_⟩
      obtain ⟨⟨u, h⟩, places⟩ := readable
      obtain ⟨s, i, position, _, rfl, rfl, _⟩ := char_of_stuck found h
      exact absurd (inString_string s i position path) places

theorem exists_write_cons (h : root.write new (step :: path) = .ok r) :
    ∃ w w', root.part? step = some w ∧ w.write new path = .ok w' ∧ r = root.put step w' := by
  cases found : root.part? step with
  | some w =>
    rw [write_cons found] at h
    cases inner : w.write new path with
    | error fault =>
      rw [inner] at h
      cases h
    | ok w' =>
      rw [inner] at h
      cases h
      exact ⟨w, w', rfl, inner, rfl⟩
  | none =>
    obtain ⟨fault, fails⟩ := write_of_stuck found new path
    rw [fails] at h
    cases h

theorem read_write (h : root.write new path = .ok r) : r.read path = .ok new := by
  induction path generalizing root r with
  | nil =>
    rw [write] at h
    cases h
    rw [read]
  | cons step path ih =>
    obtain ⟨w, w', found, inner, rfl⟩ := exists_write_cons h
    rw [read_cons (part?_put found w')]
    exact ih inner

theorem write_read (read : root.read path = .ok u) (h : root.write u path = .ok r) : r = root := by
  induction path generalizing root r with
  | nil =>
    rw [Value.read] at read
    rw [write] at h
    cases read
    cases h
    rfl
  | cons step path ih =>
    obtain ⟨w, w', found, inner, rfl⟩ := exists_write_cons h
    rw [read_cons found] at read
    rw [ih read inner, put_part? found]

theorem write_write (h : root.write new path = .ok r) :
    r.write newer path = root.write newer path := by
  induction path generalizing root r with
  | nil => rw [write, write]
  | cons step path ih =>
    obtain ⟨w, w', found, inner, rfl⟩ := exists_write_cons h
    rw [write_cons (part?_put found w'), write_cons found, ih inner]
    congr 1
    funext part
    exact put_put

theorem read_write_of_diverge (apart : PathStep.Diverge path other)
    (h : root.write new path = .ok r) : r.read other = root.read other := by
  induction path generalizing root r other with
  | nil => exact absurd apart (by simp [PathStep.Diverge])
  | cons step path ih =>
    obtain ⟨w, w', found, inner, rfl⟩ := exists_write_cons h
    cases other with
    | nil => exact absurd apart (by simp [PathStep.Diverge])
    | cons step' other =>
      by_cases same : step.key = step'.key
      · have later := apart.resolve_left (not_not.mpr same)
        have found' := part?_put found w'
        rw [part?_of_key same] at found found'
        rw [read_cons found', read_cons found]
        exact ih later inner
      · exact read_put found same w' other

/-- All arrays but those that are a part of what is written keep their length. -/
theorem length?_write (before : ¬PathStep.Extends path other)
    (h : root.write new path = .ok r) :
    (r.read other).map length? = (root.read other).map length? := by
  induction path generalizing root r other with
  | nil => exact absurd List.nil_prefix before
  | cons step path ih =>
    obtain ⟨w, w', found, inner, rfl⟩ := exists_write_cons h
    cases other with
    | nil =>
      rw [read, read]
      exact congrArg Except.ok (length?_put root step w')
    | cons step' other =>
      by_cases same : step.key = step'.key
      · have later : ¬PathStep.Extends path other := fun longer => before <| by
          rw [PathStep.Extends, List.map_cons, List.map_cons, same]
          exact List.cons_prefix_cons.mpr ⟨rfl, longer⟩
        have found' := part?_put found w'
        rw [part?_of_key same] at found found'
        rw [read_cons found', read_cons found]
        exact ih later inner
      · rw [read_put found same w' other]

/-- Where no string is indexed, reading goes out of bounds just where a step goes out of an array. -/
theorem read_indexOutOfBounds_iff :
    root.read path = .error (.runtime (.indexOutOfBounds i n position)) ∧ ¬root.InString path ↔
      root.OutOfArray path i n position := by
  induction path generalizing root with
  | nil =>
    rw [read]
    refine ⟨by rintro ⟨⟨⟩, _⟩, ?_⟩
    rintro ⟨front, back, element, items, split, _⟩
    simp at split
  | cons step path ih =>
    cases found : root.part? step with
    | some w => rw [read_cons found, inString_cons found, outOfArray_cons found, ih]
    | none =>
      constructor
      · intro fails
        obtain ⟨fails, places⟩ := fails
        -- Of the steps that lead to no place, only those out of an array fail for their index.
        rcases stuck_cases found with ⟨s, j, position', rfl, rfl⟩ |
          ⟨element, items, j, position', rfl, rfl, outside⟩ | refuses
        · exact absurd (inString_string s j position' path) places
        · rw [read, itemAt_outside outside] at fails
          cases fails
          exact ⟨[], path, element, items, rfl, by rw [read], rfl, outside⟩
        · obtain ⟨_, _, other⟩ := refuses.read path
          rw [other] at fails
          cases fails
      · rintro ⟨front, back, element, items, split, array, rfl, outside⟩
        cases front with
        | nil =>
          cases split
          rw [read] at array
          cases array
          refine ⟨by rw [read, itemAt_outside outside]; rfl, fun within => ?_⟩
          obtain ⟨_, ⟨⟩⟩ := string_of_stuck found within
        | cons first front =>
          cases split
          obtain ⟨_, _, _, _, _, _, _, ⟨⟩⟩ := char_of_stuck found array

theorem write_of_outOfArray (outside : root.OutOfArray path i n position) (new : Value) :
    root.write new path = .error (.runtime (.indexOutOfBounds i n position)) := by
  obtain ⟨front, back, element, items, rfl, array, rfl, outside⟩ := outside
  induction front generalizing root with
  | nil =>
    rw [read] at array
    cases array
    rw [List.nil_append, write, itemAt_outside outside]
    rfl
  | cons step front ih =>
    cases found : root.part? step with
    | some w =>
      rw [read_cons found] at array
      rw [List.cons_append, write_cons found, ih array]
      rfl
    | none => obtain ⟨_, _, _, _, _, _, _, ⟨⟩⟩ := char_of_stuck found array

theorem update_of_error {fault : Fault} (fails : root.read path = .error fault)
    (act : Value → Except Fault (α × Value)) : ∃ fault', root.update act path = .error fault' ∧
      ∀ e, fault = .runtime e → fault' = fault := by
  induction path generalizing root with
  | nil =>
    rw [read] at fails
    cases fails
  | cons step path ih =>
    cases found : root.part? step with
    | some w =>
      rw [read_cons found] at fails
      obtain ⟨fault', inner, same⟩ := ih fails
      exact ⟨fault', by rw [update_cons found, inner]; rfl, same⟩
    | none => exact update_of_stuck found fails act

/-- An action on a place is what is read there, acted on and written back. -/
theorem update_of_place (readable : root.read path = .ok u) (places : ¬root.InString path) :
    root.update act path = act u >>= fun pair => (pair.1, ·) <$> root.write pair.2 path := by
  induction path generalizing root with
  | nil =>
    rw [read] at readable
    cases readable
    rw [update]
    cases act u with
    | error fault => rfl
    | ok pair =>
      change _ = (pair.1, ·) <$> u.write pair.2 []
      rw [write]
      rfl
  | cons step path ih =>
    cases found : root.part? step with
    | some w =>
      rw [read_cons found] at readable
      rw [inString_cons found] at places
      rw [update_cons found, ih readable places]
      cases act u with
      | error fault => rfl
      | ok pair =>
        change (fun other => (other.1, root.put step other.2)) <$>
            ((pair.1, ·) <$> w.write pair.2 path) = (pair.1, ·) <$> root.write pair.2 (step :: path)
        rw [write_cons found]
        cases w.write pair.2 path <;> rfl
    | none =>
      obtain ⟨s, i, position, _, rfl, rfl, _⟩ := char_of_stuck found readable
      exact absurd (inString_string s i position path) places

theorem update_of_inString (readable : root.read path = .ok u) (within : root.InString path) :
    root.update act path = (fun pair => (pair.1, root)) <$> act u := by
  induction path generalizing root with
  | nil => exact absurd within not_inString_nil
  | cons step path ih =>
    cases found : root.part? step with
    | some w =>
      rw [read_cons found] at readable
      rw [inString_cons found] at within
      rw [update_cons found, ih readable within]
      cases act u with
      | error fault => rfl
      | ok pair => exact congrArg (fun whole => Except.ok (pair.1, whole)) (put_part? found)
    | none =>
      obtain ⟨s, i, position, c, rfl, rfl, rfl, rfl⟩ := char_of_stuck found readable
      rw [read] at readable
      obtain ⟨c', picked, made⟩ := exists_of_bind readable
      cases made
      rw [update, picked, map_eq_pure_bind]
      rfl

theorem part_of_length {args : List Value} {position : Position} {n : Int} {t : IntTy}
    (h : Method.call "length" args position w = .ok (some (.int n t), u)) :
    u = w ∧ ((∃ element items, w = .array element items ∧ n = items.length) ∨
      ∃ s, w = .string s ∧ n = s.toList.length) := by
  have counted : ∀ (count : Nat) (whole : Value),
      (do return (some (← Method.count count position), whole)) =
        (.ok (some (.int n t), u) : Except Fault (Option Value × Value)) →
      u = whole ∧ n = count := by
    intro count whole h
    obtain ⟨number, fits, h⟩ := exists_of_bind h
    cases h
    unfold Method.count at fits
    split at fits <;> cases fits
    exact ⟨rfl, rfl⟩
  cases w with
  | array element items =>
    obtain ⟨same, length⟩ := counted items.length (.array element items) h
    exact ⟨same, .inl ⟨element, items, rfl, length⟩⟩
  | string s =>
    obtain ⟨same, length⟩ := counted s.length (.string s) h
    exact ⟨same, .inr ⟨s, rfl, by rw [length, String.length_toList]⟩⟩
  | _ => cases h

theorem exists_read_index_iff {args : List Value} {position : Position} {n : Int} {t : IntTy}
    (readable : root.read path = .ok w)
    (told : Method.call "length" args position w = .ok (some (.int n t), u)) (i : Int)
    (position' : Position) :
    (∃ item, root.read (path ++ [.index i position']) = .ok item) ↔ 0 ≤ i ∧ i < n := by
  have places : ¬root.InString path := by
    intro within
    obtain ⟨c, rfl⟩ := char_of_inString within readable
    cases told
  rw [read_append readable places]
  obtain ⟨_, ⟨element, items, rfl, rfl⟩ | ⟨s, rfl, rfl⟩⟩ := part_of_length told
  · rw [← exists_itemAt_iff position', read]
    cases itemAt items i position' with
    | error fault => exact iff_of_false (by rintro ⟨_, ⟨⟩⟩) (by rintro ⟨_, ⟨⟩⟩)
    | ok item =>
      refine ⟨fun _ => ⟨item, rfl⟩, fun _ => ⟨item, ?_⟩⟩
      change item.read [] = _
      rw [read]
  · rw [← exists_itemAt_iff position', read]
    cases itemAt s.toList i position' with
    | error fault => exact iff_of_false (by rintro ⟨_, ⟨⟩⟩) (by rintro ⟨_, ⟨⟩⟩)
    | ok c => exact ⟨fun _ => ⟨c, rfl⟩, fun _ => ⟨.char c, rfl⟩⟩

end Path

/-- The laws of what can be done at the end of a path. A place is read and written in the same way,
and a method finds there what is read. -/
structure Lawful (root : Value) (path : List PathStep) : Prop where
  exists_write_iff : ∀ new, (∃ r, root.write new path = .ok r) ↔
    (∃ u, root.read path = .ok u) ∧ ¬root.InString path
  outOfArray_iff : ∀ i n position, root.OutOfArray path i n position ↔
    root.read path = .error (.runtime (.indexOutOfBounds i n position)) ∧ ¬root.InString path
  write_outOfArray : ∀ i n position, root.OutOfArray path i n position →
    ∀ new, root.write new path = .error (.runtime (.indexOutOfBounds i n position))
  read_write : ∀ new r, root.write new path = .ok r → r.read path = .ok new
  write_read : ∀ u r, root.read path = .ok u → root.write u path = .ok r → r = root
  write_write : ∀ new r, root.write new path = .ok r →
    ∀ newer, r.write newer path = root.write newer path
  read_apart : ∀ new r, root.write new path = .ok r →
    ∀ other, PathStep.Diverge path other → r.read other = root.read other
  lengths : ∀ new r, root.write new path = .ok r →
    ∀ other, ¬PathStep.Extends path other →
      (r.read other).map length? = (root.read other).map length?
  receiver_iff : ∀ u, root.update (fun w => .ok (w, w)) path = .ok (u, root) ↔
    root.read path = .ok u
  receiver_error : ∀ fault, root.read path = .error fault →
    ∀ {α : Type} (act : Value → Except Fault (α × Value)), ∃ fault',
      root.update act path = .error fault' ∧ ∀ e, fault = .runtime e → fault' = fault
  receiver_place : ∀ u, root.read path = .ok u → ¬root.InString path →
    ∀ {α : Type} (act : Value → Except Fault (α × Value)),
      root.update act path = act u >>= fun pair => (pair.1, ·) <$> root.write pair.2 path
  receiver_character : ∀ u, root.read path = .ok u → root.InString path →
    ∀ {α : Type} (act : Value → Except Fault (α × Value)),
      root.update act path = (fun pair => (pair.1, root)) <$> act u
  length : ∀ w, root.read path = .ok w → ∀ args position n t u,
    Method.call "length" args position w = .ok (some (.int n t), u) →
    u = w ∧ ∀ i position', (∃ item, root.read (path ++ [.index i position']) = .ok item) ↔
      0 ≤ i ∧ i < n

theorem receiver_iff {root u : Value} {path : List PathStep} :
    root.update (fun w => .ok (w, w)) path = .ok (u, root) ↔ root.read path = .ok u := by
  cases readable : root.read path with
  | error fault =>
    obtain ⟨fault', fails, _⟩ := update_of_error readable fun w => .ok (w, w)
    rw [fails]
    exact ⟨nofun, nofun⟩
  | ok w =>
    have looked : root.update (fun w => .ok (w, w)) path = .ok (w, root) := by
      by_cases within : root.InString path
      · rw [update_of_inString readable within]
        rfl
      · obtain ⟨r, written⟩ : ∃ r, root.write w path = .ok r :=
          exists_write_iff.mpr ⟨⟨w, readable⟩, within⟩
        rw [update_of_place readable within]
        change (w, ·) <$> root.write w path = _
        rw [written, write_read readable written]
        rfl
    rw [looked]
    constructor <;> rintro ⟨⟩ <;> rfl

theorem lawful (root : Value) (path : List PathStep) : root.Lawful path where
  exists_write_iff _ := exists_write_iff
  outOfArray_iff _ _ _ := read_indexOutOfBounds_iff.symm
  write_outOfArray _ _ _ outside new := write_of_outOfArray outside new
  read_write _ _ written := read_write written
  write_read _ _ readable written := write_read readable written
  write_write _ _ written _ := write_write written
  read_apart _ _ written _ apart := read_write_of_diverge apart written
  lengths _ _ written _ before := length?_write before written
  receiver_iff _ := receiver_iff
  receiver_error _ fails _ act := update_of_error fails act
  receiver_place _ readable places _ _ := update_of_place readable places
  receiver_character _ readable within _ _ := update_of_inString readable within
  length _ readable _ _ _ _ _ told :=
    ⟨(part_of_length told).1, fun i position => exists_read_index_iff readable told i position⟩

end Value
end LoopLang
