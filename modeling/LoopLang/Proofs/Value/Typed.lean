import Mathlib.Data.List.Nodup
import LoopLang.Proofs.Typing.Rules
import LoopLang.Value.Path

namespace LoopLang

namespace IntTy

variable {t source : IntTy} {v : Int}

theorem fits_iff : t.fits v = true ↔ t.range.low ≤ v ∧ v ≤ t.range.high := t.range.contains_iff v

theorem fits_of_accepts (h : t.accepts source = true) (fits : source.fits v = true) :
    t.fits v = true := by
  rw [fits_iff] at fits ⊢
  revert h fits
  cases source <;> cases t <;>
    simp [accepts, range, isSigned, bits, Range.signed, Range.unsigned] <;> omega

theorem accepts_iff_fits : t.accepts source = true ↔
    ∀ v, source.fits v = true → t.fits v = true := by
  refine ⟨fun accepts v => fits_of_accepts accepts, fun all => ?_⟩
  have low := all source.range.low (by cases source <;> decide)
  have high := all source.range.high (by cases source <;> decide)
  revert low high
  cases source <;> cases t <;> decide

end IntTy

namespace Ty

/-- A type that is not `any`, nor has it as an element at any depth. -/
def Specific : Ty → Prop
  | any => False
  | array element => element.Specific
  | _ => True

theorem Known.specific {g : Globals} {type : Ty} (h : type.Known g) : type.Specific := by
  induction type with
  | array element ih => exact ih h
  | any => exact h
  | _ => trivial

end Ty

namespace Struct

theorem exists_member? {s : Struct} {name : String} (declared : name ∈ s.members.map Member.name) :
    ∃ m, s.member? name = some m := by
  obtain ⟨m, member, rfl⟩ := List.mem_map.mp declared
  exact Option.isSome_iff_exists.mp (List.find?_isSome.mpr ⟨m, member, by simp⟩)

end Struct

namespace Value

/-- A value that is well formed at a type: it knows exactly that type, and so do its parts. -/
inductive HasType (g : Globals) : Value → Ty → Prop where
  | int {v t} : t.fits v = true → HasType g (.int v t) (.primitive (.int t))
  | float {v} : HasType g (.float v) (.primitive .f32)
  | string {v} : HasType g (.string v) (.primitive .string)
  | bool {v} : HasType g (.bool v) (.primitive .bool)
  | char {v} : HasType g (.char v) (.primitive .char)
  | enum {name member e} :
    g.enum? name = some e →
    member ∈ e.entries →
    HasType g (.enum name member) (.enum name)
  | array {element items} :
    (∀ item ∈ items, HasType g item element) →
    HasType g (.array element items) (.array element)
  | struct {name fields s} :
    g.struct? name = some s →
    (fields.map Prod.fst).Nodup →
    (∀ key, key ∈ fields.map Prod.fst ↔ key ∈ s.members.map Member.name) →
    (∀ key v m, (key, v) ∈ fields → s.member? key = some m → HasType g v m.type) →
    HasType g (.struct name fields) (.struct name)

section Coercion

theorem coerce_cases (v : Value) (target : Ty) : v.coerce target = v ∨
    (∃ i s t, v = .int i s ∧ target = .int t ∧ v.coerce target = .int i t) ∨
    ∃ e items t, v = .array e items ∧ target = .array t ∧
      v.coerce target = .array t (items.map (·.coerce t)) := by
  fun_cases coerce v target with
  | case1 i s t => exact .inr (.inl ⟨i, s, t, rfl, rfl, rfl⟩)
  | case2 e items t => exact .inr (.inr ⟨e, items, t, rfl, rfl, rfl⟩)
  | case3 => exact .inl rfl

variable {g : Globals} {v : Value} {source target : Ty}

theorem HasType.coerce (h : v.HasType g source) (specific : target.Specific)
    (accepts : target.accepts source = true) : (v.coerce target).HasType g target := by
  induction target generalizing v source with
  | named name => cases source <;> cases accepts
  | any => exact specific.elim
  | primitive t =>
    cases h with
    | int fits =>
      cases t with
      | int t => exact .int (IntTy.fits_of_accepts accepts fits)
      | _ => simp [Ty.accepts, Primitive.accepts] at accepts
    | float | string | bool | char =>
      cases t <;> simp [Ty.accepts, Primitive.accepts] at accepts
      simp only [coerce]
      constructor
    | _ => simp [Ty.accepts] at accepts
  | array element ih =>
    cases h with
    | array items_typed =>
      rw [Value.coerce]
      refine .array fun item member => ?_
      obtain ⟨before, found, rfl⟩ := List.mem_map.mp member
      exact ih (items_typed before found) specific accepts
    | _ => simp [Ty.accepts] at accepts
  | struct name =>
    cases h with
    | struct lookup distinct members typed =>
      simp only [Ty.accepts, decide_eq_true_eq] at accepts
      rw [accepts, Value.coerce]
      · exact .struct lookup distinct members typed
      all_goals simp
    | _ => simp [Ty.accepts] at accepts
  | enum name =>
    cases h with
    | enum lookup entry =>
      simp only [Ty.accepts, decide_eq_true_eq] at accepts
      rw [accepts, Value.coerce]
      · exact .enum lookup entry
      all_goals simp
    | _ => simp [Ty.accepts] at accepts

end Coercion

theorem HasType.int? {g : Globals} {v : Value} {type : Ty} (h : v.HasType g type)
    (integer : type.int?.isSome) : ∃ i, v.int? = some i := by
  cases h with
  | int _ => exact ⟨_, rfl⟩
  | _ => cases integer

theorem HasType.bool? {g : Globals} {v : Value} (h : v.HasType g .bool) :
    ∃ b, v.bool? = some b := by
  cases h with
  | bool => exact ⟨_, rfl⟩

section Fields

variable {name key : String} {v w : Value} {fields : List (String × Value)}

theorem keys_insertField : (insertField name v fields).map Prod.fst =
    if name ∈ fields.map Prod.fst then fields.map Prod.fst else fields.map Prod.fst ++ [name] := by
  induction fields with
  | nil => rfl
  | cons field fields ih =>
    obtain ⟨other, w⟩ := field
    rw [insertField]
    by_cases same : other = name
    · rw [if_pos same, if_pos (by simp [same])]
      simp [same]
    · rw [if_neg same, List.map_cons, ih, List.map_cons]
      by_cases member : name ∈ fields.map Prod.fst
      · rw [if_pos member, if_pos (.tail _ member)]
      · rw [if_neg member, if_neg, List.cons_append]
        rw [List.mem_cons, not_or]
        exact ⟨Ne.symm same, member⟩

theorem mem_keys_insertField : key ∈ (insertField name v fields).map Prod.fst ↔
    key = name ∨ key ∈ fields.map Prod.fst := by
  rw [keys_insertField]
  split
  · rename_i member
    constructor
    · exact .inr
    · intro found
      rcases found with rfl | found
      · exact member
      · exact found
  · rw [List.mem_append, List.mem_singleton, or_comm]

theorem nodup_keys_insertField (distinct : (fields.map Prod.fst).Nodup) :
    ((insertField name v fields).map Prod.fst).Nodup := by
  rw [keys_insertField]
  split
  · exact distinct
  · rename_i fresh
    exact List.nodup_append_comm.mp (List.nodup_cons.mpr ⟨fresh, distinct⟩)

theorem mem_insertField (h : (key, w) ∈ insertField name v fields) :
    (key = name ∧ w = v) ∨ (key, w) ∈ fields := by
  induction fields with
  | nil => exact .inl (by simpa [insertField] using h)
  | cons field fields ih =>
    obtain ⟨other, u⟩ := field
    rw [insertField] at h
    by_cases same : other = name
    · rw [if_pos same] at h
      rcases List.mem_cons.mp h with here | later
      · exact .inl (by simpa using here)
      · exact .inr (.tail _ later)
    · rw [if_neg same] at h
      rcases List.mem_cons.mp h with here | later
      · exact .inr (here ▸ List.mem_cons_self)
      · exact (ih later).imp_right (.tail _)

theorem lookup_cons {other : String} :
    ((other, w) :: fields).lookup key = if key = other then some w else fields.lookup key := by
  rw [List.lookup_cons]
  split
  · rename_i same
    rw [if_pos (beq_iff_eq.mp same)]
  · rename_i apart
    rw [if_neg (beq_eq_false_iff_ne.mp apart)]

theorem lookup_insertField : (insertField name v fields).lookup key =
    if key = name then some v else fields.lookup key := by
  induction fields with
  | nil => rw [insertField, lookup_cons]
  | cons field fields ih =>
    obtain ⟨other, w⟩ := field
    rw [insertField]
    split
    · rename_i replaced
      rw [lookup_cons, lookup_cons, replaced]
      split <;> rfl
    · rename_i apart
      rw [lookup_cons, lookup_cons, ih]
      by_cases here : key = other
      · rw [if_pos here, if_neg (here ▸ apart), if_pos here]
      · rw [if_neg here, if_neg here]

theorem insertField_insertField :
    insertField name w (insertField name v fields) = insertField name w fields := by
  induction fields with
  | nil => simp [insertField]
  | cons field fields ih =>
    obtain ⟨other, u⟩ := field
    rw [insertField, insertField]
    split
    · rw [insertField, if_pos rfl]
    · rename_i apart
      rw [insertField, if_neg apart, ih]

theorem mem_of_lookup (h : fields.lookup key = some v) : (key, v) ∈ fields := by
  obtain ⟨front, back, rfl, _⟩ := List.lookup_eq_some_iff.mp h
  simp

theorem lookup_of_mem (distinct : (fields.map Prod.fst).Nodup) (member : (key, v) ∈ fields) :
    fields.lookup key = some v := by
  induction fields with
  | nil => cases member
  | cons field fields ih =>
    obtain ⟨other, w⟩ := field
    rw [List.map_cons, List.nodup_cons] at distinct
    rw [lookup_cons]
    rcases List.mem_cons.mp member with here | later
    · cases here
      rw [if_pos rfl]
    · rw [if_neg, ih distinct.2 later]
      rintro rfl
      exact distinct.1 (List.mem_map.mpr ⟨_, later, rfl⟩)

theorem lookup_isSome_iff : (fields.lookup key).isSome ↔ key ∈ fields.map Prod.fst := by
  rw [List.lookup_isSome_iff, List.mem_map]
  constructor
  · intro all
    obtain ⟨field, member, same⟩ := all
    exact ⟨field, member, (beq_iff_eq.mp same).symm⟩
  · intro all
    obtain ⟨field, member, same⟩ := all
    exact ⟨field, member, beq_iff_eq.mpr same.symm⟩

theorem lookup_eq_none_iff : fields.lookup key = none ↔ key ∉ fields.map Prod.fst := by
  rw [← lookup_isSome_iff, Option.not_isSome_iff_eq_none]

structure FieldsOf (g : Globals) (s : Struct) (fields : List (String × Value)) : Prop where
  distinct : (fields.map Prod.fst).Nodup
  typed : ∀ key v, (key, v) ∈ fields → ∃ m, s.member? key = some m ∧ v.HasType g m.type

variable {g : Globals} {s : Struct} {m : Member}

theorem FieldsOf.empty : FieldsOf g s [] := ⟨.nil, nofun⟩

theorem FieldsOf.insert (h : FieldsOf g s fields) (found : s.member? name = some m)
    (typed : v.HasType g m.type) : FieldsOf g s (insertField name v fields) := by
  refine ⟨nodup_keys_insertField h.distinct, fun key w member => ?_⟩
  rcases mem_insertField member with ⟨rfl, rfl⟩ | old
  · exact ⟨m, found, typed⟩
  · exact h.typed key w old

theorem FieldsOf.hasType (h : FieldsOf g s fields) (lookup : g.struct? name = some s)
    (complete : ∀ m ∈ s.members, m.name ∈ fields.map Prod.fst) :
    (Value.struct name fields).HasType g (.struct name) := by
  refine .struct lookup h.distinct (fun key => ⟨fun present => ?_, fun present => ?_⟩) ?_
  · obtain ⟨⟨_, v⟩, member, rfl⟩ := List.mem_map.mp present
    obtain ⟨m, found, _⟩ := h.typed _ v member
    have same := List.find?_some found
    exact List.mem_map.mpr ⟨m, List.mem_of_find?_eq_some found, by simpa using same⟩
  · obtain ⟨m, member, rfl⟩ := List.mem_map.mp present
    exact complete m member
  · intro key v m member found
    obtain ⟨m', found', typed⟩ := h.typed key v member
    rw [found] at found'
    cases found'
    exact typed

theorem HasType.fieldsOf (h : (Value.struct name fields).HasType g (.struct key)) :
    name = key ∧ ∃ s, g.struct? name = some s ∧ FieldsOf g s fields ∧
      ∀ m ∈ s.members, m.name ∈ fields.map Prod.fst := by
  cases h with
  | struct lookup distinct members typed =>
    refine ⟨rfl, _, lookup, ⟨distinct, fun key v member => ?_⟩, fun m member => ?_⟩
    · have present := (members key).mp (List.mem_map.mpr ⟨(key, v), member, rfl⟩)
      obtain ⟨m, found⟩ := Struct.exists_member? present
      exact ⟨m, found, typed _ v m member found⟩
    · exact (members m.name).mpr (List.mem_map.mpr ⟨m, member, rfl⟩)

end Fields

end Value

namespace Fault

def Ordinary : Fault → Prop
  | .internal _ _ => False
  | _ => True

end Fault

/-- A computation answers with something that satisfies `post`, or else with an ordinary fault. -/
def Answers {α : Type} (x : Except Fault α) (post : α → Prop) : Prop :=
  match x with
  | .ok a => post a
  | .error fault => fault.Ordinary

namespace Answers

variable {α β : Type} {P : α → Prop}

theorem bind {x : Except Fault α} {f : α → Except Fault β} {post : β → Prop}
    (first : Answers x P) (second : ∀ a, P a → Answers (f a) post) : Answers (x >>= f) post := by
  cases x with
  | error fault => exact first
  | ok a => exact second a first

theorem mono {x : Except Fault α} {post : α → Prop} (h : Answers x P)
    (imp : ∀ a, P a → post a) : Answers x post := by
  cases x with
  | error fault => exact h
  | ok a => exact imp a h

end Answers

namespace PathStep

/-- Steps that lead from a part of one type to a part of another, or to a character of a
    string. -/
inductive Lead (g : Globals) : Ty → List PathStep → Ty → (inString : Bool) → Prop where
  | here {type} : Lead g type [] type false
  | item {element i position path type inString} :
    Lead g element path type inString →
    Lead g (.array element) (.index i position :: path) type inString
  | character {i position} : Lead g .string [.index i position] (.primitive .char) true
  | member {struct name position s m path type inString} :
    g.struct? struct = some s →
    s.member? name = some m →
    Lead g m.type path type inString →
    Lead g (.struct struct) (.field name position :: path) type inString

end PathStep

namespace Value

section Paths

variable {g : Globals} {v new : Value} {type part : Ty} {path : List PathStep} {inString : Bool}

theorem itemAt_answers {α : Type} (items : List α) (i : Int) (position : Position) :
    Answers (itemAt items i position) (· ∈ items) := by
  unfold itemAt
  split
  · rename_i within
    exact List.getElem_mem within.2
  · trivial

theorem HasType.member {name key : String} {s : Struct} {m : Member}
    (h : v.HasType g (.struct name)) (lookup : g.struct? name = some s)
    (found : s.member? key = some m) : ∃ fields w, v = .struct name fields ∧
      fields.lookup key = some w ∧ w.HasType g m.type ∧ ∀ new : Value, new.HasType g m.type →
        (Value.struct name (insertField key new fields)).HasType g (.struct name) := by
  cases v with
  | struct other fields =>
    obtain ⟨rfl, s', lookup', typed, complete⟩ := h.fieldsOf
    rw [lookup] at lookup'
    cases lookup'
    have declared := complete m (List.mem_of_find?_eq_some found)
    have named : m.name = key := by simpa using List.find?_some found
    rw [named] at declared
    obtain ⟨w, bound⟩ := Option.isSome_iff_exists.mp (lookup_isSome_iff.mpr declared)
    obtain ⟨m', found', part_typed⟩ := typed.typed key w (mem_of_lookup bound)
    rw [found] at found'
    cases found'
    refine ⟨fields, w, rfl, bound, part_typed, fun new new_typed => ?_⟩
    refine (typed.insert found new_typed).hasType lookup fun m' member => ?_
    exact mem_keys_insertField.mpr (.inr (complete m' member))
  | _ => cases h

theorem HasType.set {element : Ty} {items : List Value} {item : Value} {i : Nat}
    (h : ∀ item ∈ items, item.HasType g element) (typed : item.HasType g element) :
    (Value.array element (items.set i item)).HasType g (.array element) := by
  refine .array fun other member => ?_
  rcases List.mem_or_eq_of_mem_set member with old | rfl
  · exact h other old
  · exact typed

theorem HasType.read (h : v.HasType g type) (lead : PathStep.Lead g type path part inString) :
    Answers (v.read path) (·.HasType g part) := by
  induction lead generalizing v with
  | here =>
    rw [Value.read]
    exact h
  | item _ ih =>
    cases h with
    | array items_typed =>
      rw [Value.read]
      exact (itemAt_answers _ _ _).bind fun item found => ih (items_typed item found)
  | character =>
    cases h with
    | string =>
      rw [Value.read]
      exact (itemAt_answers _ _ _).bind fun c _ => .char
  | member lookup found _ ih =>
    obtain ⟨fields, w, rfl, bound, typed, _⟩ := h.member lookup found
    rw [Value.read, bound]
    exact ih typed

theorem HasType.write (h : v.HasType g type) (lead : PathStep.Lead g type path part false)
    (typed : new.HasType g part) : Answers (v.write new path) (·.HasType g type) := by
  generalize within : false = inString at lead
  induction lead generalizing v with
  | here =>
    rw [Value.write]
    exact typed
  | item _ ih =>
    cases h with
    | array items_typed =>
      rw [Value.write]
      refine (itemAt_answers _ _ _).bind fun item found => ?_
      exact (ih (items_typed item found) typed within).bind fun w written =>
        .set items_typed written
  | character => cases within
  | member lookup found _ ih =>
    obtain ⟨fields, w, rfl, bound, old_typed, replaced⟩ := h.member lookup found
    rw [Value.write, bound]
    exact (ih old_typed typed within).bind replaced

theorem HasType.update {α : Type} {act : Value → Except Fault (α × Value)} {P : α → Prop}
    (h : v.HasType g type) (lead : PathStep.Lead g type path part inString)
    (acts : ∀ w : Value, w.HasType g part → Answers (act w) fun (a, w') =>
      P a ∧ w'.HasType g part) :
    Answers (v.update act path) fun (a, w) => P a ∧ w.HasType g type := by
  induction lead generalizing v with
  | here =>
    rw [Value.update]
    exact acts v h
  | item _ ih =>
    cases h with
    | array items_typed =>
      rw [Value.update]
      refine (itemAt_answers _ _ _).bind fun item found => ?_
      apply (ih (items_typed item found) acts).bind
      intro pair ends
      obtain ⟨a, w⟩ := pair
      obtain ⟨result, typed⟩ := ends
      exact ⟨result, .set items_typed typed⟩
  | character =>
    cases h with
    | string =>
      rw [Value.update]
      refine (itemAt_answers _ _ _).bind fun c _ => (acts (.char c) .char).bind ?_
      intro pair ends
      obtain ⟨a, w⟩ := pair
      obtain ⟨result, _⟩ := ends
      exact ⟨result, .string⟩
  | member lookup found _ ih =>
    obtain ⟨fields, w, rfl, bound, old_typed, replaced⟩ := h.member lookup found
    rw [Value.update, bound]
    apply (ih old_typed acts).bind
    intro pair ends
    obtain ⟨a, w'⟩ := pair
    obtain ⟨result, typed⟩ := ends
    exact ⟨result, replaced w' typed⟩

end Paths

end Value
end LoopLang
