import LoopLang.Proofs.Value.Floats
import LoopLang.Proofs.Value.Typed

namespace LoopLang

theorem forall₂_trans {α β γ : Type} {R : α → β → Prop} {S : β → γ → Prop} {T : α → γ → Prop}
    {xs : List α} {ys : List β} {zs : List γ} (step : ∀ x y z, R x y → S y z → T x z)
    (first : List.Forall₂ R xs ys) (second : List.Forall₂ S ys zs) : List.Forall₂ T xs zs := by
  induction first generalizing zs with
  | nil =>
    cases second
    exact .nil
  | cons head _ ih =>
    cases second with
    | cons head' rest => exact .cons (step _ _ _ head head') (ih rest)

namespace Value

inductive HasNaN : Value → Prop where
  | float {x} : x.isNaN = true → HasNaN (.float x)
  | member {name fields key v} : (key, v) ∈ fields → HasNaN v → HasNaN (.struct name fields)
  | item {element items v} : v ∈ items → HasNaN v → HasNaN (.array element items)

inductive Distinct : Value → Prop where
  | int {i s} : Distinct (.int i s)
  | float {x} : Distinct (.float x)
  | string {x} : Distinct (.string x)
  | bool {b} : Distinct (.bool b)
  | char {c} : Distinct (.char c)
  | enum {name member} : Distinct (.enum name member)
  | array {element items} : (∀ item ∈ items, Distinct item) → Distinct (.array element items)
  | struct {name fields} :
    (fields.map Prod.fst).Nodup →
    (∀ key v, (key, v) ∈ fields → Distinct v) →
    Distinct (.struct name fields)

/-- Values that differ, at any depth, in nothing but the types of integers and array elements and
the order in which members have been bound. -/
inductive Alike : Value → Value → Prop where
  | int {i s t} : Alike (.int i s) (.int i t)
  | array {s t xs ys} :
    xs.length = ys.length →
    (∀ x y, (x, y) ∈ xs.zip ys → Alike x y) →
    Alike (.array s xs) (.array t ys)
  | struct {name fs gs} :
    (fs.map Prod.fst).Perm (gs.map Prod.fst) →
    (∀ key v w, (key, v) ∈ fs → (key, w) ∈ gs → Alike v w) →
    Alike (.struct name fs) (.struct name gs)
  | same {v} : Alike v v

variable {g : Globals} {v a a' b b' c : Value}

theorem HasType.distinct {type : Ty} (h : v.HasType g type) : v.Distinct := by
  induction h with
  | int => exact .int
  | float => exact .float
  | string => exact .string
  | bool => exact .bool
  | char => exact .char
  | enum => exact .enum
  | array _ ih => exact .array ih
  | struct _ distinct members _ ih =>
    apply Distinct.struct distinct
    intro key w member
    obtain ⟨m, found⟩ := Struct.exists_member? ((members key).mp (List.mem_map_of_mem member))
    exact ih key w m member found

section Members

theorem itemsEqual_iff {xs ys : List Value} :
    itemsEqual xs ys = true ↔ List.Forall₂ (fun x y => x.equals y = true) xs ys := by
  induction xs generalizing ys with
  | nil => cases ys <;> simp [itemsEqual]
  | cons x xs ih => cases ys <;> simp [itemsEqual, ih]

theorem fieldsEqual_iff {fs gs : List (String × Value)} : fieldsEqual fs gs = true ↔
    ∀ key v, (key, v) ∈ fs → ∃ w, gs.lookup key = some w ∧ v.equals w = true := by
  induction fs with
  | nil => simp [fieldsEqual]
  | cons field fs ih =>
    obtain ⟨name, v⟩ := field
    rw [fieldsEqual, Bool.and_eq_true, ih]
    constructor
    · intro both key w member
      rcases List.mem_cons.mp member with here | later
      · cases here
        cases found : gs.lookup name with
        | none => simp [found] at both
        | some w => exact ⟨w, rfl, by simpa [found] using both.1⟩
      · exact both.2 key w later
    · intro all
      obtain ⟨w, found, same⟩ := all name v List.mem_cons_self
      refine ⟨by rw [found]; exact same, fun key w member => all key w (.tail _ member)⟩

variable {m n : String} {fs gs : List (String × Value)}

theorem equals_struct_iff : (struct m fs).equals (struct n gs) = true ↔
    m = n ∧ fs.length = gs.length ∧
      ∀ key v, (key, v) ∈ fs → ∃ w, gs.lookup key = some w ∧ v.equals w = true := by
  rw [equals, Bool.and_eq_true, Bool.and_eq_true, beq_iff_eq, beq_iff_eq, fieldsEqual_iff,
    and_assoc]

/-- If as many members are bound on both sides, each of the first among the second, then the second
are all among the first. -/
theorem keys_perm (distinct : (fs.map Prod.fst).Nodup) (length : fs.length = gs.length)
    (found : ∀ key v, (key, v) ∈ fs → ∃ w, gs.lookup key = some w ∧ v.equals w = true) :
    (fs.map Prod.fst).Perm (gs.map Prod.fst) := by
  have subset : fs.map Prod.fst ⊆ gs.map Prod.fst := by
    intro name bound
    obtain ⟨⟨key, v⟩, member, rfl⟩ := List.mem_map.mp bound
    obtain ⟨w, there, _⟩ := found key v member
    have bound' : (key, w) ∈ gs := mem_of_lookup there
    exact List.mem_map.mpr ⟨(key, w), bound', rfl⟩
  apply (List.subperm_of_subset distinct subset).perm_of_length_le
  simp [length]

end Members

section Equality

/-- A value is equal to itself, but for numbers that are none. -/
theorem Distinct.equals_self_iff (h : v.Distinct) : v.equals v = true ↔ ¬v.HasNaN := by
  induction h with
  | @float x =>
    rw [equals, FloatOrder.beq_self, Bool.not_eq_true', Bool.eq_false_iff]
    refine not_congr ⟨.float, fun nan => ?_⟩
    cases nan with
    | float nan => exact nan
  | @array element items _ ih =>
    rw [equals, itemsEqual_iff, List.forall₂_same]
    constructor
    · intro equal nan
      cases nan with
      | item member nan => exact (ih _ member).mp (equal _ member) nan
    · intro none item member
      exact (ih item member).mpr fun nan => none (.item member nan)
  | @struct name fields distinct _ ih =>
    rw [equals, beq_self_eq_true, beq_self_eq_true, Bool.true_and, Bool.true_and, fieldsEqual_iff]
    constructor
    · intro equal nan
      cases nan with
      | member member nan =>
        obtain ⟨w, found, same⟩ := equal _ _ member
        rw [lookup_of_mem distinct member] at found
        cases found
        exact (ih _ _ member).mp same nan
    · intro none key w member
      have equal : w.equals w = true := (ih key w member).mpr fun nan => none (.member member nan)
      exact ⟨w, lookup_of_mem distinct member, equal⟩
  | _ => exact ⟨fun _ => nofun, fun _ => by simp [equals]⟩

theorem HasType.equals_self_iff {type : Ty} (h : v.HasType g type) :
    v.equals v = true ↔ ¬v.HasNaN :=
  h.distinct.equals_self_iff

theorem Distinct.equals_symm (ha : a.Distinct) (same : a.equals b = true) :
    b.equals a = true := by
  induction ha generalizing b with
  | @array element items _ ih =>
    cases b with
    | array element' items' =>
      rw [equals, itemsEqual_iff] at same ⊢
      have both := (List.forall₂_and_left items items').mpr ⟨ih, same⟩
      exact List.Forall₂.flip (both.imp fun x y ⟨symm, same⟩ => symm same)
    | _ => cases same
  | @struct name fields distinct _ ih =>
    cases b with
    | struct name' fields' =>
      obtain ⟨named, length, found⟩ := equals_struct_iff.mp same
      have perm := keys_perm distinct length found
      apply equals_struct_iff.mpr ⟨named.symm, length.symm, ?_⟩
      intro key w member
      have bound : key ∈ fields.map Prod.fst := perm.mem_iff.mpr (List.mem_map_of_mem member)
      obtain ⟨⟨key, v⟩, earlier, rfl⟩ := List.mem_map.mp bound
      obtain ⟨w', there, same⟩ := found key v earlier
      rw [lookup_of_mem (perm.nodup distinct) member] at there
      cases there
      exact ⟨v, lookup_of_mem distinct earlier, ih key v earlier same⟩
    | _ => cases same
  | @float x =>
    cases b with
    | float y => exact (FloatOrder.beq_comm y x).trans same
    | _ => cases same
  | _ => cases b <;> simp_all [equals]

theorem Distinct.equals_comm (ha : a.Distinct) (hb : b.Distinct) : a.equals b = b.equals a :=
  Bool.eq_iff_iff.mpr ⟨ha.equals_symm, hb.equals_symm⟩

theorem Distinct.equals_trans (ha : a.Distinct) (first : a.equals b = true)
    (second : b.equals c = true) : a.equals c = true := by
  induction ha generalizing b c with
  | @array element items _ ih =>
    cases b with
    | array element' items' =>
      cases c with
      | array element'' items'' =>
        rw [equals, itemsEqual_iff] at first second ⊢
        have both := (List.forall₂_and_left items items').mpr ⟨@ih, first⟩
        exact forall₂_trans (fun x y z ⟨onwards, first⟩ second => onwards first second) both second
      | _ => cases second
    | _ => cases first
  | @struct name fields _ _ ih =>
    cases b with
    | struct name' fields' =>
      cases c with
      | struct name'' fields'' =>
        obtain ⟨named, length, found⟩ := equals_struct_iff.mp first
        obtain ⟨named', length', found'⟩ := equals_struct_iff.mp second
        apply equals_struct_iff.mpr ⟨named.trans named', length.trans length', ?_⟩
        intro key u member
        obtain ⟨v, there, same⟩ := found key u member
        obtain ⟨w, there', same'⟩ := found' key v (mem_of_lookup there)
        exact ⟨w, there', ih key u member same same'⟩
      | _ => cases second
    | _ => cases first
  | @float x =>
    cases b with
    | float y =>
      cases c with
      | float z =>
        simp only [equals, FloatOrder.beq_eq_standing?, beq_iff_eq] at first second ⊢
        exact FloatOrder.standing?_trans first second
      | _ => cases second
    | _ => cases first
  | _ => cases b <;> cases c <;> simp_all [equals]

end Equality

section Alike

theorem Alike.items {s t : Ty} {xs ys : List Value} (h : List.Forall₂ Alike xs ys) :
    Alike (.array s xs) (.array t ys) :=
  .array h.length_eq fun _ _ => List.forall₂_zip h

theorem Alike.symm (h : a.Alike b) : b.Alike a := by
  induction h with
  | int => exact .int
  | array length _ ih =>
    have turned := List.forall₂_iff_zip.mpr ⟨length, @ih⟩
    exact .items (List.Forall₂.flip turned)
  | struct perm _ ih => exact .struct perm.symm fun key v w here there => ih key w v there here
  | same => exact .same

theorem alike_coerce (v : Value) (target : Ty) : v.Alike (v.coerce target) := by
  fun_induction coerce v target with
  | case1 => exact .int
  | case2 e items element ih =>
    apply Alike.items
    rw [List.forall₂_map_right_iff, List.forall₂_same]
    exact fun item _ => ih item
  | case3 => exact .same

theorem Alike.equals_left (h : a.Alike a') (same : a.equals b = true) : a'.equals b = true := by
  induction h generalizing b with
  | int =>
    cases b with
    | int => exact same
    | _ => cases same
  | @array _ _ xs ys length _ ih =>
    cases b with
    | array element items =>
      rw [equals, itemsEqual_iff] at same ⊢
      have pairs : List.Forall₂ (fun x y => ∀ {b}, x.equals b = true → y.equals b = true) xs ys :=
        List.forall₂_iff_zip.mpr ⟨length, @ih⟩
      exact forall₂_trans (fun y x b onwards same => onwards same) pairs.flip same
    | _ => cases same
  | @struct name fs gs perm _ ih =>
    cases b with
    | struct name fields =>
      obtain ⟨named, length, found⟩ := equals_struct_iff.mp same
      have length' : fs.length = gs.length := by simpa using perm.length_eq
      apply equals_struct_iff.mpr ⟨named, length'.symm.trans length, ?_⟩
      intro key w member
      have bound : key ∈ fs.map Prod.fst := perm.mem_iff.mpr (List.mem_map_of_mem member)
      obtain ⟨⟨key, v⟩, earlier, rfl⟩ := List.mem_map.mp bound
      obtain ⟨x, there, same⟩ := found key v earlier
      exact ⟨x, there, ih key v w earlier member same⟩
    | _ => cases same
  | same => exact same

theorem Alike.equals_right (h : b.Alike b') (same : a.equals b = true) : a.equals b' = true := by
  induction h generalizing a with
  | int =>
    cases a with
    | int => exact same
    | _ => cases same
  | @array _ _ xs ys length _ ih =>
    cases a with
    | array element items =>
      rw [equals, itemsEqual_iff] at same ⊢
      have pairs : List.Forall₂ (fun x y => ∀ {a : Value}, a.equals x = true → a.equals y = true)
        xs ys := List.forall₂_iff_zip.mpr ⟨length, @ih⟩
      exact forall₂_trans (fun a x y same onwards => onwards same) same pairs
    | _ => cases same
  | @struct name fs gs perm _ ih =>
    cases a with
    | struct name fields =>
      obtain ⟨named, length, found⟩ := equals_struct_iff.mp same
      have length' : fs.length = gs.length := by simpa using perm.length_eq
      apply equals_struct_iff.mpr ⟨named, length.trans length', ?_⟩
      intro key u member
      obtain ⟨v, there, same⟩ := found key u member
      have bound : key ∈ gs.map Prod.fst :=
        perm.mem_iff.mp (List.mem_map_of_mem (mem_of_lookup there))
      obtain ⟨w, there'⟩ := Option.isSome_iff_exists.mp (lookup_isSome_iff.mpr bound)
      exact ⟨w, there', ih key v w (mem_of_lookup there) (mem_of_lookup there') same⟩
    | _ => cases same
  | same => exact same

theorem Alike.equals_eq (left : a.Alike a') (right : b.Alike b') :
    a.equals b = a'.equals b' := by
  apply Bool.eq_iff_iff.mpr
  constructor
  · intro same
    exact right.equals_right (left.equals_left same)
  · intro same
    exact right.symm.equals_right (left.symm.equals_left same)

end Alike
end Value
end LoopLang
