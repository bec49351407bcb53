import Mathlib.Logic.Equiv.Defs
import LoopLang.Proofs.Relabelling.Laws
import LoopLang.Proofs.Reordering.Texts

namespace LoopLang

namespace Definition

/-- The definition as it stands after so many nodes, at no place. -/
def numberedAt (n : NodeId) (d : Definition) : Definition :=
  d.relabelled ⟨Relocation.nowhere, (n + ·)⟩

def numberedFrom : NodeId → List Definition → List Definition
  | _, [] => []
  | n, d :: ds => d.numberedAt n :: numberedFrom (n + d.ids.length) ds

def Tight (d : Definition) : Prop := ∀ id ∈ d.ids, id < d.ids.length

theorem ReadFrom.tight {fuel : Nat} {text : String} {d : Definition} (h : ReadFrom fuel text d) :
    d.Tight := by
  obtain ⟨r, _, _, _, ids⟩ := h
  have length : d.ids.length = r.nextId := by rw [ids, List.length_range', Nat.sub_zero]
  intro id own
  rw [ids, List.mem_range'_1, Nat.zero_add, Nat.sub_zero, ← length] at own
  exact own.2

theorem spells_numberedFrom {fuel : Nat} {texts : List String} {ds : List Definition}
    (read : List.Forall₂ (ReadFrom fuel) texts ds) (n : NodeId) :
    Reader.Spells fuel ⟨Lexemes.bare (texts.flatMap Lexemes.tokensOf), .none, n⟩
      (numberedFrom n ds) := by
  induction read generalizing n with
  | nil => exact .nil rfl
  | @cons text d texts ds first _ ih =>
    obtain ⟨r, parsed, none_left, _, ids⟩ := first
    let after : Surroundings :=
      ⟨Relocation.nowhere, n, Lexemes.bare (texts.flatMap Lexemes.tokensOf)⟩
    have count : d.ids.length = r.nextId := by rw [ids, List.length_range', Nat.sub_zero]
    have start : (⟨Lexemes.bare ((text :: texts).flatMap Lexemes.tokensOf), .none, n⟩ : Reader) =
        Reader.within after ⟨Lexemes.bare (Lexemes.tokensOf text), .none, 0⟩ := by
      rw [List.flatMap_cons, Lexemes.bare, List.map_append, Reader.within, Lexemes.bare,
        List.map_map]
      rfl
    have stop : r.within after =
        ⟨Lexemes.bare (texts.flatMap Lexemes.tokensOf), .none, n + d.ids.length⟩ := by
      rw [Reader.within, none_left, count]
      rfl
    have bounds : after.Bounds fuel fuel := ⟨Nat.le_refl _, fun _ => rfl⟩
    have reads := (closes_parse bounds).agrees _ (.inr ⟨d, r, parsed⟩)
    rw [Parse.Agrees, parsed] at reads
    rw [start]
    refine .cons reads ?_
    rw [stop]
    exact ih _

section Renaming

variable {d : Definition} {ds ds' : List Definition} {n m : Nat} {rename : Nat → Nat}

theorem numberedAt_renamed (tight : d.Tight)
    (same : ∀ id : Nat, id < d.ids.length → rename (n + id) = m + id) :
    (d.numberedAt n).relabelled (.ofNumbers rename) = d.numberedAt m := by
  rw [numberedAt, relabelled_andThen]
  let here : Relabelling := ⟨Relocation.nowhere, (n + ·)⟩
  let there : Relabelling := ⟨Relocation.nowhere, (m + ·)⟩
  have places : (here.andThen (.ofNumbers rename)).place = there.place := rfl
  exact relabelled_congr places fun id own => same id (tight id own)

theorem numberedFrom_renamed (tight : ∀ d ∈ ds, d.Tight)
    (same : ∀ id : Nat, n ≤ id → rename id = id) :
    (numberedFrom n ds).map (relabelled (.ofNumbers rename)) = numberedFrom n ds := by
  induction ds generalizing n with
  | nil => rfl
  | cons d ds ih =>
    obtain ⟨first, others⟩ := List.forall_mem_cons.mp tight
    rw [numberedFrom, List.map_cons,
      numberedAt_renamed first fun id _ => same (n + id) (Nat.le_add_right n id),
      ih others fun id after => same id (by omega)]

/-- After `n`, the next `a` numbers change places with the `b` numbers that follow them. -/
def exchange (n a b : Nat) : Equiv.Perm Nat where
  toFun id := if id < n then id else if id < n + a then id + b else
    if id < n + a + b then id - a else id
  invFun id := if id < n then id else if id < n + b then id + a else
    if id < n + b + a then id - b else id
  left_inv id := by
    dsimp only
    split_ifs <;> omega
  right_inv id := by
    dsimp only
    split_ifs <;> omega

theorem exchange_apply (n a b id : Nat) : exchange n a b id =
    if id < n then id else if id < n + a then id + b else
      if id < n + a + b then id - a else id := rfl

/-- Definitions in another order are the same ones with their nodes renamed. -/
theorem exists_renaming (same : ds.Perm ds') (tight : ∀ d ∈ ds, d.Tight) (n : Nat) :
    ∃ rename : Equiv.Perm Nat, (∀ id : Nat, id < n → rename id = id) ∧
      (numberedFrom n ds').Perm
        ((numberedFrom n ds).map (relabelled (.ofNumbers rename))) := by
  induction same generalizing n with
  | nil => exact ⟨1, fun _ _ => rfl, .nil⟩
  | @cons d ds ds' _ ih =>
    obtain ⟨first, others⟩ := List.forall_mem_cons.mp tight
    obtain ⟨rename, before, renamed⟩ := ih others (n + d.ids.length)
    refine ⟨rename, fun id earlier => before id (by omega), ?_⟩
    rw [numberedFrom, numberedFrom, List.map_cons,
      numberedAt_renamed first fun id within => before (n + id) (by omega)]
    exact renamed.cons _
  | swap e d ds =>
    obtain ⟨tight_d, tight⟩ := List.forall_mem_cons.mp tight
    obtain ⟨tight_e, tight⟩ := List.forall_mem_cons.mp tight
    refine ⟨exchange n d.ids.length e.ids.length, fun id before => if_pos before, ?_⟩
    -- Two blocks of numbers change places; all numbers before and after them stay.
    have later : (d.numberedAt n).relabelled (.ofNumbers (exchange n d.ids.length e.ids.length)) =
        d.numberedAt (n + e.ids.length) := by
      refine numberedAt_renamed tight_d fun id within => ?_
      rw [exchange_apply]
      split_ifs <;> omega
    have earlier : (e.numberedAt (n + d.ids.length)).relabelled
        (.ofNumbers (exchange n d.ids.length e.ids.length)) = e.numberedAt n := by
      refine numberedAt_renamed tight_e fun id within => ?_
      rw [exchange_apply]
      split_ifs <;> omega
    have after : (numberedFrom (n + d.ids.length + e.ids.length) ds).map
        (relabelled (.ofNumbers (exchange n d.ids.length e.ids.length))) =
        numberedFrom (n + e.ids.length + d.ids.length) ds := by
      rw [Nat.add_right_comm n]
      refine numberedFrom_renamed tight fun id after => ?_
      rw [exchange_apply]
      split_ifs <;> omega
    simp only [numberedFrom, List.map_cons, later, earlier, after]
    exact .swap _ _ _
  | trans first _ ih ih' =>
    have tight' := fun d member => tight d (first.symm.subset member)
    obtain ⟨rename, before, renamed⟩ := ih tight n
    obtain ⟨rename', before', renamed'⟩ := ih' tight' n
    refine ⟨rename.trans rename', fun id earlier => ?_, ?_⟩
    · rw [Equiv.trans_apply, before id earlier, before' id earlier]
    · refine renamed'.trans ((renamed.map _).trans (.of_eq ?_))
      rw [List.map_map]
      congr 1
      funext d
      exact d.relabelled_andThen (.ofNumbers rename) (.ofNumbers rename')

end Renaming
end Definition
end LoopLang
