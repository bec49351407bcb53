import Mathlib.Data.List.Forall2

namespace LoopLang

theorem exists_of_bind {ε α β : Type} {x : Except ε α} {f : α → Except ε β} {b : β}
    (h : (x >>= f) = .ok b) : ∃ a, x = .ok a ∧ f a = .ok b := by
  cases x with
  | error e => cases h
  | ok a => exact ⟨a, rfl, h⟩

theorem ok_of_mapError {ε ε' α : Type} {x : Except ε α} {f : ε → ε'} {a : α}
    (h : x.mapError f = .ok a) : x = .ok a := by
  cases x with
  | error e => cases h
  | ok b =>
    cases h
    rfl

theorem exists_of_any {ε α : Type} {x : Except ε α} {q : α → Bool}
    (h : x.toOption.any q = true) : ∃ a, x = .ok a ∧ q a = true := by
  cases x with
  | error e => cases h
  | ok a => exact ⟨a, rfl, h⟩

def failsWith {ε α : Type} (q : ε → Bool) : Except ε α → Bool
  | .error e => q e
  | .ok _ => false

theorem exists_of_failsWith {ε α : Type} {x : Except ε α} {q : ε → Bool}
    (h : failsWith q x = true) : ∃ e, x = .error e ∧ q e = true := by
  cases x with
  | error e => exact ⟨e, rfl, h⟩
  | ok a => cases h

theorem forall₂_of_mapM {ε α β : Type} {f : α → Except ε β} {as : List α} {bs : List β}
    (h : as.mapM f = .ok bs) : List.Forall₂ (fun a b => f a = .ok b) as bs := by
  induction as generalizing bs with
  | nil =>
    cases h
    exact .nil
  | cons a as ih =>
    rw [List.mapM_cons] at h
    obtain ⟨b, first, h⟩ := exists_of_bind h
    obtain ⟨bs, rest, h⟩ := exists_of_bind h
    cases h
    exact .cons first (ih rest)

theorem mapM_of_forall₂ {ε α β : Type} {f : α → Except ε β} {as : List α} {bs : List β}
    (h : List.Forall₂ (fun a b => f a = .ok b) as bs) : as.mapM f = .ok bs := by
  induction h with
  | nil => rfl
  | cons first _ ih =>
    rw [List.mapM_cons, first, ih]
    rfl

theorem exists_mapM {ε α β : Type} {f : α → Except ε β} {R : α → β → Prop} {as : List α}
    (each : ∀ a ∈ as, ∃ b, f a = .ok b ∧ R a b) :
    ∃ bs, as.mapM f = .ok bs ∧ List.Forall₂ R as bs := by
  induction as with
  | nil => exact ⟨[], rfl, .nil⟩
  | cons a as ih =>
    obtain ⟨b, first, related⟩ := each a List.mem_cons_self
    obtain ⟨bs, rest, all⟩ := ih fun a member => each a (.tail _ member)
    exact ⟨b :: bs, by rw [List.mapM_cons, first, rest]; rfl, .cons related all⟩

theorem mapM_eq_error {ε α β : Type} {f : α → Except ε β} {as : List α} {a : α} {e : ε}
    (member : a ∈ as) (fails : f a = .error e) : ∃ e', as.mapM f = .error e' := by
  induction as with
  | nil => cases member
  | cons a' as ih =>
    rw [List.mapM_cons]
    cases first : f a' with
    | error e' => exact ⟨e', rfl⟩
    | ok b =>
      rcases List.mem_cons.mp member with rfl | later
      · rw [fails] at first
        cases first
      · obtain ⟨e', rest⟩ := ih later
        exact ⟨e', by rw [rest]; rfl⟩

theorem mapM_congr {ε α β : Type} {f g : α → Except ε β} {as : List α}
    (same : ∀ a ∈ as, f a = g a) : as.mapM f = as.mapM g := by
  induction as with
  | nil => rfl
  | cons a as ih =>
    rw [List.mapM_cons, List.mapM_cons, same a List.mem_cons_self,
      ih fun a member => same a (.tail _ member)]

theorem exists_of_forall₂ {α β : Type} {R : α → β → Prop} {as : List α} {bs : List β}
    (h : List.Forall₂ R as bs) : ∀ b ∈ bs, ∃ a ∈ as, R a b := by
  induction h with
  | nil => exact nofun
  | cons related _ ih =>
    intro b member
    rcases List.mem_cons.mp member with rfl | later
    · exact ⟨_, List.mem_cons_self, related⟩
    · obtain ⟨a, found, related⟩ := ih b later
      exact ⟨a, .tail _ found, related⟩

theorem exists_mem_zip {α β : Type} {R : α → β → Prop} {as : List α} {bs : List β}
    (h : List.Forall₂ R as bs) : ∀ b ∈ bs, ∃ a, (a, b) ∈ as.zip bs := by
  induction h with
  | nil => exact nofun
  | cons _ _ ih =>
    intro b member
    rcases List.mem_cons.mp member with rfl | later
    · exact ⟨_, List.mem_cons_self⟩
    · obtain ⟨a, pair⟩ := ih b later
      exact ⟨a, .tail _ pair⟩

theorem map_eq_of_forall₂ {α β γ : Type} {R : α → β → Prop} {as : List α} {bs : List β}
    {k : α → γ} {l : β → γ} (h : List.Forall₂ R as bs) (same : ∀ a b, R a b → l b = k a) :
    bs.map l = as.map k := by
  induction h with
  | nil => rfl
  | cons related _ ih => rw [List.map_cons, List.map_cons, same _ _ related, ih]

end LoopLang
