import Mathlib.Data.List.Forall2
import Mathlib.Data.Option.Defs
import LoopLang.Scopes

namespace LoopLang

variable {α β γ : Type} {R S : α → β → Prop}

/-- Frames that bind the same names in the same order, to things that are related. -/
def Frame.Rel (R : α → β → Prop) : Frame α → Frame β → Prop :=
  List.Forall₂ fun a b => a.1 = b.1 ∧ R a.2 b.2

theorem Frame.Rel.lookup {f : Frame α} {g : Frame β} (h : Frame.Rel R f g) (name : String) :
    Option.Rel R (f.lookup name) (g.lookup name) := by
  induction h with
  | nil => exact .none
  | @cons a b f g related _ ih =>
    obtain ⟨other, x⟩ := a
    obtain ⟨_, y⟩ := b
    obtain ⟨rfl, related⟩ := related
    simp only [List.lookup_cons]
    cases name == other with
    | true => exact .some related
    | false => exact ih

theorem Frame.Rel.findSome? {fs : List (Frame α)} {gs : List (Frame β)}
    (h : List.Forall₂ (Frame.Rel R) fs gs) (name : String) :
    Option.Rel R (fs.findSome? (·.lookup name)) (gs.findSome? (·.lookup name)) := by
  induction h with
  | nil => exact .none
  | @cons f g fs gs frame _ ih =>
    have here := frame.lookup name
    rw [List.findSome?_cons, List.findSome?_cons]
    generalize f.lookup name = x at here
    generalize g.lookup name = y at here
    cases here with
    | some related => exact .some related
    | none => exact ih

namespace Scopes

structure Rel (R : α → β → Prop) (s : Scopes α) (t : Scopes β) : Prop where
  inner : Frame.Rel R s.inner t.inner
  outer : List.Forall₂ (Frame.Rel R) s.outer t.outer

namespace Rel

variable {s : Scopes α} {t : Scopes β}

theorem mono (h : Rel R s t) (imp : ∀ a b, R a b → S a b) : Rel S s t := by
  have frame : ∀ f g, Frame.Rel R f g → Frame.Rel S f g :=
    fun f g related => related.imp fun a b both => ⟨both.1, imp a.2 b.2 both.2⟩
  exact ⟨frame s.inner t.inner h.inner, h.outer.imp frame⟩

theorem empty : Rel R Scopes.empty Scopes.empty := ⟨.nil, .nil⟩

theorem push (h : Rel R s t) : Rel R s.push t.push := ⟨.nil, .cons h.inner h.outer⟩

theorem pop (h : Rel R s t) : Rel R s.pop t.pop := by
  obtain ⟨inner, frames⟩ := s
  obtain ⟨inner', frames'⟩ := t
  rcases h with ⟨same, outer⟩
  cases outer with
  | nil => exact ⟨same, .nil⟩
  | cons frame outer => exact ⟨frame, outer⟩

theorem clear (h : Rel R s t) : Rel R s.clear t.clear := ⟨.nil, h.outer⟩

theorem get? (h : Rel R s t) (name : String) : Option.Rel R (s.get? name) (t.get? name) :=
  Frame.Rel.findSome? (.cons h.inner h.outer) name

theorem define? (h : Rel R s t) {a : α} {b : β} (related : R a b) (name : String) :
    Option.Rel (Rel R) (s.define? name a) (t.define? name b) := by
  unfold Scopes.define?
  have here := h.inner.lookup name
  generalize s.inner.lookup name = x at here
  generalize t.inner.lookup name = y at here
  cases here with
  | some _ => exact .none
  | none => exact .some ⟨.cons ⟨rfl, related⟩ h.inner, h.outer⟩

theorem foldl {entries : List (String × α)} {others : List (String × β)}
    (all : Frame.Rel R entries others) (h : Rel R s t) :
    Rel R (entries.foldl (fun s entry => (s.define? entry.1 entry.2).getD s) s)
      (others.foldl (fun t entry => (t.define? entry.1 entry.2).getD t) t) := by
  induction all generalizing s t with
  | nil => exact h
  | @cons entry other _ _ pair _ ih =>
    obtain ⟨name, a⟩ := entry
    obtain ⟨_, b⟩ := other
    obtain ⟨rfl, related⟩ := pair
    rw [List.foldl_cons, List.foldl_cons]
    refine ih ?_
    have defined := h.define? related name
    dsimp only
    generalize s.define? name a = x at defined ⊢
    generalize t.define? name b = y at defined ⊢
    cases defined with
    | some next => exact next
    | none => exact h

end Rel
end Scopes
end LoopLang
