import Mathlib.Data.List.Nodup
import LoopLang.Proofs.Related
import LoopLang.Proofs.Tree.Nodes
import LoopLang.Proofs.Typing.Rules

namespace LoopLang

namespace Check

def Yields {α : Type} (x : Check α) (c : Context) (post : α → Context → Prop) : Prop :=
  ∀ a c', x c = .ok (a, c') → post a c'

section Rules

variable {α β : Type} {c : Context}

theorem bind_of_ok {x : Check α} {f : α → Check β} {c' : Context} {a : α}
    (h : x c = .ok (a, c')) : (x >>= f) c = f a c' := by
  change (x c >>= fun pair => f pair.1 pair.2) = _
  rw [h]
  rfl

theorem ran_bind {x : Check α} {f : α → Check β} {c' : Context} {b : β}
    (h : (x >>= f) c = .ok (b, c')) : ∃ a c1, x c = .ok (a, c1) ∧ f a c1 = .ok (b, c') := by
  obtain ⟨⟨a, c1⟩, first, rest⟩ := exists_of_bind h
  exact ⟨a, c1, first, rest⟩

theorem Yields.bind {x : Check α} {f : α → Check β} {P : α → Context → Prop}
    {post : β → Context → Prop} (first : x.Yields c P)
    (second : ∀ a c', P a c' → (f a).Yields c' post) : (x >>= f).Yields c post := by
  intro b c' run
  obtain ⟨a, c1, ran, rest⟩ := ran_bind run
  exact second a c1 (first a c1 ran) b c' rest

theorem Yields.mono {x : Check α} {strong weak : α → Context → Prop} (h : x.Yields c strong)
    (imp : ∀ a c', strong a c' → weak a c') : x.Yields c weak :=
  fun a c' run => imp a c' (h a c' run)

theorem Yields.pure {a : α} {post : α → Context → Prop} (h : post a c) :
    (pure a : Check α).Yields c post := by
  intro b c' run
  cases run
  exact h

theorem Yields.fail {position : Position} {cause : CompileCause} {post : α → Context → Prop} :
    (Check.fail position cause : Check α).Yields c post := by
  intro a c' run
  cases run

theorem Yields.failInternally {position : Position} {defect : Defect}
    {post : α → Context → Prop} :
    (Check.failInternally position defect : Check α).Yields c post := by
  intro a c' run
  cases run

theorem Yields.refuse {position : Position} {cause : CompileCause} {f : α → Check β}
    {post : β → Context → Prop} : (Check.fail position cause >>= f).Yields c post :=
  Yields.fail.bind (P := fun _ _ => False) fun _ _ no => no.elim

theorem liftAt_bind {position : Position} {x : Except CompileCause α} {f : α → Check β}
    {post : β → Context → Prop} (rest : ∀ a, x = .ok a → (f a).Yields c post) :
    (liftAt position x >>= f).Yields c post := by
  cases x with
  | error cause => exact Yields.refuse
  | ok a => exact rest a rfl

theorem lift_yields (x : Except Error α) :
    (liftM x : Check α).Yields c fun a c' => c' = c ∧ x = .ok a := by
  intro a c' run
  change (x >>= fun a => (Except.ok (a, c) : Except Error _)) = _ at run
  cases result : x with
  | error e => rw [result] at run; cases run
  | ok found =>
    rw [result] at run
    cases run
    exact ⟨rfl, rfl⟩

theorem record_bind {node : Node} {type : Ty} {f : Unit → Check β} {post : β → Context → Prop}
    (rest : (f ()).Yields { c with types := c.types.insert node.id type } post) :
    (record node type >>= f).Yields c post := by
  intro b c' run
  exact rest b c' run

theorem binding_bind {name : String} {f : Option Binding → Check β} {post : β → Context → Prop}
    (rest : (f (c.scopes.get? name)).Yields c post) : (binding? name >>= f).Yields c post := by
  intro b c' run
  exact rest b c' run

end Rules
end Check

namespace Context

/-- A program's table keeps what has been noted of these nodes. -/
def KeptBy (c : Context) (ids : List NodeId) (p : Program) : Prop :=
  ∀ id ∈ ids, p.types[id]? = c.types[id]?

/-- A check has noted the types of some nodes. If they are kept, it has found out `fact`. -/
structure Finds (c : Context) (p : Program) (ids : List NodeId) (c' : Context) (fact : Prop) :
    Prop where
  others : ∀ id ∉ ids, c'.types[id]? = c.types[id]?
  fact : c'.KeptBy ids p → fact

def Notes (c : Context) (p : Program) (ids : List NodeId) (c' : Context) (fact : Prop) : Prop :=
  c'.scopes = c.scopes ∧ c.Finds p ids c' fact

variable {c c1 c2 : Context} {p : Program} {ids ids1 ids2 : List NodeId} {A B : Prop}

theorem Finds.imp (h : c.Finds p ids c1 A) (imp : A → B) : c.Finds p ids c1 B :=
  ⟨h.others, fun kept => imp (h.fact kept)⟩

theorem Finds.nothing (h : A) (scopes : Scopes Binding) :
    c.Finds p [] { c with scopes } A := ⟨fun _ _ => rfl, fun _ => h⟩

/-- Two checks after each other find out what each of them does, as they note different nodes. -/
theorem Finds.seq (first : c.Finds p ids1 c1 A) (second : c1.Finds p ids2 c2 B)
    (distinct : (ids1 ++ ids2).Nodup) : c.Finds p (ids1 ++ ids2) c2 (A ∧ B) := by
  refine ⟨fun id outside => ?_, fun kept => ⟨first.fact ?_, second.fact ?_⟩⟩
  · rw [List.mem_append, not_or] at outside
    rw [second.others id outside.2, first.others id outside.1]
  · intro id member
    have outside : id ∉ ids2 := fun again => List.disjoint_of_nodup_append distinct member again
    rw [kept id (List.mem_append_left _ member), second.others id outside]
  · exact fun id member => kept id (List.mem_append_right _ member)

theorem Finds.insert (c : Context) (node : Node) (type : Ty) :
    c.Finds p [node.id] { c with types := c.types.insert node.id type }
      (p.types[node.id]? = some type) := by
  refine ⟨fun id outside => ?_, fun kept => ?_⟩
  · rw [List.mem_singleton] at outside
    rw [Std.TreeMap.getElem?_insert]
    simp [Ne.symm outside]
  · rw [kept node.id (List.mem_singleton_self _)]
    exact Std.TreeMap.getElem?_insert_self

theorem Finds.perm (h : c.Finds p ids1 c1 A) (same : ids1.Perm ids2) : c.Finds p ids2 c1 A :=
  ⟨fun id outside => h.others id fun member => outside (same.subset member),
    fun kept => h.fact fun id member => kept id (same.subset member)⟩

theorem Notes.imp (h : c.Notes p ids c1 A) (imp : A → B) : c.Notes p ids c1 B :=
  ⟨h.1, h.2.imp imp⟩

theorem Notes.nothing (h : A) : c.Notes p [] c A := ⟨rfl, .nothing h c.scopes⟩

theorem Notes.seq (first : c.Notes p ids1 c1 A) (second : c1.Notes p ids2 c2 B)
    (distinct : (ids1 ++ ids2).Nodup) : c.Notes p (ids1 ++ ids2) c2 (A ∧ B) :=
  ⟨second.1.trans first.1, first.2.seq second.2 distinct⟩

theorem Notes.perm (h : c.Notes p ids1 c1 A) (same : ids1.Perm ids2) : c.Notes p ids2 c1 A :=
  ⟨h.1, h.2.perm same⟩

theorem Notes.insert (c : Context) (node : Node) (type : Ty) :
    c.Notes p [node.id] { c with types := c.types.insert node.id type }
      (p.types[node.id]? = some type) := ⟨rfl, .insert c node type⟩

theorem Notes.record (h : c.Notes p ids c1 A) (node : Node) (type : Ty)
    (distinct : (ids ++ [node.id]).Nodup) :
    c.Notes p (ids ++ [node.id]) { c1 with types := c1.types.insert node.id type }
      (A ∧ p.types[node.id]? = some type) := h.seq (.insert c1 node type) distinct

end Context
end LoopLang
