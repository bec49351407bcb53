import Mathlib.Data.List.DropRight
import LoopLang.Scopes

namespace LoopLang
namespace Scopes

variable {α : Type}

/-- What is done with scopes: a block begins or ends, the names of the innermost block are forgotten
    or one more is bound, unless it is bound there, or something is looked up. -/
inductive Action (α : Type) where
  | push
  | pop
  | clear
  | define (name : String) (binding : α)
  | get (name : String)
  | contains (name : String)
  | depth
  deriving Repr, DecidableEq

namespace Action

def run : Action α → Scopes α → Scopes α
  | push, s => s.push
  | pop, s => s.pop
  | clear, s => s.clear
  | define name binding, s => (s.define? name binding).getD s
  | get _, s | contains _, s | depth, s => s

def runAll (as : List (Action α)) (s : Scopes α) : Scopes α := as.foldl (fun s a => a.run s) s

/-- Every block that begins ends, and none ends that has not begun. -/
inductive Balanced : List (Action α) → Prop
  | nil : Balanced []
  | step {a as} : a ≠ .push → a ≠ .pop → Balanced as → Balanced (a :: as)
  | block {as bs} : Balanced as → Balanced bs → Balanced (.push :: as ++ .pop :: bs)

def isClear : Action α → Bool
  | clear => true
  | _ => false

def binds? (name : String) : Action α → Option α
  | define other binding => if name == other then some binding else none
  | _ => none

/-- What a block binds a name to in which these things were done: the first that it was to be bound
    to since the names of the block were last forgotten. -/
def bound? (block : List (Action α)) (name : String) : Option α :=
  (block.rtakeWhile (!·.isClear)).findSome? (binds? name)

/-- The open blocks after one action more, each as what was done right in it, the innermost one
    first. What comes after the end of them all is passed over. -/
def opened : List (List (Action α)) → Action α → List (List (Action α))
  | [], _ => []
  | block :: outer, .push => [] :: block :: outer
  | _ :: outer, .pop => outer
  | block :: outer, a => (block ++ [a]) :: outer

/-- The blocks that are open in a block in which these things were done, with the block itself. -/
def openBlocks (as : List (Action α)) : List (List (Action α)) := as.foldl opened [[]]

/-- What a name means in a block in which these things were done, if it meant `before` outside: what
    the innermost open block binds it to that binds it at all. -/
def meaning (as : List (Action α)) (name : String) (before : Option α) : Option α :=
  ((openBlocks as).findSome? (bound? · name)).or before

/-- How many blocks are open after an action. The outermost one does not end. -/
def level : Action α → Nat → Nat
  | push, n => n + 1
  | pop, n => max 1 (n - 1)
  | _, n => n

def onFrame : Frame α → Action α → Frame α
  | _, .clear => []
  | frame, .define name binding =>
    if (frame.lookup name).isSome then frame else (name, binding) :: frame
  | frame, _ => frame

def frameOf (block : List (Action α)) : Frame α := block.foldl onFrame []

theorem frameOf_append (block : List (Action α)) (a : Action α) :
    frameOf (block ++ [a]) = onFrame (frameOf block) a := List.foldl_append

theorem bound?_append (block : List (Action α)) (a : Action α) (name : String) :
    bound? (block ++ [a]) name =
      if a.isClear then none else (bound? block name).or (binds? name a) := by
  rw [bound?, List.rtakeWhile_concat]
  cases a.isClear with
  | true => rfl
  | false =>
    rw [Bool.not_false, if_pos rfl, if_neg Bool.false_ne_true, List.findSome?_append, bound?,
      List.findSome?_singleton]

theorem lookup_frameOf (block : List (Action α)) (name : String) :
    (frameOf block).lookup name = bound? block name := by
  induction block using List.reverseRecOn with
  | nil => rfl
  | append_singleton block a ih =>
    rw [frameOf_append, bound?_append, ← ih]
    cases a with
    | clear => rfl
    | define other binding =>
      change (if ((frameOf block).lookup other).isSome then frameOf block
          else (other, binding) :: frameOf block).lookup name =
        ((frameOf block).lookup name).or (if name == other then some binding else none)
      by_cases same : name = other
      · subst same
        rw [if_pos (beq_self_eq_true name)]
        -- The first binding stays: one after it is refused.
        cases found : (frameOf block).lookup name with
        | none =>
          rw [Option.isSome_none, if_neg Bool.false_ne_true, List.lookup_cons, beq_self_eq_true]
          rfl
        | some first =>
          rw [Option.isSome_some, if_pos rfl, found]
          rfl
      · have apart : (name == other) = false := beq_false_of_ne same
        rw [apart, if_neg Bool.false_ne_true, Option.or_none]
        split
        · rfl
        · rw [List.lookup_cons, apart]
    | push | pop | get | contains | depth => exact Option.or_none.symm

end Action

open Scopes.Action (runAll Balanced opened openBlocks bound? meaning frameOf onFrame)

variable {a : Action α} {as : List (Action α)} {blocks : List (List (Action α))}

def inBlocks (s : Scopes α) : List (List (Action α)) → Scopes α
  | [] => s
  | block :: outer => ⟨frameOf block, (inBlocks s outer).frames⟩

theorem frames_inBlocks (s : Scopes α) (blocks : List (List (Action α))) :
    (inBlocks s blocks).frames = blocks.map frameOf ++ s.frames := by
  induction blocks with
  | nil => rfl
  | cons block outer ih => exact congrArg (frameOf block :: ·) ih

theorem run_inner (push : a ≠ .push) (pop : a ≠ .pop) (frame : Frame α) (frames : List (Frame α)) :
    a.run ⟨frame, frames⟩ = ⟨onFrame frame a, frames⟩ := by
  cases a with
  | push => exact absurd rfl push
  | pop => exact absurd rfl pop
  | define name binding =>
    rw [Action.run, define?, onFrame]
    split <;> rfl
  | _ => rfl

theorem run_inBlocks (s : Scopes α) (block : List (Action α)) (outer : List (List (Action α)))
    (a : Action α) :
    a.run (inBlocks s (block :: outer)) = inBlocks s (opened (block :: outer) a) := by
  have own (push : a ≠ .push) (pop : a ≠ .pop) :
      a.run (inBlocks s (block :: outer)) = inBlocks s ((block ++ [a]) :: outer) := by
    rw [inBlocks, inBlocks, Action.frameOf_append]
    exact run_inner push pop _ _
  cases a with
  | push => rfl
  | pop => rfl
  | clear | define | get | contains | depth => exact own nofun nofun

theorem foldl_opened_nil (as : List (Action α)) : as.foldl opened [] = [] := by
  induction as with
  | nil => rfl
  | cons a as ih => exact ih

theorem runAll_inBlocks (some_open : as.foldl opened blocks ≠ []) (s : Scopes α) :
    runAll as (inBlocks s blocks) = inBlocks s (as.foldl opened blocks) := by
  induction as generalizing blocks with
  | nil => rfl
  | cons a as ih =>
    cases blocks with
    | nil => exact absurd (foldl_opened_nil _) some_open
    | cons block outer =>
      have rest := ih some_open
      rw [← run_inBlocks] at rest
      exact rest

/-- Blocks that begin and end add to no block but the one that they are in. -/
theorem foldl_opened_of_balanced (balanced : Balanced as) (block : List (Action α))
    (outer : List (List (Action α))) :
    ∃ more, as.foldl opened (block :: outer) = (block ++ more) :: outer := by
  induction balanced generalizing block outer with
  | nil => exact ⟨[], by rw [List.append_nil]; rfl⟩
  | @step a as push pop _ ih =>
    obtain ⟨more, same⟩ := ih (block ++ [a]) outer
    refine ⟨a :: more, ?_⟩
    rw [List.append_cons, ← same]
    cases a with
    | push => exact absurd rfl push
    | pop => exact absurd rfl pop
    | _ => rfl
  | @block as bs _ _ ih ih' =>
    obtain ⟨inside, same⟩ := ih [] (block :: outer)
    -- What was done in the inner block is forgotten at its end.
    obtain ⟨more, same'⟩ := ih' block outer
    refine ⟨more, ?_⟩
    rw [List.foldl_append, List.foldl_cons, List.foldl_cons, ← same']
    exact congrArg (fun blocks => bs.foldl opened (opened blocks .pop)) same

theorem openBlocks_ne_nil {front back : List (Action α)} (balanced : Balanced (front ++ back)) :
    openBlocks front ≠ [] := by
  intro ended
  obtain ⟨more, same⟩ := foldl_opened_of_balanced balanced [] []
  rw [List.foldl_append] at same
  change back.foldl opened (openBlocks front) = _ at same
  rw [ended, foldl_opened_nil] at same
  cases same

theorem runAll_push {front back : List (Action α)} (balanced : Balanced (front ++ back))
    (s : Scopes α) : runAll (.push :: front) s = inBlocks s (openBlocks front) := by
  have some_open : front.foldl opened [[]] ≠ [] := openBlocks_ne_nil balanced
  exact runAll_inBlocks some_open s

theorem runAll_block (balanced : Balanced as) (s : Scopes α) :
    runAll (.push :: as ++ [.pop]) s = s := by
  have inside := balanced
  rw [← List.append_nil as] at inside
  obtain ⟨more, same⟩ := foldl_opened_of_balanced balanced [] []
  rw [runAll, List.foldl_append]
  change (runAll (.push :: as) s).pop = s
  rw [runAll_push inside s]
  change (inBlocks s (as.foldl opened [[]])).pop = s
  rw [same]
  rfl

theorem get?_inBlocks (s : Scopes α) (blocks : List (List (Action α))) (name : String) :
    (inBlocks s blocks).get? name = (blocks.findSome? (bound? · name)).or (s.get? name) := by
  rw [get?, frames_inBlocks, List.findSome?_append, List.findSome?_map]
  congr 2
  funext block
  exact Action.lookup_frameOf block name

theorem depth_inBlocks (s : Scopes α) (blocks : List (List (Action α))) :
    (inBlocks s blocks).depth = s.depth + blocks.length := by
  rw [depth, frames_inBlocks, List.length_append, List.length_map, Nat.add_comm]
  rfl

theorem define?_eq_none_iff {s : Scopes α} {name : String} {binding : α} :
    s.define? name binding = none ↔ (s.inner.lookup name).isSome := by
  rw [define?]
  split
  · rename_i bound
    exact ⟨fun _ => bound, fun _ => rfl⟩
  · rename_i new
    exact ⟨nofun, fun bound => absurd bound new⟩

theorem run_define (s : Scopes α) (name : String) (binding : α) :
    if (s.inner.lookup name).isSome then
      s.define? name binding = none ∧ (Action.define name binding).run s = s
    else
      s.define? name binding = some ((Action.define name binding).run s) ∧
      ((Action.define name binding).run s).outer = s.outer ∧
      ∀ other, ((Action.define name binding).run s).get? other =
        if other == name then some binding else s.get? other := by
  split
  · rename_i bound
    have refused : s.define? name binding = none := define?_eq_none_iff.mpr bound
    exact ⟨refused, by rw [Action.run, refused]; rfl⟩
  · rename_i new
    have defined : s.define? name binding = some ⟨(name, binding) :: s.inner, s.outer⟩ := if_neg new
    rw [Action.run, defined]
    refine ⟨rfl, rfl, fun other => ?_⟩
    change (((name, binding) :: s.inner) :: s.outer).findSome? (·.lookup other) = _
    rw [List.findSome?_cons, List.lookup_cons]
    cases other == name <;> rfl

theorem depth_run (s : Scopes α) (a : Action α) : (a.run s).depth = a.level s.depth := by
  obtain ⟨inner, outer⟩ := s
  cases a with
  | pop =>
    cases outer with
    | nil => rfl
    | cons frame outer => exact (Nat.max_eq_right (Nat.succ_pos _)).symm
  | define name binding =>
    rw [Action.run, define?]
    split <;> rfl
  | push | clear | get | contains | depth => rfl

theorem depth_runAll (as : List (Action α)) (s : Scopes α) :
    (runAll as s).depth = as.foldl (fun n a => a.level n) s.depth := by
  induction as generalizing s with
  | nil => rfl
  | cons a as ih =>
    rw [List.foldl_cons, ← depth_run]
    exact ih (a.run s)

theorem frames_pops (n : Nat) (s : Scopes α) :
    (runAll (List.replicate n .pop) s).frames = s.frames.drop (min n (s.depth - 1)) := by
  induction n generalizing s with
  | zero => simp [runAll]
  | succ n ih =>
    rw [List.replicate_succ]
    refine (ih s.pop).trans ?_
    obtain ⟨inner, outer⟩ := s
    cases outer with
    | nil => simp [pop, depth, frames]
    | cons frame outer => simp [pop, depth, frames]

structure Bracketed (s : Scopes α) : Prop where
  restores : ∀ as, Balanced as → runAll (.push :: as ++ [.pop]) s = s
  deepens : ∀ front back, Balanced (front ++ back) →
    (runAll (.push :: front) s).depth = s.depth + (openBlocks front).length
  sees : ∀ front back, Balanced (front ++ back) → ∀ name,
    (runAll (.push :: front) s).get? name = meaning front name (s.get? name) ∧
    (runAll (.push :: front) s).contains name = (meaning front name (s.get? name)).isSome
  refuses : ∀ front back, Balanced (front ++ back) →
    ∃ block outer, openBlocks front = block :: outer ∧ ∀ name binding,
      (runAll (.push :: front) s).define? name binding = none ↔ (bound? block name).isSome
  defines : ∀ name binding,
    if (s.inner.lookup name).isSome then
      s.define? name binding = none ∧ (Action.define name binding).run s = s
    else
      s.define? name binding = some ((Action.define name binding).run s) ∧
      ((Action.define name binding).run s).outer = s.outer ∧
      ∀ other, ((Action.define name binding).run s).get? other =
        if other == name then some binding else s.get? other
  counts : ∀ as, (runAll as s).depth = as.foldl (fun n a => a.level n) s.depth ∧
    1 ≤ (runAll as s).depth
  keeps : ∀ n, (runAll (List.replicate n .pop) s).frames = s.frames.drop (min n (s.depth - 1))

/-- Whatever has been done before, blocks bracket what is done in them. -/
theorem blocks_bracketed (s : Scopes α) : s.Bracketed where
  restores as balanced := runAll_block balanced s
  deepens front back balanced := by rw [runAll_push balanced, depth_inBlocks]
  sees front back balanced name := by
    rw [contains, runAll_push balanced, get?_inBlocks]
    exact ⟨rfl, rfl⟩
  refuses front back balanced := by
    obtain ⟨block, outer, blocks⟩ := List.exists_cons_of_ne_nil (openBlocks_ne_nil balanced)
    refine ⟨block, outer, blocks, fun name binding => ?_⟩
    rw [runAll_push balanced, blocks, define?_eq_none_iff, ← Action.lookup_frameOf]
    rfl
  defines := run_define s
  counts as := ⟨depth_runAll as s, depth_pos _⟩
  keeps n := frames_pops n s

def shadowing : List (Action Nat) :=
  [.define "x" 2, .define "x" 3, .push, .define "y" 4, .clear, .get "x"]

theorem shadowing_bracketed : ∃ s : Scopes Nat, s = runAll [.define "x" 1, .define "y" 5] empty ∧
    Balanced (shadowing ++ [.pop]) ∧
    runAll (.push :: (shadowing ++ [.pop]) ++ [.pop]) s = s ∧
    (runAll (.push :: shadowing) s).get? "x" = some 2 ∧
    (runAll (.push :: shadowing) s).get? "y" = some 5 := by
  have inner : Balanced [Action.define "y" 4, .clear, .get "x"] :=
    .step nofun nofun (.step nofun nofun (.step nofun nofun .nil))
  have nested : Balanced (.push :: [.define "y" 4, .clear, .get "x"] ++ .pop :: []) :=
    .block inner .nil
  have balanced : Balanced (shadowing ++ [.pop]) :=
    .step nofun nofun (.step nofun nofun nested)
  have bracketed := blocks_bracketed (runAll [.define "x" 1, .define "y" 5] empty : Scopes Nat)
  refine ⟨_, rfl, balanced, bracketed.restores _ balanced, ?_, ?_⟩
  · rw [(bracketed.sees _ _ balanced _).1]
    decide
  · rw [(bracketed.sees _ _ balanced _).1]
    decide

end Scopes
end LoopLang
