namespace LoopLang

/-- The names of one block with what they are bound to. A name is bound once. -/
abbrev Frame (α : Type) := List (String × α)

/-- The frames of the blocks around a point of a function body: the innermost one, and those
    outside of it from the inside out. There always is an innermost frame. -/
structure Scopes (α : Type) where
  inner : Frame α
  outer : List (Frame α)
  deriving Repr, DecidableEq

namespace Scopes

variable {α : Type}

def empty : Scopes α := ⟨[], []⟩

instance : Inhabited (Scopes α) := ⟨empty⟩

def frames (s : Scopes α) : List (Frame α) := s.inner :: s.outer

def depth (s : Scopes α) : Nat := s.frames.length

def push (s : Scopes α) : Scopes α := ⟨[], s.inner :: s.outer⟩

/-- Leaves the innermost block. The outermost frame stays. -/
def pop (s : Scopes α) : Scopes α :=
  match s.outer with
  | [] => s
  | frame :: outer => ⟨frame, outer⟩

def clear (s : Scopes α) : Scopes α := { s with inner := [] }

/-- Binds a name in the innermost block, unless it is bound there. -/
def define? (s : Scopes α) (name : String) (binding : α) : Option (Scopes α) :=
  if (s.inner.lookup name).isSome then none
  else some { s with inner := (name, binding) :: s.inner }

def get? (s : Scopes α) (name : String) : Option α := s.frames.findSome? (·.lookup name)

def contains (s : Scopes α) (name : String) : Bool := (s.get? name).isSome

@[simp] theorem frames_push (s : Scopes α) : s.push.frames = [] :: s.frames := rfl

@[simp] theorem pop_push (s : Scopes α) : s.push.pop = s := rfl

@[simp] theorem depth_push (s : Scopes α) : s.push.depth = s.depth + 1 := rfl

@[simp] theorem pop_clear_push (s : Scopes α) : s.push.clear.pop = s := rfl

theorem depth_pos (s : Scopes α) : 0 < s.depth := Nat.succ_pos _

theorem get?_push (s : Scopes α) (name : String) : s.push.get? name = s.get? name := by
  simp [get?, List.findSome?]

theorem define?_outer {s t : Scopes α} {name : String} {binding : α}
    (h : s.define? name binding = some t) : t.outer = s.outer := by
  unfold define? at h
  split at h
  · cases h
  · cases h; rfl

end Scopes
end LoopLang
