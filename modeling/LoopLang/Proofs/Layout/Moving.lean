import LoopLang.Proofs.Relabelling.Checking
import LoopLang.Proofs.Relabelling.Laws
import LoopLang.Proofs.Relabelling.Reading
import LoopLang.Proofs.Relabelling.Running

namespace LoopLang

variable (f : Relocation)

namespace Globals

theorem moved_definesType (g : Globals) (name : String) :
    (g.moved f).definesType name = g.definesType name := by
  rw [definesType, moved_struct?, moved_enum?, Option.isSome_map, Option.isSome_map]
  rfl

theorem firstRepeated?_map {α : Type} (key : α → String) (act : α → α)
    (same : ∀ a, key (act a) = key a) (earlier : List String) (as : List α) :
    firstRepeated? key earlier (as.map act) = (firstRepeated? key earlier as).map act := by
  induction as generalizing earlier with
  | nil => rfl
  | cons a as ih =>
    rw [List.map_cons, firstRepeated?, firstRepeated?, same, ih]
    split <;> rfl

theorem add_moved (g : Globals) (d : Definition) :
    (g.moved f).add (d.moved f) = carry (CompileError.moved f) (Globals.moved f) (g.add d) := by
  cases d with
  | function h =>
    simp only [Definition.moved, add, moved_function?, Option.isSome_map, Function.moved]
    split
    · rfl
    · simp [carry, moved, Function.moved]
  | struct s =>
    have repeated :=
      firstRepeated?_map Member.name (Member.moved f) (fun _ => rfl) [] s.members
    simp only [Definition.moved, add, moved_definesType, Struct.moved, repeated]
    split
    · rfl
    · cases firstRepeated? Member.name [] s.members with
      | some m => rfl
      | none => simp [carry, moved, Struct.moved]
  | enum e =>
    simp only [Definition.moved, add, moved_definesType, Enum.moved]
    split
    · rfl
    · cases firstRepeated? id [] e.entries with
      | some entry => rfl
      | none => simp [carry, moved, Enum.moved]

end Globals

namespace Reader

def moved (r : Reader) : Reader := r.within ⟨f, 0, []⟩

@[simp] theorem moved_rest (r : Reader) : (r.moved f).rest = r.rest.map (Lexeme.moved f) :=
  List.append_nil _

end Reader

namespace Definition

theorem parse_moved (fuel : Nat) (r : Reader) :
    parse fuel (r.moved f) =
      carry (ParseError.moved f) (Prod.map (Definition.moved f) (Reader.moved f))
        (parse fuel r) := by
  have labels : Surroundings.labels ⟨f, 0, []⟩ = .ofPlaces f :=
    congrArg (Relabelling.mk f) (funext Nat.zero_add)
  have read := (closes_parse (s := ⟨f, 0, []⟩) ⟨Nat.le_refl fuel, fun _ => rfl⟩).agrees r (.inl rfl)
  rwa [labels, relabelled_ofPlaces] at read

end Definition

namespace Globals

theorem parseOnto_moved (g : Globals) (fuel definitions : Nat) (r : Reader) :
    parseOnto (g.moved f) fuel definitions (r.moved f) =
      carry (Error.moved f) (Globals.moved f) (parseOnto g fuel definitions r) := by
  have ended (r : Reader) : (r.moved f).rest.isEmpty = r.rest.isEmpty := by simp
  induction definitions generalizing g r with
  | zero =>
    rw [parseOnto, parseOnto, ended]
    split <;> rfl
  | succ definitions ih =>
    rw [parseOnto, parseOnto, ended]
    split
    · rfl
    · rw [StateT.run, StateT.run, Definition.parse_moved f fuel r]
      cases Definition.parse fuel r with
      | error e => rfl
      | ok pair =>
        obtain ⟨d, r'⟩ := pair
        simp only [carry, Prod.map]
        rw [add_moved]
        cases g.add d with
        | error e => rfl
        | ok g => exact ih g r'

theorem ofLexemes_moved (l : Lexemes) :
    ofLexemes (l.moved f) = carry (Error.moved f) (Globals.moved f) (ofLexemes l) := by
  have same : (l.moved f).list.length = l.list.length := List.length_map _
  have start : (⟨(l.moved f).list, (l.moved f).finish, 0⟩ : Reader) =
      Reader.moved f ⟨l.list, l.finish, 0⟩ := by
    rw [Reader.moved, Reader.within, List.append_nil]
    rfl
  rw [ofLexemes, ofLexemes, same, start]
  exact parseOnto_moved f empty _ _ ⟨l.list, l.finish, 0⟩

theorem matches_moved (g : Globals) : g.Matches (.ofPlaces f) (g.moved f) where
  function? name := by rw [moved_function?, Function.relabelled_ofPlaces]
  struct? name := by rw [moved_struct?, Struct.relabelled_ofPlaces]
  enum? name := moved_enum? f g name
  count := List.length_map _

end Globals

def Noting.same : Noting (.ofPlaces f) where
  related types types' := types' = types
  insert id type h := congrArg (·.insert id type) h

namespace Check

variable {f}

theorem Follows.eq_carry {α β : Type} {act : α → β} {x : Check α} {y : Check β}
    (h : Follows (.ofPlaces f) (.same f) act x y) (c : Context) :
    y c = carry (Error.moved f) (Prod.map act id) (x c) := by
  have checked := h c c ⟨rfl, rfl⟩
  cases run : x c with
  | error e =>
    rw [run] at checked
    exact checked
  | ok pair =>
    rw [run] at checked
    obtain ⟨d', run', scopes, types⟩ := checked
    have same : d' = pair.2 := by
      cases d'
      cases scopes
      cases types
      rfl
    rw [run', same]
    rfl

theorem functionBody_moved {g g' : Globals} (same : g.Matches (.ofPlaces f) g') (h : Function)
    (types : TypeTable) :
    functionBody g' (h.moved f) types = carry (Error.moved f) id (functionBody g h types) := by
  have checked := functionBody_follows (t := .same f) same h (rfl : types = types)
  rw [Function.relabelled_ofPlaces] at checked
  cases run : functionBody g h types with
  | error e =>
    rw [run] at checked
    exact checked
  | ok found =>
    rw [run] at checked
    obtain ⟨found', run', related⟩ := checked
    rw [run', related]
    rfl

end Check

namespace Program

variable {f}

theorem check_moved (g : Globals) :
    check (g.moved f) = carry (Error.moved f) (Program.moved f) (check g) := by
  have same := g.matches_moved f
  have structs := Check.Follows.mapM (t := .same f) (Struct.follows_resolve same) g.structs
  rw [Struct.relabelled_ofPlaces] at structs
  refine carry_bind (structs.eq_carry ⟨∅, Scopes.empty⟩) fun resolved => ?_
  obtain ⟨structs, c⟩ := resolved
  have cycle := Struct.inItself?_relabelled (r := .ofPlaces f) structs
  rw [Struct.relabelled_ofPlaces] at cycle
  simp only [Prod.map, cycle]
  cases Struct.inItself? structs with
  | some s => rfl
  | none =>
    have heads (h : Function) : (h.moved f).resolve (g.moved f) =
        carry (Error.moved f) (Function.moved f) (h.resolve g) := by
      have resolved := Function.resolve_relabelled same h
      rwa [Function.relabelled_ofPlaces] at resolved
    refine carry_bind (carry_mapM heads g.functions) fun functions => ?_
    refine carry_bind (carry_foldlM (fun types h => ?_) functions c.types) fun types => rfl
    have body := Check.functionBody_moved
      (Globals.matches_moved f { g with structs, functions }) h types
    exact (congrArg (Except.mapError _) body).trans
      (carry_mapError (Error.within_moved f ⟨h.name, h.position⟩) _)

theorem matches_moved (p : Program) : p.Matches (.ofPlaces f) (p.moved f) where
  globals := p.globals.matches_moved f
  types _ := rfl

/-- The outcome of a run and the machine that it leaves are the moved ones. -/
theorem runOn_moved (p : Program) (fuel : Nat) (m : Machine) :
    (p.moved f).runOn fuel (m.moved f) =
      ((p.runOn fuel m).1.moved f, (p.runOn fuel m).2.moved f) := by
  have ran := runOn_relabelled (p.matches_moved (f := f)) fuel m
  rwa [Outcome.relabelled_ofPlaces] at ran

end Program
end LoopLang
