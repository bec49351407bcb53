import LoopLang.Execution
import LoopLang.Proofs.Execution.Runs
import LoopLang.Proofs.Typing.Accepted
import LoopLang.Proofs.Value.Defaults

namespace LoopLang

namespace Check

theorem missingFields_eq_ok_iff {g : Globals} {s : Struct} {given : List String}
    {position : Position} {c : Context} : missingFields g s given position c = .ok ((), c) ↔
      ∀ m ∈ s.members, m.name ∈ given ∨ m.default.isSome ∨ g.hasDefault m.type = true := by
  unfold missingFields
  cases lacking : s.members.find? fun m =>
      !given.contains m.name && m.default.isNone && !g.hasDefault m.type with
  | some m =>
    have declared := List.mem_of_find?_eq_some lacking
    have lacks := List.find?_some lacking
    simp only [Bool.and_eq_true, Bool.not_eq_true', Option.isNone_iff_eq_none] at lacks
    obtain ⟨⟨absent, not_given⟩, refused⟩ := lacks
    refine ⟨nofun, fun covered => ?_⟩
    rcases covered m declared with member | some_given | defaults
    · rw [List.contains_iff_mem.mpr member] at absent
      cases absent
    · rw [not_given] at some_given
      cases some_given
    · rw [refused] at defaults
      cases defaults
  | none =>
    refine ⟨fun _ m declared => ?_, fun _ => rfl⟩
    have covered := List.find?_eq_none.mp lacking m declared
    grind

end Check

namespace Program

variable {p : Program} {s : Struct}

theorem keys_evalFields {fuel : Nat} {given : List Field} {fields fields' : List (String × Value)}
    {m m' : Machine} (ran : p.evalFields fuel s fields given m = .ok fields' m') (key : String) :
    key ∈ fields'.map Prod.fst ↔ key ∈ fields.map Prod.fst ∨ key ∈ given.map Field.name := by
  induction given generalizing fuel fields m with
  | nil =>
    cases fuel with
    | zero => cases ran
    | succ fuel =>
      rw [evalFields] at ran
      cases ran
      simp
  | cons field given ih =>
    obtain ⟨name, position, value⟩ := field
    cases fuel with
    | zero => cases ran
    | succ fuel =>
      cases found : s.member? name with
      | none =>
        rw [evalFields, found] at ran
        cases ran
      | some member =>
        rw [evalFields, found] at ran
        obtain ⟨v, m1, _, rest⟩ := Run.exists_of_bind_ok ran
        rw [ih rest, Value.mem_keys_insertField, List.map_cons, List.mem_cons, or_assoc]
        exact or_left_comm

/-- The checker and a run agree about defaults. A type has one if a run makes one of it, and a
struct may be built without some members if a run completes it. -/
structure DefaultsAgree (p : Program) : Prop where
  made_iff : ∀ type position,
    p.globals.hasDefault type = true ↔ ∃ v, p.defaultValue position type = .ok v
  made : ∀ type position v, p.defaultValue position type = .ok v →
    v.HasType p.globals type ∧ v.Initial p.globals type
  built_iff : ∀ name s node given fuel fields m m', p.globals.struct? name = some s →
    p.evalFields fuel s [] given m = .ok fields m' → ∀ c,
    (Check.missingFields p.globals s (given.map Field.name) node.position c = .ok ((), c) ↔
      ∃ v, p.eval (fuel + 1) (.build node name given) m = .ok v m')
  built : ∀ name s node given fuel fields m m', p.globals.struct? name = some s →
    p.evalFields fuel s [] given m = .ok fields m' →
    ∀ v m'', p.eval (fuel + 1) (.build node name given) m = .ok v m'' →
      m'' = m' ∧ ∃ done, v = .struct name done ∧
        (∀ key w, fields.lookup key = some w → done.lookup key = some w) ∧
        ∀ m ∈ s.members, m.name ∉ given.map Field.name →
          ∃ w, done.lookup m.name = some w ∧ w.Begins p.globals m

theorem defaultValue_of_hasDefault (typed : p.Typed) {type : Ty} (position : Position)
    (defaults : p.globals.hasDefault type = true) :
    ∃ v, p.defaultValue position type = .ok v ∧ v.HasType p.globals type ∧
      v.Initial p.globals type :=
  exists_defaultWithin typed defaults

theorem defaultValue_refused {type : Ty} (position : Position)
    (refused : p.globals.hasDefault type = false) :
    ∃ fault, p.defaultValue position type = .error fault :=
  defaultWithin_refused refused

section Building

variable {name : String} {node : Node} {given : List Field} {fuel : Nat}
  {fields : List (String × Value)} {m m' : Machine}

theorem eval_build (lookup : p.globals.struct? name = some s)
    (ran : p.evalFields fuel s [] given m = .ok fields m') :
    p.eval (fuel + 1) (.build node name given) m =
      (Run.lift (p.withDefaults node.position s.members fields) >>= fun done =>
        pure (Value.struct name done)) m' := by
  rw [eval, lookup]
  exact Run.bind_of_ok ran

theorem eval_build_of_covered (typed : p.Typed) (lookup : p.globals.struct? name = some s)
    (ran : p.evalFields fuel s [] given m = .ok fields m')
    (covered : ∀ m ∈ s.members, m.name ∈ given.map Field.name ∨ m.default.isSome ∨
      p.globals.hasDefault m.type = true) :
    ∃ done, p.eval (fuel + 1) (.build node name given) m = .ok (.struct name done) m' ∧
      Completes p.globals s.members fields done := by
  have keys := keys_evalFields ran
  have completed : ∃ done, p.withDefaults node.position s.members fields = .ok done ∧
      Completes p.globals s.members fields done :=
    exists_withDefaults typed lookup (fun _ => id) fun m declared =>
      (covered m declared).imp_left fun member => (keys m.name).mpr (.inr member)
  obtain ⟨done, made, completes⟩ := completed
  refine ⟨done, ?_, completes⟩
  rw [eval_build lookup ran, made]
  rfl

theorem covered_of_eval_build (typed : p.Typed) (lookup : p.globals.struct? name = some s)
    (ran : p.evalFields fuel s [] given m = .ok fields m') {v : Value} {m'' : Machine}
    (built : p.eval (fuel + 1) (.build node name given) m = .ok v m'') :
    ∀ m ∈ s.members, m.name ∈ given.map Field.name ∨ m.default.isSome ∨
      p.globals.hasDefault m.type = true := by
  intro member declared
  by_contra lacks
  simp only [not_or, Bool.not_eq_true, Option.isSome_eq_false_iff,
    Option.isNone_iff_eq_none] at lacks
  obtain ⟨absent, not_given, refused⟩ := lacks
  have keys := keys_evalFields ran member.name
  have fails : ∃ fault, p.withDefaults node.position s.members fields = .error fault := by
    refine withDefaults_refused (Struct.typed_of_struct? typed lookup).distinct (fun _ => id)
      declared ?_ not_given refused
    rw [keys]
    exact fun found => found.elim nofun absent
  obtain ⟨fault, fails⟩ := fails
  rw [eval_build lookup ran, fails] at built
  cases built

end Building

/-- The checker lets a variable have no initial value, and a struct be built without a member,
just where a run makes the value that is missing. -/
theorem defaults_agree {source : String} (compiled : compile source = .ok p) :
    p.DefaultsAgree := by
  have typed := typed_of_compile compiled
  constructor
  case made_iff =>
    intro type position
    cases defaults : p.globals.hasDefault type with
    | true =>
      obtain ⟨v, made, _⟩ := defaultValue_of_hasDefault typed position defaults
      exact ⟨fun _ => ⟨v, made⟩, fun _ => rfl⟩
    | false =>
      obtain ⟨fault, fails⟩ := defaultValue_refused position defaults
      rw [fails]
      exact ⟨nofun, nofun⟩
  case made =>
    intro type position v made
    cases defaults : p.globals.hasDefault type with
    | true =>
      obtain ⟨v', made', built⟩ := defaultValue_of_hasDefault typed position defaults
      rw [made'] at made
      cases made
      exact built
    | false =>
      obtain ⟨fault, fails⟩ := defaultValue_refused position defaults
      rw [fails] at made
      cases made
  case built_iff =>
    intro name s node given fuel fields m m' lookup ran c
    rw [Check.missingFields_eq_ok_iff]
    constructor
    · intro covered
      obtain ⟨done, built, _⟩ := eval_build_of_covered typed lookup ran covered
      exact ⟨_, built⟩
    · intro built
      obtain ⟨v, built⟩ := built
      exact covered_of_eval_build typed lookup ran built
  case built =>
    intro name s node given fuel fields m m' lookup ran v m'' built
    have covered := covered_of_eval_build typed lookup ran built
    obtain ⟨done, built', completes⟩ := eval_build_of_covered typed lookup ran covered
    rw [built] at built'
    cases built'
    refine ⟨rfl, done, rfl, completes.kept, fun member declared absent => ?_⟩
    refine completes.begun member declared (Value.lookup_eq_none_iff.mpr fun present => ?_)
    rw [keys_evalFields ran] at present
    exact present.elim nofun absent

def drawing : String :=
  "enum Color { Red, Blue } struct Point { x: i64 = 3, y: u8 } " ++
  "struct Line { from: Point, to: Point, color: Color = Color.Blue, marks: [Color] } " ++
  "struct Pen { color: Color, line: Line } " ++
  "func main() { l: Line; p: Pen = Pen { color: Color.Red }; }"

set_option maxRecDepth 100000 in
theorem defaults_agree_drawing : ∃ p, compile drawing = .ok p ∧ p.DefaultsAgree ∧
    (∃ v, p.defaultValue ⟨1, 1⟩ (.struct "Line") = .ok v ∧
      v.HasType p.globals (.struct "Line") ∧ v.Initial p.globals (.struct "Line")) ∧
    ¬∃ v, p.defaultValue ⟨1, 1⟩ (.struct "Pen") = .ok v := by
  have asked : (compile drawing).toOption.any fun p =>
      p.globals.hasDefault (.struct "Line") && !p.globals.hasDefault (.struct "Pen") := by
    decide +kernel
  obtain ⟨p, compiled, asked⟩ := exists_of_any asked
  rw [Bool.and_eq_true, Bool.not_eq_true'] at asked
  have agree := defaults_agree compiled
  obtain ⟨v, made⟩ := (agree.made_iff (.struct "Line") ⟨1, 1⟩).mp asked.1
  refine ⟨p, compiled, agree, ⟨v, made, agree.made _ _ v made⟩, fun pen => ?_⟩
  rw [(agree.made_iff (.struct "Pen") ⟨1, 1⟩).mpr pen] at asked
  exact nomatch asked.2

end Program
end LoopLang
