import LoopLang.Proofs.Execution.Assignment
import LoopLang.Proofs.Execution.Soundness
import LoopLang.Proofs.Typing.Checked
import LoopLang.Proofs.Value.Operations
import LoopLang.Proofs.Value.Unchanged

namespace LoopLang

namespace Value

def type : Value → Ty
  | int _ t => .int t
  | float _ => .primitive .f32
  | string _ => .string
  | bool _ => .bool
  | char _ => .primitive .char
  | struct name _ => .struct name
  | enum name _ => .enum name
  | array element _ => .array element

theorem HasType.type_eq {g : Globals} {v : Value} {t : Ty} (h : v.HasType g t) : v.type = t := by
  cases h <;> rfl

end Value

namespace Method

variable {g : Globals} {v w : Value} {name : String} {args : List Value} {m : Method}
  {result : Option Value}

inductive Receives : Method → Value → Prop where
  | append {element items} : Receives append (.array element items)
  | arrayLength {element items} : Receives arrayLength (.array element items)
  | stringLength {s} : Receives stringLength (.string s)
  | toLowerCase {s} : Receives toLowerCase (.string s)
  | toUpperCase {s} : Receives toUpperCase (.string s)
  | codePoint {c} : Receives codePoint (.char c)

theorem receives_of_ofValue? (h : ofValue? v name = some m) : m.Receives v := by
  cases v with
  | array element items =>
    change ofArray? name = some m at h
    unfold ofArray? at h
    split at h <;> cases h <;> constructor
  | string s =>
    change ofPrimitive? .string name = some m at h
    unfold ofPrimitive? at h
    split at h <;> cases h <;> first | constructor | contradiction
  | char c =>
    change ofPrimitive? .char name = some m at h
    unfold ofPrimitive? at h
    split at h <;> cases h <;> first | constructor | contradiction
  | _ => cases h

/-- What a method has done when it returns: it gives what its signature declares, and only one that
    may change its receiver does. That is then an array, which has the argument as one more item. -/
structure Honoured (g : Globals) (m : Method) (args : List Value) (v : Value)
    (result : Option Value) (w : Value) : Prop where
  returned : Option.Rel (Value.HasType g) result m.signature.returns
  kept : m.mutates = false → w = v
  grown : m.mutates = true → ∃ element items item, v = .array element items ∧ args = [item] ∧
    w = .array element (items ++ [item.coerce element])
  typed : ∀ t : Ty, t.Specific → v.HasType g t → w.HasType g t

theorem Honoured.looked (looks : m.mutates = false)
    (returned : Option.Rel (Value.HasType g) result m.signature.returns) :
    m.Honoured g args v result v where
  returned := returned
  kept _ := rfl
  grown changes := absurd changes (by rw [looks]; exact Bool.false_ne_true)
  typed _ _ typed := typed

theorem append_honoured {element : Ty} {items : List Value} {position : Position}
    (fit : Fit g (append.signatureOn (.array element)).params args) :
    Answers (append.apply (.array element items) args position) fun (result, w) =>
      append.Honoured g args (.array element items) result w := by
  change Fit g [{ Signature.param .any with type := element }] args at fit
  obtain ⟨item, source, rfl, accepted, item_typed⟩ := fit.single
  refine ⟨.none, nofun, fun _ => ⟨element, items, item, rfl, rfl, rfl⟩, ?_⟩
  intro t specific typed
  cases typed with
  | array items_typed =>
    refine .array fun other member => ?_
    rcases List.mem_append.mp member with old | new
    · exact items_typed other old
    · rw [List.mem_singleton.mp new]
      exact item_typed.coerce specific accepted

theorem call_honoured (lookup : ofValue? v name = some m)
    (fit : Fit g (m.signatureOn v.type).params args) (position : Position) :
    Answers (call name args position v) fun (result, w) => m.Honoured g args v result w := by
  rw [call, lookup]
  cases receives_of_ofValue? lookup with
  | append => exact append_honoured fit
  | arrayLength | stringLength =>
    exact (count_answers _ position).bind fun n counted => .looked rfl (.some counted)
  | toLowerCase | toUpperCase => exact .looked rfl (.some .string)
  | codePoint => exact .looked rfl (.some (.int (fits_codePoint _)))

end Method

namespace Value

variable {g : Globals} {root v : Value} {path : List PathStep} {name : String}
  {args : List Value} {k : Method}

theorem update_honoured (readable : root.read path = .ok v)
    (lookup : Method.ofValue? v name = some k) (fit : Fit g (k.signatureOn v.type).params args)
    (position : Position) :
    Answers (root.update (Method.call name args position) path) fun (result, whole) =>
      ∃ w, k.Honoured g args v result w ∧ (k.mutates = false → whole = root) ∧
        (k.mutates = true → root.write w path = .ok whole) := by
  have honoured := Method.call_honoured lookup fit position
  by_cases within : root.InString path
  · -- A character of a string is no array, so that its methods keep it.
    rw [update_of_inString readable within]
    obtain ⟨c, rfl⟩ := char_of_inString within readable
    cases called : Method.call name args position (.char c) with
    | error fault => rwa [called] at honoured
    | ok pair =>
      rw [called] at honoured
      refine ⟨pair.2, honoured, fun _ => rfl, fun changes => ?_⟩
      obtain ⟨_, _, _, ⟨⟩, _⟩ := honoured.grown changes
  · rw [update_of_place readable within]
    cases called : Method.call name args position v with
    | error fault => rwa [called] at honoured
    | ok pair =>
      rw [called] at honoured
      obtain ⟨result, w⟩ := pair
      obtain ⟨whole, written⟩ : ∃ whole, root.write w path = .ok whole :=
        exists_write_iff.mpr ⟨⟨v, readable⟩, within⟩
      change Answers ((result, ·) <$> root.write w path) _
      rw [written]
      refine ⟨w, honoured, fun looks => ?_, fun _ => written⟩
      rw [honoured.kept looks] at written
      exact write_read readable written

end Value

namespace Program

variable {p : Program} {g : Globals} {fuel : Nat} {position nameAt : Position}
  {root name callee : String} {steps : List Step} {args : List Expr} {cell : CellId}
  {path : List PathStep} {vs : List Value} {m m1 m2 : Machine} {v : Value} {k : Method}
  {b : Builtin}

theorem evalMethod_eq (bound : m.scopes.get? root = some cell)
    (stepped : p.evalSteps fuel steps m = .ok path m1)
    (valued : p.evalList fuel args m1 = .ok vs m2) :
    p.evalMethod (fuel + 1) position root steps name nameAt args m =
      Run.change cell nameAt (fun v => v.update (Method.call name vs nameAt) path) m2 := by
  rw [evalMethod, Run.bind_of_ok (Run.cellOf_of_get? position bound), Run.bind_of_ok stepped,
    Run.bind_of_ok valued]

/-- Once the arguments are there, a call of a method changes no more than the receiver, and that
    only if the method says so and returns. -/
theorem evalMethod_honoured (bound : m.scopes.get? root = some cell)
    (stepped : p.evalSteps fuel steps m = .ok path m1)
    (valued : p.evalList fuel args m1 = .ok vs m2) (free : cell ∉ m2.borrowed)
    (readable : (m2.load cell).read path = .ok v) (lookup : Method.ofValue? v name = some k)
    (fit : Fit g (k.signatureOn v.type).params vs) :
    (∃ fault, fault.Ordinary ∧
      p.evalMethod (fuel + 1) position root steps name nameAt args m = .error (.fault fault) m2) ∨
    ∃ result w m', p.evalMethod (fuel + 1) position root steps name nameAt args m =
        .ok result m' ∧ k.Honoured g vs v result w ∧ (k.mutates = false → m' = m2) ∧
      (k.mutates = true → ∃ whole, (m2.load cell).write w path = .ok whole ∧
        m' = m2.store cell whole) := by
  rw [evalMethod_eq bound stepped valued]
  have updated := Value.update_honoured readable lookup fit nameAt
  cases called : (m2.load cell).update (Method.call name vs nameAt) path with
  | error fault =>
    rw [called] at updated
    exact .inl ⟨fault, updated, Run.change_of_error nameAt free called⟩
  | ok pair =>
    obtain ⟨result, whole⟩ := pair
    rw [called] at updated
    obtain ⟨w, honoured, kept, written⟩ := updated
    refine .inr ⟨result, w, _, Run.change_of_ok nameAt free called, honoured, fun looks => ?_,
      fun changes => ⟨whole, written changes, rfl⟩⟩
    rw [kept looks, Machine.store_load]

theorem evalCall_honoured (free : p.globals.function? callee = none)
    (found : Builtin.ofName? callee = some b) (valued : p.evalList fuel args m = .ok vs m1)
    (fit : Fit g b.signature.params vs) :
    (∃ fault, fault.Ordinary ∧
      p.evalCall (fuel + 1) callee args position m = .error (.fault fault) m1) ∨
    ∃ lines, p.evalCall (fuel + 1) callee args position m = .ok none { m1 with lines } := by
  have answers := b.apply_answers fit position
  rw [evalCall, free]
  dsimp only
  rw [found]
  dsimp only
  rw [Run.bind_of_ok valued]
  cases called : b.apply vs position with
  | error fault =>
    rw [called] at answers
    exact .inl ⟨fault, answers, rfl⟩
  | ok line? =>
    rw [Run.lift_ok_bind]
    cases line? with
    | none => exact .inr ⟨m1.lines, rfl⟩
    | some line => exact .inr ⟨m1.lines.push line, rfl⟩

/-- What is built in does what the checker expects of it: on every receiver of its kind, and on all
    arguments that the checker lets through. -/
structure KeepsSignatures (p : Program) : Prop where
  /-- The checker has nothing but these signatures to go by. -/
  checked : ∀ {root receiver name position c s c' v},
    Check.method root receiver name position c = .ok (s, c') → v.HasType p.globals receiver →
    ∃ k, Method.ofValue? v name = some k ∧ s = k.signatureOn v.type
  called : ∀ {callee b}, p.globals.function? callee = none → Builtin.ofName? callee = some b →
    p.globals.signature? callee = some b.signature
  arguments : ∀ {names params fuel args d m vs m'}, p.Typed → Expr.Match p names params args →
    (∀ param ∈ params, param.byReference = false) → Settled p.globals d m →
    Named p.globals d names m.scopes → p.evalList fuel args m = .ok vs m' →
    Fit p.globals params vs
  method : ∀ {v name k args}, Method.ofValue? v name = some k →
    Fit p.globals (k.signatureOn v.type).params args → ∀ position,
    Answers (Method.call name args position v) fun (result, w) =>
      k.Honoured p.globals args v result w
  receiver : ∀ {root steps name nameAt args fuel position cell path vs m m1 m2 v k},
    m.scopes.get? root = some cell → p.evalSteps fuel steps m = .ok path m1 →
    p.evalList fuel args m1 = .ok vs m2 → cell ∉ m2.borrowed →
    (m2.load cell).read path = .ok v → Method.ofValue? v name = some k →
    Fit p.globals (k.signatureOn v.type).params vs →
    (∃ fault, fault.Ordinary ∧
      p.evalMethod (fuel + 1) position root steps name nameAt args m = .error (.fault fault) m2) ∨
    ∃ result w m', p.evalMethod (fuel + 1) position root steps name nameAt args m =
        .ok result m' ∧ k.Honoured p.globals vs v result w ∧ (k.mutates = false → m' = m2) ∧
      (k.mutates = true → ∃ whole, (m2.load cell).write w path = .ok whole ∧
        m' = m2.store cell whole)
  function : ∀ {callee b fuel args position vs m m'}, p.globals.function? callee = none →
    Builtin.ofName? callee = some b → p.evalList fuel args m = .ok vs m' →
    Fit p.globals b.signature.params vs → b.signature.returns = none ∧
    ((∃ fault, fault.Ordinary ∧
      p.evalCall (fuel + 1) callee args position m = .error (.fault fault) m') ∨
    ∃ lines, p.evalCall (fuel + 1) callee args position m = .ok none { m' with lines })

theorem keeps_signatures (p : Program) : p.KeepsSignatures where
  checked {root receiver name position _ _ _ v} run typed := by
    obtain ⟨_, k, lookup, same, _⟩ := Check.method_yields root receiver name position _ _ run
    rw [Method.ofValue?_eq typed, typed.type_eq]
    exact ⟨k, lookup, same⟩
  called free found := by rw [Globals.signature?, free, found]; rfl
  arguments {_ _ fuel _ _ _ _ _} typed fit byValue stored named run := by
    have safe := (sound typed fuel).evalList fit byValue stored named
    rw [Run.Safe, run] at safe
    obtain ⟨_, _, _, _, vs_fit⟩ := safe
    exact vs_fit
  method lookup fit position := Method.call_honoured lookup fit position
  receiver bound stepped valued free readable lookup fit :=
    evalMethod_honoured bound stepped valued free readable lookup fit
  function free found valued fit := ⟨rfl, evalCall_honoured free found valued fit⟩

def sevenTypes : Program := ⟨Globals.empty, Std.TreeMap.empty.insert 1 (.int .u8)⟩

def oneNumber : Machine := ⟨#[.array (.int .i64) [.int 5 .i64]], ⟨[("xs", 0)], []⟩, 1, #[], []⟩

theorem signatures_kept_seven :
    Method.Honoured Globals.empty .append [.int 7 .u8] (.array (.int .i64) [.int 5 .i64]) none
      (.array (.int .i64) [.int 5 .i64, .int 7 .i64]) ∧
    (∃ result w m', sevenTypes.evalMethod 5 ⟨1, 1⟩ "xs" [] "append" ⟨1, 4⟩
        [.literal ⟨1, ⟨1, 11⟩⟩ (.integer 7)] oneNumber = .ok result m' ∧
      Method.append.Honoured Globals.empty [.int 7 .u8] (.array (.int .i64) [.int 5 .i64])
        result w ∧ (Method.append.mutates = false → m' = oneNumber) ∧
      (Method.append.mutates = true → ∃ whole, (oneNumber.load 0).write w [] = .ok whole ∧
        m' = oneNumber.store 0 whole)) ∧
    ∃ lines, sevenTypes.evalCall 5 "printi" [.literal ⟨1, ⟨1, 8⟩⟩ (.integer 7)] ⟨1, 1⟩ oneNumber =
      .ok none { oneNumber with lines } := by
  have keeps := keeps_signatures sevenTypes
  have item : Value.HasType Globals.empty (.int 7 .u8) (.int .u8) := .int (by decide)
  have accepted : Fit Globals.empty (Method.append.signatureOn (.array (.int .i64))).params
      [.int 7 .u8] := .cons ⟨.int .u8, by decide, item⟩ .nil
  have printed : Fit Globals.empty Builtin.printi.signature.params [.int 7 .u8] :=
    .cons ⟨.int .u8, by decide, item⟩ .nil
  have valued : ∀ position : Position, sevenTypes.evalList 4
      [.literal ⟨1, position⟩ (.integer 7)] oneNumber = .ok [.int 7 .u8] oneNumber := fun _ => rfl
  have readable : (oneNumber.load 0).read [] = .ok (.array (.int .i64) [.int 5 .i64]) := rfl
  have found : Method.ofValue? (.array (.int .i64) [.int 5 .i64]) "append" = some .append := rfl
  refine ⟨keeps.method found accepted ⟨1, 4⟩, ?_, ?_⟩
  · refine Or.resolve_left (keeps.receiver rfl rfl (valued ⟨1, 11⟩) (by decide) readable found
      accepted) ?_
    rintro ⟨fault, _, run⟩
    cases run
  · refine (keeps.function (by decide) (by decide) (valued ⟨1, 8⟩) printed).2.resolve_left ?_
    rintro ⟨fault, _, run⟩
    cases run

end Program
end LoopLang
