import LoopLang.Proofs.Typing.Notes

namespace LoopLang

namespace Method

theorem returns_signatureOn (m : Method) (receiver : Ty) :
    (m.signatureOn receiver).returns = m.signature.returns := by
  cases receiver <;> rfl

end Method

namespace Reached

def Meets (p : Program) (names : Scopes Binding) (path : List Step) (type : Ty)
    (inString : Bool) : Reached → Prop
  | .part start before => ∃ after, inString = (before || after) ∧
      Step.Lead p names start path type after
  | .enum root => ∃ name nameAt e, path = [.member name nameAt] ∧
      p.globals.enum? root = some e ∧ name ∈ e.entries ∧ type = .enum root

end Reached

namespace Check

variable {p : Program} {c : Context}

theorem ofEnumMember_eq_ok {g : Globals} {enum member : String} {type : Ty}
    (h : Ty.ofEnumMember g enum member = .ok type) :
    type = .enum enum ∧ ∃ e, g.enum? enum = some e ∧ member ∈ e.entries := by
  simp only [Ty.ofEnumMember] at h
  split at h
  · rename_i found
    cases h
    rw [Option.any_eq_true] at found
    obtain ⟨e, lookup, entry⟩ := found
    exact ⟨rfl, e, lookup, by simpa using entry⟩
  · cases h

def Rooted (names : Scopes Binding) (name : String) (reached : Reached) : Prop :=
  (∃ b, names.get? name = some b ∧ reached = .part b.type false) ∨
    (names.get? name = none ∧ reached = .enum name)

theorem Rooted.place_typed {names : Scopes Binding} {node : Node} {name : String}
    {path : List Step} {reached : Reached} {type : Ty} {inString : Bool}
    (root : Rooted names name reached) (met : reached.Meets p names path type inString)
    (noted : p.types[node.id]? = some type) : (Expr.place node name path).Typed p names type := by
  rcases root with ⟨b, bound, rfl⟩ | ⟨free, rfl⟩
  · obtain ⟨after, -, lead⟩ := met
    exact .place bound lead noted
  · obtain ⟨entry, entryAt, e, rfl, lookup, member, rfl⟩ := met
    exact .entry free lookup member noted

theorem Rooted.receiver {names : Scopes Binding} {name called : String} {path : List Step}
    {reached : Reached} {receiver : Ty} {inString : Bool} {m : Method}
    (root : Rooted names name reached) (met : reached.Meets p names path receiver inString)
    (lookup : Method.ofTy? receiver called = some m)
    (changes : m.mutates = true → ∃ b, names.get? name = some b ∧ b.mutability ≠ .constant) :
    ∃ b after, names.get? name = some b ∧ Step.Lead p names b.type path receiver after ∧
      (m.mutates = true → b.mutability ≠ .constant) := by
  rcases root with ⟨b, bound, rfl⟩ | ⟨free, rfl⟩
  · obtain ⟨after, -, lead⟩ := met
    refine ⟨b, after, bound, lead, fun mutates => ?_⟩
    obtain ⟨other, found, writable⟩ := changes mutates
    rw [bound] at found
    cases found
    exact writable
  · obtain ⟨entry, entryAt, e, rfl, -, -, rfl⟩ := met
    cases lookup

theorem root_yields (g : Globals) (name : String) (position : Position) :
    (root g name position).Yields c fun reached c' => c' = c ∧
      Rooted c.scopes name reached := by
  apply binding_bind
  split
  · rename_i b bound
    exact Yields.pure ⟨rfl, .inl ⟨b, bound, rfl⟩⟩
  · rename_i free
    split
    · exact Yields.pure ⟨rfl, .inr ⟨free, rfl⟩⟩
    · exact Yields.fail

theorem memberType_yields (type : Ty) (name : String) (position : Position) :
    (memberType p.globals type name position).Yields c fun found c' => c' = c ∧
      ∃ struct s m, type = .struct struct ∧ p.globals.struct? struct = some s ∧
        s.member? name = some m ∧ found = m.type := by
  unfold memberType
  split
  · rename_i struct
    split
    · exact Yields.failInternally
    · rename_i s lookup
      split
      · rename_i m member
        exact Yields.pure ⟨rfl, struct, s, m, rfl, lookup, member, rfl⟩
      · exact Yields.fail
  · exact Yields.fail

theorem receiverMayChange_yields (root method : String) (position : Position) :
    (receiverMayChange root method position).Yields c fun _ c' => c' = c ∧
      ∃ b, c.scopes.get? root = some b ∧ b.mutability ≠ .constant := by
  apply binding_bind
  split
  · exact Yields.failInternally
  · rename_i b bound
    split
    · exact Yields.fail
    · rename_i changes
      exact Yields.pure ⟨rfl, b, bound, changes⟩

theorem method_yields (root : String) (receiver : Ty) (name : String) (position : Position) :
    (method root receiver name position).Yields c fun s c' => c' = c ∧
      ∃ m, Method.ofTy? receiver name = some m ∧ s = m.signatureOn receiver ∧
        (m.mutates = true → ∃ b, c.scopes.get? root = some b ∧ b.mutability ≠ .constant) := by
  have found (m : Method) (lookup : Method.ofTy? receiver name = some m)
      (s : Signature) (same : s = m.signatureOn receiver) :
      (do
        if m.mutates then receiverMayChange root name position
        return s : Check Signature).Yields c fun s c' => c' = c ∧
          ∃ m, Method.ofTy? receiver name = some m ∧ s = m.signatureOn receiver ∧
            (m.mutates = true → ∃ b, c.scopes.get? root = some b ∧ b.mutability ≠ .constant) := by
    split
    · refine (receiverMayChange_yields root name position).bind ?_
      intro _ _ ends
      obtain ⟨rfl, changes⟩ := ends
      exact Yields.pure ⟨rfl, m, lookup, same, fun _ => changes⟩
    · rename_i keeps
      exact Yields.pure ⟨rfl, m, lookup, same, fun changes => absurd changes keeps⟩
  unfold method
  split
  · exact Yields.fail
  · exact Yields.fail
  · exact Yields.failInternally
  · exact Yields.failInternally
  · split
    · exact Yields.fail
    · rename_i m lookup
      exact found m lookup _ rfl
  · split
    · exact Yields.fail
    · rename_i m lookup
      exact found m lookup _ rfl

theorem function_yields (callee : String) (position : Position) :
    (function p.globals callee position).Yields c fun s c' => c' = c ∧
      p.globals.signature? callee = some s := by
  unfold function
  split
  · rename_i s lookup
    exact Yields.pure ⟨rfl, lookup⟩
  · exact Yields.fail

theorem argumentCount_yields (callee : String) (params : List Param) (args : List Expr)
    (position : Position) :
    (argumentCount callee params args position).Yields c fun _ c' => c' = c ∧
      params.length = args.length := by
  unfold argumentCount
  split
  · exact Yields.fail
  · rename_i same
    exact Yields.pure ⟨rfl, not_not.mp same⟩

theorem bareName?_eq_some {e : Expr} {name : String} (h : e.bareName? = some name) :
    ∃ node, e = .place node name [] := by
  unfold Expr.bareName? at h
  split at h
  · cases h; exact ⟨_, rfl⟩
  · cases h

theorem referenceArgument_yields (p : Program) (callee : String) (param : Param) (arg : Expr) :
    (referenceArgument callee param arg).Yields c fun _ c' => c.Notes p arg.ids c'
      (∃ node name, arg = .place node name [] ∧
        c.scopes.get? name = some ⟨param.type, .mutable⟩) := by
  unfold referenceArgument
  split
  · exact Yields.fail
  · rename_i name bare
    obtain ⟨node, rfl⟩ := bareName?_eq_some bare
    apply binding_bind
    split
    · exact Yields.fail
    · rename_i b bound
      split
      · exact Yields.fail
      · rename_i mutable
        split
        · exact Yields.fail
        · rename_i same
          intro _ c' run
          cases run
          refine (Context.Notes.insert c node b.type).imp fun _ => ⟨node, name, rfl, ?_⟩
          rw [bound, ← not_not.mp same, ← not_not.mp mutable]

theorem missingFields_yields (g : Globals) (s : Struct) (given : List String)
    (position : Position) :
    (missingFields g s given position).Yields c fun _ c' => c' = c ∧
      ∀ m ∈ s.members, m.name ∈ given ∨ m.default.isSome ∨ g.hasDefault m.type = true := by
  unfold missingFields
  split
  · exact Yields.fail
  · rename_i complete
    refine Yields.pure ⟨rfl, fun m member => ?_⟩
    have present := List.find?_eq_none.mp complete m member
    grind

theorem recorded_yields {c1 : Context} {ids : List NodeId} {A : Prop} {B : Ty → Prop}
    (h : c.Notes p ids c1 A) (node : Node) (type : Ty) (distinct : (ids ++ [node.id]).Nodup)
    (imp : A → p.types[node.id]? = some type → B type) :
    (record node type >>= fun _ => pure type).Yields c1 fun found c2 =>
      c.Notes p (ids ++ [node.id]) c2 (B found) :=
  record_bind (Yields.pure ((h.record node type distinct).imp fun both => imp both.1 both.2))

theorem operands_bind {left right : Expr} {k : Ty → Ty → Check Ty} {post : Ty → Context → Prop}
    (distinct : (left.ids ++ right.ids).Nodup)
    (first : (expr p.globals left).Yields c fun l c1 =>
      c.Notes p left.ids c1 (left.Typed p c.scopes l))
    (second : ∀ c1 : Context, (expr p.globals right).Yields c1 fun r c2 =>
      c1.Notes p right.ids c2 (right.Typed p c1.scopes r))
    (rest : ∀ l r c2, c.Notes p (left.ids ++ right.ids) c2
      (left.Typed p c.scopes l ∧ right.Typed p c.scopes r) → (k l r).Yields c2 post) :
    (expr p.globals left >>= fun l => expr p.globals right >>= k l).Yields c post := by
  refine first.bind fun l c1 hl => (second c1).bind fun r c2 hr => ?_
  have both := hl.seq hr distinct
  rw [hl.1] at both
  exact rest l r c2 both

mutual

/-- A check of an expression notes the types of its own nodes. If they are kept, the expression
    obeys the rules in the scopes of the check. -/
theorem expr_yields (p : Program) : (e : Expr) → e.ids.Nodup → (c : Context) →
    (expr p.globals e).Yields c fun type c' => c.Notes p e.ids c' (e.Typed p c.scopes type)
  | .literal node value, distinct, c => by
    rw [expr]
    exact liftAt_bind fun type literal => record_bind (Yields.pure
      ((Context.Notes.insert c node type).imp fun noted => .literal literal noted))
  | .place node name path, distinct, c => by
    rw [Expr.ids] at distinct
    rw [expr]
    refine (root_yields p.globals name node.position).bind ?_
    intro reached _ ends
    obtain ⟨rfl, root⟩ := ends
    refine (steps_yields p node.position path distinct.of_append_left reached _).bind ?_
    intro pair c1 meets
    obtain ⟨type, inString⟩ := pair
    exact recorded_yields meets node type distinct fun met noted => root.place_typed met noted
  | .method node name path called calledAt args, distinct, c => by
    rw [Expr.ids] at distinct
    rw [expr]
    refine (root_yields p.globals name node.position).bind ?_
    intro reached _ ends
    obtain ⟨rfl, root⟩ := ends
    refine (steps_yields p node.position path distinct.of_append_left.of_append_left
      reached _).bind ?_
    intro pair c1 meets
    obtain ⟨receiver, inString⟩ := pair
    refine (method_yields name receiver called calledAt).bind ?_
    intro _ _ ends
    obtain ⟨rfl, m, lookup, rfl, changes⟩ := ends
    refine (argumentCount_yields _ _ _ _).bind ?_
    intro _ _ ends
    obtain ⟨rfl, count⟩ := ends
    refine (arguments_yields p called args distinct.of_append_left.of_append_right _ count
      _).bind fun _ c2 fits => ?_
    have both := meets.seq fits distinct.of_append_left
    split
    · exact Yields.fail
    · rename_i type returns
      apply recorded_yields both node type distinct
      intro pair noted
      obtain ⟨met, args_fit⟩ := pair
      rw [meets.1] at args_fit changes
      rw [Method.returns_signatureOn] at returns
      obtain ⟨b, after, bound, lead, writable⟩ := root.receiver met lookup changes
      exact .method bound lead lookup writable args_fit returns noted
  | .call node callee args, distinct, c => by
    rw [Expr.ids] at distinct
    rw [expr]
    refine (function_yields callee node.position).bind ?_
    intro s _ ends
    obtain ⟨rfl, lookup⟩ := ends
    refine (argumentCount_yields _ _ _ _).bind ?_
    intro _ _ ends
    obtain ⟨rfl, count⟩ := ends
    refine (arguments_yields p callee args distinct.of_append_left _ count _).bind
      fun _ c1 fits => ?_
    split
    · exact Yields.fail
    · rename_i type returns
      exact recorded_yields fits node type distinct fun args_fit noted =>
        .call lookup args_fit returns noted
  | .math node op left right, distinct, c => by
    rw [Expr.ids] at distinct
    rw [expr]
    refine operands_bind distinct.of_append_left
      (expr_yields p left distinct.of_append_left.of_append_left c)
      (expr_yields p right distinct.of_append_left.of_append_right) fun l r c2 both => ?_
    split
    · rename_i a b first second
      refine liftAt_bind fun folded fold => liftAt_bind fun type typed =>
        recorded_yields both node type distinct ?_
      intro pair noted
      obtain ⟨left_typed, right_typed⟩ := pair
      have computed : a.fold op b = .ok folded := by
        cases result : a.fold op b with
        | error e => rw [result] at fold; cases fold
        | ok x => rw [result] at fold; cases fold; rfl
      cases folded with
      | none =>
        have unfolded : ∀ a ∈ left.constant?, ∀ b ∈ right.constant?, a.fold op b = .ok none := by
          rw [first, second]
          rintro _ ⟨⟩ _ ⟨⟩
          exact computed
        exact .math left_typed right_typed unfolded typed noted
      | some result => exact .folded left_typed right_typed first second computed typed noted
    · rename_i apart
      have unfolded : ∀ a ∈ left.constant?, ∀ b ∈ right.constant?, a.fold op b = .ok none :=
        fun a first b second => (apart a b first second).elim
      rw [pure_bind]
      exact liftAt_bind fun type typed => recorded_yields both node type distinct
        fun typings noted => .math typings.1 typings.2 unfolded typed noted
  | .compare node op left right, distinct, c => by
    rw [Expr.ids] at distinct
    rw [expr]
    refine operands_bind distinct.of_append_left
      (expr_yields p left distinct.of_append_left.of_append_left c)
      (expr_yields p right distinct.of_append_left.of_append_right) fun l r c2 both => ?_
    exact liftAt_bind fun type typed => recorded_yields both node type distinct
      fun typings noted => .compare typings.1 typings.2 typed noted
  | .unary node op operand, distinct, c => by
    rw [Expr.ids] at distinct
    rw [expr]
    refine (expr_yields p operand distinct.of_append_left c).bind fun t c1 h => ?_
    exact liftAt_bind fun type typed => recorded_yields h node type distinct
      fun operand_typed noted => .unary operand_typed typed noted
  | .build node name given, distinct, c => by
    rw [Expr.ids] at distinct
    rw [expr]
    split
    · exact Yields.fail
    · rename_i s lookup
      refine (fields_yields p s given distinct.of_append_left [] c).bind fun _ c1 fill => ?_
      refine (missingFields_yields _ _ _ _).bind ?_
      intro _ _ ends
      obtain ⟨rfl, complete⟩ := ends
      exact recorded_yields fill node (.struct name) distinct fun filled noted =>
        .build lookup filled complete noted
termination_by structural e => e

theorem steps_yields (p : Program) (position : Position) : (path : List Step) →
    (Step.idsOf path).Nodup → (reached : Reached) → (c : Context) →
    (steps p.globals position reached path).Yields c fun found c' =>
      c.Notes p (Step.idsOf path) c' (reached.Meets p c.scopes path found.1 found.2)
  | [], _, .enum root, c => by
    rw [steps]
    · exact Yields.fail
    · intro name nameAt path same
      cases same
  | .index e :: path, _, .enum root, c => by
    rw [steps]
    · exact Yields.fail
    · intro name nameAt path same
      cases same
  | .member name nameAt :: path, distinct, .enum root, c => by
    rw [Step.idsOf] at distinct
    rw [steps]
    refine liftAt_bind fun type entry => ?_
    obtain ⟨rfl, e, lookup, member⟩ := ofEnumMember_eq_ok entry
    refine (steps_yields p position path distinct (.part (.enum root) false) c).mono ?_
    intro pair c' meets
    obtain ⟨type, inString⟩ := pair
    apply meets.imp
    intro all
    obtain ⟨after, same, lead⟩ := all
    cases lead
    exact ⟨name, nameAt, e, rfl, lookup, member, rfl⟩
  | [], _, .part type inString, c => by
    rw [steps]
    exact Yields.pure (.nothing ⟨false, by simp, .here⟩)
  | .index index :: path, distinct, .part type inString, c => by
    rw [Step.idsOf] at distinct
    rw [steps]
    refine (expr_yields p index distinct.of_append_left c).bind fun t c1 typed => ?_
    by_cases integer : t.int?.isNone = true
    · rw [if_pos integer]
      exact Yields.refuse
    · rw [if_neg integer]
      rw [Bool.not_eq_true, Option.isNone_eq_false_iff] at integer
      split
      · rename_i item picked
        refine (steps_yields p position path distinct.of_append_right _ c1).mono ?_
        intro pair c2 meets
        obtain ⟨found, ends⟩ := pair
        have both := typed.seq meets distinct
        rw [typed.1] at both
        apply both.imp
        intro all
        obtain ⟨index_typed, after, same, lead⟩ := all
        unfold Ty.item? at picked
        split at picked
        · cases picked
          have apart : (Ty.array item == Ty.string) = false :=
            beq_eq_false_iff_ne.mpr fun same => by cases same
          rw [apart, Bool.or_false] at same
          exact ⟨after, same, .item index_typed integer lead⟩
        · cases picked
          cases lead
          exact ⟨true, by simpa [Ty.string] using same, .character index_typed integer⟩
        · cases picked
      · exact Yields.fail
  | .member name nameAt :: path, distinct, .part type inString, c => by
    rw [Step.idsOf] at distinct
    rw [steps]
    refine (memberType_yields type name nameAt).bind ?_
    intro _ _ ends
    obtain ⟨rfl, struct, s, m, rfl, lookup, member, rfl⟩ := ends
    refine (steps_yields p position path distinct _ _).mono ?_
    intro pair c' meets
    obtain ⟨found, ends⟩ := pair
    apply meets.imp
    intro all
    obtain ⟨after, same, lead⟩ := all
    exact ⟨after, same, .member lookup member lead⟩
termination_by structural path => path

theorem arguments_yields (p : Program) (callee : String) : (args : List Expr) →
    (Expr.idsOf args).Nodup → (params : List Param) → params.length = args.length →
    (c : Context) →
    (arguments p.globals callee params args).Yields c fun _ c' =>
      c.Notes p (Expr.idsOf args) c' (Expr.Match p c.scopes params args)
  | [], _, [], _, c => by
    rw [arguments]
    · exact Yields.pure (.nothing .nil)
    · intro param params arg args same
      cases same
  | arg :: args, distinct, param :: params, count, c => by
    rw [Expr.idsOf] at distinct
    have rest := arguments_yields p callee args distinct.of_append_right params
      (Nat.succ.inj count)
    rw [arguments]
    split
    · rename_i byReference
      refine (referenceArgument_yields p callee param arg).bind ?_
      intro _ c1 named
      refine (rest c1).mono fun _ c2 fits => ?_
      have both := named.seq fits distinct
      rw [named.1] at both
      apply both.imp
      intro all
      obtain ⟨⟨node, name, rfl, bound⟩, args_fit⟩ := all
      exact .reference byReference bound args_fit
    · rename_i byValue
      refine (expr_yields p arg distinct.of_append_left c).bind fun type c1 typed => ?_
      split
      · rename_i accepted
        refine (rest c1).mono fun _ c2 fits => ?_
        have both := typed.seq fits distinct
        rw [typed.1] at both
        exact both.imp fun found =>
          .value (Bool.not_eq_true _ ▸ byValue) found.1 accepted found.2
      · exact Yields.refuse
termination_by structural args => args

theorem fields_yields (p : Program) (s : Struct) : (given : List Field) →
    (Field.idsOf given).Nodup → (earlier : List String) → (c : Context) →
    (fields p.globals s earlier given).Yields c fun _ c' =>
      c.Notes p (Field.idsOf given) c' (Field.Fill p c.scopes s earlier given)
  | [], _, earlier, c => by
    rw [fields]
    exact Yields.pure (.nothing .nil)
  | .mk name nameAt value :: given, distinct, earlier, c => by
    rw [Field.idsOf] at distinct
    rw [fields]
    split
    · exact Yields.fail
    · rename_i m member
      split
      · exact Yields.refuse
      · rename_i fresh
        refine (expr_yields p value distinct.of_append_left c).bind fun type c1 typed => ?_
        split
        · rename_i accepted
          refine (fields_yields p s given distinct.of_append_right (name :: earlier) c1).mono
            fun _ c2 filled => ?_
          have both := typed.seq filled distinct
          rw [typed.1] at both
          rw [List.contains_eq_mem, decide_eq_true_eq] at fresh
          exact both.imp fun found => .cons member fresh found.1 accepted found.2
        · exact Yields.refuse
termination_by structural given => given

end

end Check
end LoopLang
