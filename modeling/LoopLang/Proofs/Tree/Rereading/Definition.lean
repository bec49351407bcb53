import LoopLang.Proofs.Tree.Rereading.Stmt
import LoopLang.Proofs.Tree.Source

namespace LoopLang

namespace Token

variable {α : Type} (tokens : α → List Token)

def commaSeparated (items : List α) : List Token :=
  items.flatMap fun item => .symbol .comma :: tokens item

theorem separated_cons (item : α) (items : List α) :
    separated tokens (item :: items) = tokens item ++ commaSeparated tokens items := rfl

theorem commaSeparated_cons (item : α) (items : List α) :
    commaSeparated tokens (item :: items) = .symbol .comma :: separated tokens (item :: items) :=
  rfl

theorem commaSeparated_head_ne {mark closing : Symbol} {tail : List Token} (items : List α)
    (other : mark ≠ .comma ∧ mark ≠ closing) :
    (commaSeparated tokens items ++ .symbol closing :: tail).head? ≠ some (.symbol mark) := by
  cases items with
  | nil =>
    rintro ⟨⟩
    exact other.2 rfl
  | cons item items =>
    rintro ⟨⟩
    exact other.1 rfl

end Token

theorem Ty.tokens_head {type : Ty} (written : type.Written) (tail : List Token) :
    (type.tokens ++ tail).head? ≠ some (.symbol .star) := by
  cases type with
  | named name => simp [Ty.tokens]
  | array element => simp [Ty.tokens, Token.between]
  | _ => exact written.elim

namespace Parse

section Lists

variable {fuel : Nat} {first n : NodeId} {tail : List Token}

theorem Stops.commaSeparated {α : Type} (tokens : α → List Token) (items : List α) {level : Nat} :
    Stops level (Token.commaSeparated tokens items ++ .symbol .rightBrace :: tail) := by
  cases items <;> exact .closing (by simp)

theorem further_items {α : Type} {tokens : α → List Token} {unplaced : α → α}
    {list : Parse (List α)} {item item' : α} {items : List α} {closing : Symbol}
    (closes : closing ≠ .comma) (same : unplaced item' = unplaced item)
    (none_left : items = [] → n = first)
    (others : items ≠ [] → list.Reads (Token.separated tokens items ++ .symbol closing :: tail)
      first (Leaving (·.map unplaced = items.map unplaced) (.symbol closing :: tail) n)) :
    (do if ← accept .comma then return item' :: (← list) else return [item'] :
      Parse (List α)).Reads (Token.commaSeparated tokens items ++ .symbol closing :: tail) first
      (Leaving (·.map unplaced = (item :: items).map unplaced) (.symbol closing :: tail) n) := by
  cases items with
  | nil =>
    obtain rfl := none_left rfl
    refine .lacks (by simpa [Token.commaSeparated] using closes) (.done ?_)
    rw [List.map_cons, List.map_cons, same]
  | cons item2 items =>
    rw [Token.commaSeparated_cons, List.cons_append]
    refine .takes ((others (List.cons_ne_nil _ _)).then fun items' sameRest => .done ?_)
    rw [List.map_cons, List.map_cons, same, sameRest]

theorem memberList_restored {members : List Member}
    (numbered : Numbered first (members.flatMap Member.ids) n)
    (written : ∀ m ∈ members, m.type.Written) :
    (memberList fuel).Reads
      (Token.separated Member.tokens members ++ .symbol .rightBrace :: tail) first
      (Leaving (·.map Member.unplaced = members.map Member.unplaced)
        (.symbol .rightBrace :: tail) n) := by
  induction members generalizing fuel first with
  | nil =>
    obtain rfl := numbered.of_nil
    cases fuel with
    | zero => exact .tooDeep
    | succ fuel => exact .sees (.done rfl)
  | cons m members ih =>
    obtain ⟨middle, inFirst, inRest⟩ := numbered.split
    obtain ⟨type_written, rest_written⟩ := List.forall_mem_cons.mp written
    cases fuel with
    | zero => exact .tooDeep
    | succ fuel =>
      obtain ⟨name, type, default, position⟩ := m
      rw [memberList, Token.separated_cons, Member.tokens, List.append_assoc, List.cons_append,
        List.cons_append, List.append_assoc]
      refine .misses (by simp) (.here fun start => .expectName (.expect (.type type_written ?_)))
      cases default with
      | none =>
        obtain rfl := inFirst.of_nil
        refine .lacks (Token.commaSeparated_head_ne Member.tokens members (by decide)) ?_
        rw [pure_bind]
        refine further_items (by decide) rfl (fun nil => ?_) fun _ => ih inRest rest_written
        subst nil
        exact inRest.of_nil
      | some value =>
        refine .takes ?_
        refine (value_restored inFirst (.commaSeparated Member.tokens members)).map_then ?_
        intro value' same
        refine further_items (by decide) ?_ (fun nil => ?_) fun _ => ih inRest rest_written
        · rw [Member.unplaced, Member.unplaced, Option.map_some, Option.map_some, same]
        · subst nil
          exact inRest.of_nil

theorem entryList_restored {entries : List String} :
    (entryList fuel).Reads
      (Token.separated (fun entry => [.name entry]) entries ++ .symbol .rightBrace :: tail) n
      (Leaving (·.map id = entries.map id) (.symbol .rightBrace :: tail) n) := by
  induction entries generalizing fuel with
  | nil =>
    cases fuel with
    | zero => exact .tooDeep
    | succ fuel => exact .sees (.done rfl)
  | cons entry entries ih =>
    cases fuel with
    | zero => exact .tooDeep
    | succ fuel =>
      refine .misses (by simp [Token.separated]) (.expectName ?_)
      exact further_items (by decide) rfl (fun _ => rfl) fun _ => ih

theorem paramList_restored {params : List Param} (isAny : params ≠ [])
    (written : ∀ param ∈ params, param.type.Written) :
    (paramList fuel).Reads
      (Token.separated Param.tokens params ++ .symbol .rightParen :: tail) n
      (Leaving (·.map Param.unplaced = params.map Param.unplaced)
        (.symbol .rightParen :: tail) n) := by
  induction params generalizing fuel with
  | nil => exact absurd rfl isAny
  | cons param params ih =>
    obtain ⟨type_written, rest_written⟩ := List.forall_mem_cons.mp written
    cases fuel with
    | zero => exact .tooDeep
    | succ fuel =>
      obtain ⟨name, type, byReference, position⟩ := param
      rw [paramList, Token.separated_cons, Param.tokens, List.cons_append, List.cons_append,
        List.cons_append, List.cons_append, List.append_assoc, List.append_assoc]
      refine .here fun start => .expectName (.expect ?_)
      have others (isAny : params ≠ []) : (paramList fuel).Reads _ n _ := ih isAny rest_written
      cases byReference with
      | true =>
        exact .accept (.type type_written (further_items (by decide) rfl (fun _ => rfl) others))
      | false =>
        exact .notAccept (Ty.tokens_head type_written _)
          (.type type_written (further_items (by decide) rfl (fun _ => rfl) others))

end Lists

section Definitions

variable {fuel : Nat} {first n : NodeId} {tail : List Token}

theorem struct_restored {s : Struct} (numbered : Numbered first s.ids n)
    (written : ∀ m ∈ s.members, m.type.Written) :
    (struct fuel).Reads
      (.name s.name :: (Token.between .leftBrace .rightBrace
        (Token.separated Member.tokens s.members) ++ tail)) first
      (Leaving (·.unplaced = s.unplaced) tail n) := by
  rw [Token.between, List.cons_append, List.append_assoc, List.singleton_append]
  refine .here fun start => .expectName (.expect ?_)
  refine (memberList_restored numbered written).then fun members same => .expect (.done ?_)
  rw [Struct.unplaced, Struct.unplaced, same]

theorem enum_restored {e : Enum} :
    (enum fuel).Reads
      (.name e.name :: (Token.between .leftBrace .rightBrace
        (Token.separated (fun entry => [.name entry]) e.entries) ++ tail)) n
      (Leaving (·.unplaced = e.unplaced) tail n) := by
  rw [Token.between, List.cons_append, List.append_assoc, List.singleton_append]
  refine .here fun start => .expectName (.expect ?_)
  refine entryList_restored.then fun entries same => .expect (.done ?_)
  rw [List.map_id, List.map_id] at same
  rw [Enum.unplaced, Enum.unplaced, same]

theorem function_after_params {f : Function} {start : Position} {params : List Param}
    (numbered : Numbered first (Stmt.idsOf f.body) n) (written : f.Written)
    (same : params.map Param.unplaced = f.params.map Param.unplaced) :
    (do
      expect .rightParen "')' after parameters"
      let returns ← if ← accept .colon then some <$> type else pure none
      let body ← block fuel
      return (⟨f.name, params, returns, body, start⟩ : Function)).Reads
      (.symbol .rightParen :: (Function.tokensOfResult f.returns ++
        (Token.between .leftBrace .rightBrace (Stmt.tokensOf f.body) ++ tail))) first
      (Leaving (·.unplaced = f.unplaced) tail n) := by
  obtain ⟨_, returns_written, body_written⟩ := written
  have reads_body : (block fuel).Reads
      (Token.between .leftBrace .rightBrace (Stmt.tokensOf f.body) ++ tail) first _ :=
    block_restored (body_restored f.body) numbered body_written
  have rebuilt {body : List Stmt} (sameBody : Stmt.unplacedAll body = Stmt.unplacedAll f.body) :
      (Function.mk f.name params f.returns body start).unplaced = f.unplaced := by
    rw [Function.unplaced, Function.unplaced, same, sameBody]
  refine .expect ?_
  cases returns : f.returns with
  | none =>
    rw [returns] at rebuilt
    refine .lacks (by simp [Function.tokensOfResult, Token.between]) ?_
    rw [pure_bind]
    exact reads_body.then fun body sameBody => .done (rebuilt sameBody)
  | some type =>
    rw [returns] at rebuilt
    refine .takes ?_
    rw [map_eq_pure_bind, bind_assoc]
    refine .type (returns_written type returns) ?_
    rw [pure_bind]
    exact reads_body.then fun body sameBody => .done (rebuilt sameBody)

theorem function_restored {f : Function} (numbered : Numbered first (Stmt.idsOf f.body) n)
    (written : f.Written) :
    (function fuel).Reads
      (.name f.name ::
        (Token.between .leftParen .rightParen (Token.separated Param.tokens f.params) ++
          (Function.tokensOfResult f.returns ++
          Token.between .leftBrace .rightBrace (Stmt.tokensOf f.body)) ++ tail)) first
      (Leaving (·.unplaced = f.unplaced) tail n) := by
  rw [Token.between, List.cons_append, List.cons_append, List.append_assoc, List.append_assoc,
    List.append_assoc, List.singleton_append]
  refine .here fun start => .expectName (.expect ?_)
  cases params : f.params with
  | nil =>
    refine .sees ?_
    rw [pure_bind]
    refine function_after_params numbered written ?_
    rw [params]
  | cons param params' =>
    refine .misses (by simp [Token.separated, Param.tokens]) ?_
    rw [← params]
    have params_written := written.1
    refine (paramList_restored (by simp [params]) params_written).then fun read same => ?_
    exact function_after_params numbered written same

end Definitions
end Parse

theorem Definition.parse_restored {d : Definition} {fuel : Nat} {first n : NodeId}
    {tail : List Token} (numbered : Parse.Numbered first d.ids n) (written : d.Written) :
    (Definition.parse fuel).Reads (d.tokens ++ tail) first
      (Parse.Leaving (·.unplaced = d.unplaced) tail n) := by
  cases d with
  | struct s =>
    refine .peek (.advance ?_)
    refine (Parse.struct_restored numbered written).then fun s' same => .done ?_
    exact congrArg Definition.struct same
  | enum e =>
    obtain rfl := numbered.of_nil
    refine .peek (.advance ?_)
    refine Parse.enum_restored.then fun e' same => .done ?_
    exact congrArg Definition.enum same
  | function f =>
    refine .peek (.advance ?_)
    refine (Parse.function_restored numbered written).then fun f' same => .done ?_
    exact congrArg Definition.function same

end LoopLang
