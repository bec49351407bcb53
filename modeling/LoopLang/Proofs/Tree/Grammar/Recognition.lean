import LoopLang.Proofs.Tree.Grammar.Recognition.Stmt

namespace LoopLang.Parse

open Grammar (accepted Form Nonterminal Kind Repeated)

variable {ts : List Token} {names : List (Kind × String)}

theorem memberListing :
    Listing .rightBrace memberList (Form.member.Means Recognized)
      (fun m => [(.part, m.name)]) where
  other := by decide
  zero := rfl
  item := by
    intro fuel ts names n tail post item after goesOn
    obtain ⟨_, _, _, _, ⟨name, rfl, rfl⟩, rest, rfl, rfl⟩ := item
    obtain ⟨_, ⟨_, _, ts, _, ⟨type, written, rfl, rfl⟩, given, rfl, rfl⟩, rfl⟩ := rest.mark_then
    rw [memberList, List.singleton_append, List.cons_append, List.cons_append, List.append_assoc]
    refine .misses (by simp) (.here fun start => .expectName (.expect (.type written ?_)))
    rcases given with ⟨rfl, rfl⟩ | given
    · refine .lacks ?_ ?_
      · rcases after with after | after <;> simp [after]
      · rw [pure_bind]
        exact goesOn _ _ rfl
    · obtain ⟨rfl, us, rfl, reads⟩ := value_recognized given
      refine .takes ?_
      exact (reads (.item (by simp) after)).map_upTo fun e n' _ => goesOn _ n' rfl

theorem members_recognized (h : (accepted .members).Means Recognized ts names) :
    Recognized .members ts names := by
  refine (memberListing.listed (fun item => item) (fun fuel n tail ends => ?_) h).mono
    fun members same => ?_
  · obtain ⟨rest, rfl⟩ := List.head?_eq_some_iff.mp ends
    cases fuel with
    | zero => exact .tooDeep
    | succ fuel =>
      rw [memberList]
      exact .sees (.ended rfl)
  · rw [← same, partNames, List.map_map, List.map_eq_flatMap]
    rfl

theorem entryListing :
    Listing .rightBrace entryList ((Form.defined .part).Means Recognized)
      (fun entry => [(.part, entry)]) where
  other := by decide
  zero := rfl
  item := by
    intro fuel ts names n tail post item after goesOn
    obtain ⟨name, rfl, rfl⟩ := item
    rw [entryList]
    exact .misses (by simp) (.expectName (goesOn name n rfl))

theorem entries_recognized (h : (accepted .entries).Means Recognized ts names) :
    Recognized .entries ts names := by
  refine (entryListing.listed (fun item => item) (fun fuel n tail ends => ?_) h).mono
    fun entries same => ?_
  · obtain ⟨rest, rfl⟩ := List.head?_eq_some_iff.mp ends
    cases fuel with
    | zero => exact .tooDeep
    | succ fuel =>
      rw [entryList]
      exact .sees (.ended rfl)
  · rw [← same, partNames, List.map_eq_flatMap]

theorem param_recognized (h : (accepted .param).Means Recognized ts names) :
    Recognized .param ts names := by
  obtain ⟨name, _, rest, rfl⟩ := h.name_then
  obtain ⟨_, ⟨_, _, _, _, star, ⟨type, written, rfl, rfl⟩, rfl, rfl⟩, rfl⟩ := rest.mark_then
  rcases star with ⟨rfl, rfl⟩ | star
  · exact ⟨⟨name, type, false, .none⟩, written, rfl, rfl⟩
  · obtain ⟨rfl, rfl⟩ := star.mark
    exact ⟨⟨name, type, true, .none⟩, written, rfl, rfl⟩

theorem paramListing : Listing .rightParen paramList (Recognized .param) (fun _ => []) where
  other := by decide
  zero := rfl
  item := by
    intro fuel ts names n tail post item after goesOn
    obtain ⟨⟨name, type, byReference, position⟩, written, rfl, rfl⟩ := item
    rw [paramList, Param.tokens, List.cons_append, List.cons_append, List.append_assoc]
    refine .here fun start => .expectName (.expect ?_)
    cases byReference with
    | true => exact .accept (.type written (goesOn _ n rfl))
    | false => exact .notAccept (Ty.tokens_head written _) (.type written (goesOn _ n rfl))

theorem params_unnamed (h : Form.params.Means Recognized ts names) : names = [] := by
  rcases h with ⟨_, same⟩ | h
  · exact same
  · refine h.separated_unnamed fun param => ?_
    obtain ⟨_, _, _, same⟩ := param
    exact same

theorem params_recognized (h : (Form.separated (.rule .param)).Means Recognized ts names) :
    (∀ tail, (ts ++ tail).head? ≠ some (.symbol .rightParen)) ∧
      Recognizes paramList (·.head? = some (.symbol .rightParen)) anything ts := by
  obtain ⟨ts, _, ts', names', first, rest, rfl, rfl⟩ := h
  refine ⟨?_, ?_⟩
  · obtain ⟨p, _, rfl, _⟩ := first
    simp [Param.tokens]
  · refine (paramListing.separated first (rest.mono fun next => ?_)).mono fun _ _ => trivial
    exact next.mark_then

theorem struct_recognized (h : (accepted .struct).Means Recognized ts names) :
    Recognized .struct ts names := by
  obtain ⟨_, ⟨_, _, _, _, ⟨name, rfl, rfl⟩, braces, rfl, rfl⟩, rfl⟩ := h.word_then
  obtain ⟨inner, reads, rfl⟩ := braces.between
  intro fuel n tail _
  rw [List.cons_append, List.singleton_append, List.cons_append, List.cons_append,
    List.append_assoc]
  refine .peek (.advance ?_)
  refine Reads.upTo (P := fun s => (Definition.struct s).names = _) ?_ fun s n' same => .ended same
  refine .here fun start => .expectName (.expect ?_)
  exact (reads rfl).upTo fun members n' same => .expect (.ended (congrArg _ same))

theorem enum_recognized (h : (accepted .enum).Means Recognized ts names) :
    Recognized .enum ts names := by
  obtain ⟨_, ⟨_, _, _, _, ⟨name, rfl, rfl⟩, braces, rfl, rfl⟩, rfl⟩ := h.word_then
  obtain ⟨inner, reads, rfl⟩ := braces.between
  intro fuel n tail _
  rw [List.cons_append, List.singleton_append, List.cons_append, List.cons_append,
    List.append_assoc]
  refine .peek (.advance ?_)
  refine Reads.upTo (P := fun e => (Definition.enum e).names = _) ?_ fun e n' same => .ended same
  refine .here fun start => .expectName (.expect ?_)
  exact (reads rfl).upTo fun members n' same => .expect (.ended (congrArg _ same))

theorem function_after_params_recognized (name : String)
    (h : (.result >> .rule .block : Form).Means Recognized ts names) :
    names = [] ∧ ∀ {fuel n tail params start},
      (do
        expect .rightParen "')' after parameters"
        let returns ← if ← accept .colon then some <$> type else pure none
        let body ← block fuel
        return (⟨name, params, returns, body, start⟩ : Function)).Reads
        (.symbol .rightParen :: (ts ++ tail)) n (Ending (·.name = name) tail) := by
  obtain ⟨_, _, ts, _, result, ⟨rfl, ⟨rest, rfl⟩, inBlock⟩, rfl, rfl⟩ := h
  rcases result with ⟨rfl, rfl⟩ | result
  · refine ⟨rfl, fun {fuel n tail params start} => .expect (.lacks (by simp) ?_)⟩
    rw [pure_bind]
    exact (inBlock trivial).upTo fun body n' _ => .ended rfl
  · obtain ⟨_, ⟨type, written, rfl, rfl⟩, rfl⟩ := result.mark_then
    refine ⟨rfl, fun {fuel n tail params start} => .expect (.takes ?_)⟩
    rw [map_eq_pure_bind, bind_assoc, List.append_eq, List.append_eq, List.append_assoc]
    refine .type written ?_
    rw [pure_bind]
    exact (inBlock trivial).upTo fun body n' _ => .ended rfl

theorem function_recognized (h : (accepted .function).Means Recognized ts names) :
    Recognized .function ts names := by
  obtain ⟨_, _, _, _, before, ⟨_, _, _, _, ⟨name, rfl, rfl⟩, ⟨_, _, ts, _, params, rest, rfl, rfl⟩,
    rfl, rfl⟩, rfl, rfl⟩ := h
  obtain ⟨inner, inParams, rfl⟩ := params.between
  obtain ⟨rfl, inRest⟩ := function_after_params_recognized name rest
  obtain rfl := params_unnamed inParams
  have reads {fuel n tail} : (function fuel).Reads
      (.name name :: .symbol .leftParen :: (inner ++ .symbol .rightParen :: (ts ++ tail))) n
      (Ending (·.name = name) tail) := by
    refine .here fun start => .expectName (.expect ?_)
    rcases inParams with ⟨rfl, _⟩ | inParams
    · refine .sees ?_
      rw [pure_bind]
      exact inRest
    · obtain ⟨noParen, inList⟩ := params_recognized inParams
      exact .misses (noParen _) ((inList rfl).upTo fun params n' _ => inRest)
  have named {fuel : Nat} {n : NodeId} {tail : List Token} :
      (do return Definition.function (← function fuel) : Parse Definition).Reads
      (.name name :: .symbol .leftParen :: (inner ++ .symbol .rightParen :: (ts ++ tail))) n
      (Ending (·.names = [(.function, name)]) tail) :=
    reads.upTo fun f n' same => .ended (congrArg (fun name => [(Kind.function, name)]) same)
  intro fuel n tail _
  rcases before with ⟨rfl, rfl⟩ | before
  · have now := @named fuel n tail
    simp only [List.nil_append, List.cons_append, List.append_assoc]
    exact .peek now
  · obtain ⟨rfl, rfl⟩ := before.word
    have now := @named fuel n tail
    simp only [List.nil_append, List.cons_append, List.append_assoc]
    exact .peek (.advance now)

theorem recognized (n : Nonterminal) (ts : List Token) (names : List (Kind × String))
    (h : (accepted n).Means Recognized ts names) : Recognized n ts names := by
  cases n with
  | program =>
    refine Repeated.mono (fun definition => ?_) h
    rcases definition with h | h | h <;> exact h
  | struct => exact struct_recognized h
  | members => exact members_recognized h
  | enum => exact enum_recognized h
  | entries => exact entries_recognized h
  | function => exact function_recognized h
  | param => exact param_recognized h
  | type => exact type_recognized h
  | block => exact block_recognized h
  | statement => exact statement_recognized h
  | target => exact target_recognized h
  | invocation => exact invocation_recognized h
  | expr => exact comparison_recognized h
  | sum => exact sum_recognized h
  | product => exact product_recognized h
  | unary => exact unary_recognized h
  | primary => exact primary_recognized h
  | fields => exact fields_recognized h
  | call => exact call_recognized h
  | args => exact args_recognized h
  | access => exact access_recognized h
  | place => exact place_recognized h

end LoopLang.Parse
