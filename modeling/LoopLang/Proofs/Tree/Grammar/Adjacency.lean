import Mathlib.Data.List.Chain
import LoopLang.Proofs.Tree.Grammar

namespace LoopLang.Grammar

/-- Whether a word can be empty, begin with the second of two marks, and end with the first. -/
structure Edge where
  empty : Bool
  opens : Bool
  closes : Bool
  deriving DecidableEq

namespace Edge

def seq (front back : Edge) : Edge :=
  ⟨front.empty && back.empty, front.opens || front.empty && back.opens,
    back.closes || back.empty && front.closes⟩

def either (left right : Edge) : Edge :=
  ⟨left.empty || right.empty, left.opens || right.opens, left.closes || right.closes⟩

def optional (edge : Edge) : Edge := { edge with empty := true }

end Edge

section Marks

variable (first second : Symbol)

def Apart (ts : List Token) : Prop :=
  ts.IsChain fun t t' => ¬ (t = .symbol first ∧ t' = .symbol second)

instance (ts : List Token) : Decidable (Apart first second ts) :=
  inferInstanceAs (Decidable (List.IsChain _ ts))

structure Edge.Allows (edge : Edge) (ts : List Token) : Prop where
  empty : ts = [] → edge.empty
  opens : ts.head? = some (.symbol second) → edge.opens
  closes : ts.getLast? = some (.symbol first) → edge.closes
  apart : Apart first second ts

variable (edges : Nonterminal → Edge)

def Form.edge : Form → Edge
  | .terminal t => ⟨false, t = .mark second, t = .mark first⟩
  | .defined _ => ⟨false, false, false⟩
  | .rule n => edges n
  | .seq a b => a.edge.seq b.edge
  | .either a b => a.edge.either b.edge
  | .optional a | .many a => a.edge.optional

def Form.keepsApart : Form → Bool
  | .terminal _ | .defined _ | .rule _ => true
  | .seq a b =>
    a.keepsApart && b.keepsApart &&
      !((a.edge first second edges).closes && (b.edge first second edges).opens)
  | .either a b => a.keepsApart && b.keepsApart
  | .optional a => a.keepsApart
  | .many a =>
    a.keepsApart && !((a.edge first second edges).closes && (a.edge first second edges).opens)

end Marks

theorem Terminal.Covers.eq_mark {t : Terminal} {s : Symbol} (h : t.Covers (.symbol s)) :
    t = .mark s := by
  cases t with
  | mark s' => exact congrArg _ h
  | _ => exact h.elim

section Words

variable {first second : Symbol} {edges : Nonterminal → Edge} {front back : Edge}
  {ts ts' : List Token} {names : List (Kind × String)}

theorem Edge.Allows.append (h : front.Allows first second ts) (h' : back.Allows first second ts')
    (apart : (front.closes && back.opens) = false) :
    (front.seq back).Allows first second (ts ++ ts') where
  empty none := by
    obtain ⟨rfl, rfl⟩ := List.append_eq_nil_iff.mp none
    simp [seq, h.empty rfl, h'.empty rfl]
  opens begins := by
    cases ts with
    | nil => simp [seq, h.empty rfl, h'.opens begins]
    | cons t ts => simp [seq, h.opens begins]
  closes ends := by
    rw [List.getLast?_append] at ends
    cases last : ts'.getLast? with
    | none =>
      rw [last] at ends
      simp [seq, h'.empty (List.getLast?_eq_none_iff.mp last), h.closes ends]
    | some t =>
      rw [last] at ends
      simp [seq, h'.closes (last.trans ends)]
  apart := by
    refine List.isChain_append.mpr ⟨h.apart, h'.apart, fun t last t' next both => ?_⟩
    obtain ⟨rfl, rfl⟩ := both
    rw [h.closes last, h'.opens next] at apart
    cases apart

theorem Edge.Allows.left (h : front.Allows first second ts) :
    (front.either back).Allows first second ts :=
  ⟨fun e => by simp [either, h.empty e], fun e => by simp [either, h.opens e],
    fun e => by simp [either, h.closes e], h.apart⟩

theorem Edge.Allows.right (h : back.Allows first second ts) :
    (front.either back).Allows first second ts :=
  ⟨fun e => by simp [either, h.empty e], fun e => by simp [either, h.opens e],
    fun e => by simp [either, h.closes e], h.apart⟩

theorem Edge.Allows.some (h : front.Allows first second ts) :
    front.optional.Allows first second ts := ⟨fun _ => rfl, h.opens, h.closes, h.apart⟩

theorem Edge.Allows.none : front.optional.Allows first second [] :=
  ⟨fun _ => rfl, fun h => (by cases h), fun h => (by cases h), .nil⟩

theorem Form.Means.allowed {form : Form} (keeps : form.keepsApart first second edges)
    (h : form.Means (fun n ts _ => (edges n).Allows first second ts) ts names) :
    (form.edge first second edges).Allows first second ts := by
  induction form generalizing ts names with
  | terminal t =>
    obtain ⟨token, covers, rfl, rfl⟩ := h
    refine ⟨by simp, fun begins => ?_, fun ends => ?_, .singleton _⟩
    · obtain rfl := Option.some.inj begins
      simp [edge, covers.eq_mark]
    · obtain rfl := Option.some.inj ends
      simp [edge, covers.eq_mark]
  | defined kind =>
    obtain ⟨text, rfl, rfl⟩ := h
    exact ⟨by simp, by simp, by simp, .singleton _⟩
  | rule n => exact h
  | seq a b ih ih' =>
    obtain ⟨ts, names, ts', names', front, back, rfl, rfl⟩ := h
    simp only [keepsApart, Bool.and_eq_true, Bool.not_eq_true'] at keeps
    exact (ih keeps.1.1 front).append (ih' keeps.1.2 back) keeps.2
  | either a b ih ih' =>
    simp only [keepsApart, Bool.and_eq_true] at keeps
    rcases h with h | h
    · exact (ih keeps.1 h).left
    · exact (ih' keeps.2 h).right
  | optional a ih =>
    rcases h with ⟨rfl, _⟩ | h
    · exact .none
    · exact (ih keeps h).some
  | many a ih =>
    simp only [keepsApart, Bool.and_eq_true, Bool.not_eq_true'] at keeps
    induction h with
    | nil => exact .none
    | cons one _ others =>
      -- The form is kept apart from itself, as one item may follow another.
      have both := (ih keeps.1 one).append others keeps.2
      refine ⟨fun _ => rfl, fun begins => ?_, fun ends => ?_, both.apart⟩
      · exact (Bool.or_eq_true_iff.mp (both.opens begins)).elim id fun h =>
          (Bool.and_eq_true_iff.mp h).2
      · exact (Bool.or_eq_true_iff.mp (both.closes ends)).elim id id

/-- The marks stand apart in all that the nonterminals derive if the rules keep to the edges. -/
theorem Derives.apart {g : Nonterminal → Form}
    (closed : ∀ n, (g n).keepsApart first second edges ∧
      (g n).edge first second edges = edges n) {n : Nonterminal}
    (h : Derives g (.rule n) ts names) : Apart first second ts := by
  have allowed : (edges n).Allows first second ts := by
    refine h.means (P := fun n ts _ => (edges n).Allows first second ts) fun n ts names own => ?_
    rw [← (closed n).2]
    exact own.allowed (closed n).1
  exact allowed.apart

end Words

def documentedEdges : Nonterminal → Edge
  | .program | .members | .entries | .fields => ⟨true, false, false⟩
  | .args => ⟨true, true, false⟩
  | .expr | .sum | .product | .unary | .primary => ⟨false, true, false⟩
  | _ => ⟨false, false, false⟩

/-- By the grammar of the description no parenthesis stands right after an opening brace. -/
theorem documented_apart {n : Nonterminal} {ts : List Token} {names : List (Kind × String)}
    (h : Derives documented (.rule n) ts names) : Apart .leftBrace .leftParen ts := by
  have closed (n : Nonterminal) : (documented n).keepsApart .leftBrace .leftParen documentedEdges ∧
      (documented n).edge .leftBrace .leftParen documentedEdges = documentedEdges n := by
    cases n <;> decide
  exact h.apart closed

end LoopLang.Grammar
