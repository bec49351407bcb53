import LoopLang.Proofs.Token.Respelling
import LoopLang.Proofs.Tree.RoundTrip
import LoopLang.Proofs.Typing.Separate
import LoopLang.Proofs.Value.Exact

namespace LoopLang

namespace IntTy

variable {t s u : IntTy} {v : Int}

/-- The type holds the number. If it is a signed type and the number is not negative, an unsigned
type that is narrower holds the number, too. -/
def BeginsWith (t : IntTy) (v : Int) : Prop :=
  t.fits v = true ∧ (t.isSigned = true → 0 ≤ v →
    ∃ u : IntTy, u.isSigned = false ∧ u.bits < t.bits ∧ u.fits v = true)

theorem isSigned_of_fits (fits : t.fits v = true) (negative : v < 0) : t.isSigned = true := by
  have shape := t.range_shape
  rw [fits_iff] at fits
  by_contra unsigned
  simp only [unsigned, false_and, or_false] at shape
  omega

theorem mem_candidates_iff : u ∈ candidates v ↔ u.isSigned = decide (v < 0) := by
  unfold candidates
  by_cases sign : 0 ≤ v
  · have positive : ¬ v < 0 := by omega
    cases u <;> simp [sign, positive, isSigned]
  · have negative : v < 0 := by omega
    cases u <;> simp [sign, negative, isSigned]

theorem bits_le_of_ofLiteral? (narrowest : ofLiteral? v = some s) (candidate : u ∈ candidates v)
    (fits : u.fits v = true) : s.bits ≤ u.bits := by
  have ascending : (candidates v).Pairwise fun s u => s.bits < u.bits := by
    unfold candidates
    split <;> decide
  obtain ⟨_, before, after, all, refused⟩ := List.find?_eq_some_iff_append.mp narrowest
  rw [all] at ascending candidate
  rcases List.mem_append.mp candidate with earlier | rest
  · have refuses := refused u earlier
    simp [fits] at refuses
  · rcases List.mem_cons.mp rest with same | later
    · rw [same]
    · have apart := (List.pairwise_append.mp ascending).2.1
      exact Nat.le_of_lt (List.rel_of_pairwise_cons apart later)

theorem takes_literal_iff :
    (∃ s, ofLiteral? v = some s ∧ t.accepts s = true) ↔ t.BeginsWith v := by
  constructor
  · rintro ⟨s, narrowest, accepted⟩
    have holds := fits_of_ofLiteral? narrowest
    have candidate := mem_candidates_iff.mp (List.mem_of_find?_eq_some narrowest)
    refine ⟨fits_of_accepts accepted holds, fun signed positive => ?_⟩
    have unsigned : s.isSigned = false := by simpa [Int.not_lt.mpr positive] using candidate
    have narrower : s.bits < t.bits := by simpa [accepts, signed, unsigned] using accepted
    exact ⟨s, unsigned, narrower, holds⟩
  · rintro ⟨fits, narrower⟩
    have typed : ofLiteral? v ≠ none := fun none => ofLiteral?_eq_none_iff.mp none t fits
    obtain ⟨s, narrowest⟩ := Option.ne_none_iff_exists'.mp typed
    have candidate := mem_candidates_iff.mp (List.mem_of_find?_eq_some narrowest)
    refine ⟨s, narrowest, ?_⟩
    by_cases kind : t.isSigned = decide (v < 0)
    · have room := bits_le_of_ofLiteral? narrowest (mem_candidates_iff.mpr kind) fits
      simp [accepts, kind, candidate, room]
    · have positive : ¬ v < 0 := by
        intro negative
        simp [negative, isSigned_of_fits fits negative] at kind
      have signed : t.isSigned = true := by simpa [positive] using kind
      obtain ⟨u, unsigned, below, holds⟩ := narrower signed (Int.not_lt.mp positive)
      have other : u ∈ candidates v := by simp [mem_candidates_iff, unsigned, positive]
      have room := bits_le_of_ofLiteral? narrowest other holds
      have less : s.bits < t.bits := by omega
      simp [accepts, signed, candidate, positive, less]

end IntTy

namespace Check

variable {c : Context} {t : IntTy} {v : Int} {x typeName : String} {isConst : Bool}

theorem expr_literal {g : Globals} {node : Node} {value : Literal} {type : Ty}
    (picked : Ty.ofLiteral value = .ok type) (c : Context) : expr g (.literal node value) c =
      .ok (type, { c with types := c.types.insert node.id type }) := by
  rw [expr, picked]
  rfl

theorem declare_accepts_iff {type : Ty} {mutability : Mutability} {position : Position} :
    (∃ c', declare x type mutability position c = .ok ((), c')) ↔
      c.scopes.inner.lookup x = none := by
  have step (f : Context → Check Unit) : (get >>= f) c = f c c := rfl
  rw [declare, step, Scopes.define?]
  cases c.scopes.inner.lookup x with
  | none => simpa using ⟨_, rfl⟩
  | some b =>
    simp
    intro c' ran
    cases ran

theorem define_accepts_iff (named : Primitive.ofName? typeName = some (.int t)) (b : Body)
    (inLoop : Bool) (node inner : Node) :
    (∃ c', b.stmt inLoop (.define node x (.named typeName) (.literal inner (.integer v)) isConst)
        c = .ok ((), c')) ↔ t.BeginsWith v ∧ c.scopes.inner.lookup x = none := by
  have resolves : b.resolve node.position (.named typeName) c = .ok (.int t, c) := by
    simp only [Body.resolve, Ty.resolve, Ty.ofName, Ty.ofName?, named]
    rfl
  rw [Body.stmt, bind_of_ok resolves, ← IntTy.takes_literal_iff]
  cases narrowest : IntTy.ofLiteral? v with
  | none =>
    have refused : Ty.ofLiteral (.integer v) = .error (.literalOutOfRange v) := by
      rw [Ty.ofLiteral, narrowest]
    rw [expr, refused]
    simp
    intro c' ran
    cases ran
  | some s =>
    have typed : Ty.ofLiteral (.integer v) = .ok (.int s) := by rw [Ty.ofLiteral, narrowest]
    rw [bind_of_ok (expr_literal typed c)]
    by_cases accepted : t.accepts s = true
    · have taken : (Ty.int t).accepts (.int s) = true := accepted
      rw [if_pos taken]
      dsimp only
      rw [bind_of_ok (x := record node (.int t)) rfl, declare_accepts_iff]
      simp [accepted]
    · have refused : ¬ (Ty.int t).accepts (.int s) = true := accepted
      rw [if_neg refused]
      simp [accepted]
      intro c' ran
      cases ran

end Check

namespace Expr

theorem eq_literal_of_unplaced {e : Expr} {node : Node} {value : Literal}
    (h : e.unplaced = .literal node value) : ∃ node', e = .literal node' value := by
  cases e with
  | literal node' value' =>
    rw [unplaced, literal.injEq] at h
    exact ⟨node', by rw [h.2]⟩
  | _ =>
    rw [unplaced] at h
    cases h

end Expr

namespace Stmt

theorem eq_define_of_unplaced {s : Stmt} {node : Node} {x : String} {type : Ty} {value : Expr}
    {isConst : Bool} (h : s.unplaced = .define node x type value isConst) :
    ∃ node' value', s = .define node' x type value' isConst ∧ value'.unplaced = value := by
  cases s with
  | define node' x' type' value' isConst' =>
    rw [unplaced, define.injEq] at h
    obtain ⟨_, rfl, rfl, same, rfl⟩ := h
    exact ⟨node', value', rfl, same⟩
  | choose position first elifs otherwise =>
    obtain ⟨test, body⟩ := first
    cases otherwise <;> cases h
  | _ =>
    rw [unplaced] at h
    cases h

end Stmt

section Main

variable {x typeName : String} {isConst : Bool} {v : Int} {t : IntTy}

def Token.definingMain (x typeName : String) (isConst : Bool) (v : Int) : List Token :=
  let head : List Token :=
    [.keyword .func, .name "main", .symbol .leftParen, .symbol .rightParen, .symbol .leftBrace]
  let const : List Token := if isConst then [.keyword .const] else []
  let declared : List Token := [.name x, .symbol .colon, .name typeName, .symbol .equal]
  let sign : List Token := if v < 0 then [.symbol .minus] else []
  let rest : List Token := [.integer v.natAbs, .symbol .semicolon, .symbol .rightBrace]
  head ++ const ++ declared ++ sign ++ rest

namespace Function

def definingMain (x typeName : String) (isConst : Bool) (v : Int) : Function :=
  ⟨"main", [], none,
    [.define ⟨0, .none⟩ x (.named typeName) (.literal ⟨1, .none⟩ (.integer v)) isConst], .none⟩

theorem tokens_definingMain : (Definition.function (definingMain x typeName isConst v)).tokens =
    Token.definingMain x typeName isConst v := by
  cases isConst <;>
  by_cases negative : v < 0 <;>
  simp [Definition.tokens, definingMain, Token.definingMain, Token.between, Token.separated,
    tokensOfResult, Stmt.tokensOf, Stmt.tokens, Ty.tokens, Expr.tokens, Literal.tokens, negative]

theorem eq_definingMain_of_unplaced {f : Function}
    (same : f.unplaced = definingMain x typeName isConst v) :
    ∃ position node inner, f = ⟨"main", [], none,
      [.define node x (.named typeName) (.literal inner (.integer v)) isConst], position⟩ := by
  obtain ⟨name, params, returns, body, position⟩ := f
  simp only [unplaced, definingMain, mk.injEq, List.map_eq_nil_iff] at same
  obtain ⟨rfl, rfl, rfl, body_same, _⟩ := same
  cases body with
  | nil => cases body_same
  | cons s rest =>
    simp only [Stmt.unplacedAll, List.cons.injEq] at body_same
    obtain ⟨node, value, rfl, literal⟩ := Stmt.eq_define_of_unplaced body_same.1
    obtain ⟨inner, rfl⟩ := Expr.eq_literal_of_unplaced literal
    cases rest with
    | nil => exact ⟨position, node, inner, rfl⟩
    | cons _ _ => cases body_same.2

end Function

theorem Globals.parse_definingMain {source : String} {l : Lexemes}
    (cut : Lexemes.ofSource source = .ok l)
    (spelled : l.tokens = Token.definingMain x typeName isConst v) :
    ∃ f, f.unplaced = .definingMain x typeName isConst v ∧ parse source = .ok ⟨[f], [], []⟩ := by
  have numbered : Parse.Numbered 0
      ([Definition.function (.definingMain x typeName isConst v)].flatMap Definition.ids) 2 :=
    ⟨Nat.zero_le 2, rfl⟩
  have written : ∀ d ∈ [Definition.function (.definingMain x typeName isConst v)],
      d.Written := by
    have plain : (Function.definingMain x typeName isConst v).Written := by
      constructor <;> simp [Function.definingMain, Stmt.typesOf, Stmt.types, Ty.Written]
    simpa [Definition.Written] using plain
  have tokens : l.list.map (·.token) =
      [Definition.function (.definingMain x typeName isConst v)].flatMap Definition.tokens := by
    rw [List.flatMap_singleton, Function.tokens_definingMain]
    exact spelled
  obtain ⟨ds, read, all⟩ : ∃ ds,
      Reader.Spells (10 * (l.list.length + 1)) ⟨l.list, l.finish, 0⟩ ds ∧ ds.map Definition.unplaced =
        [Definition.function (.definingMain x typeName isConst v)].map Definition.unplaced :=
    Reader.spells_again numbered written tokens (by dsimp only; omega)
  obtain ⟨d, rfl, same⟩ := List.map_eq_singleton_iff.mp all
  cases d with
  | struct s => cases same
  | enum e => cases same
  | function f =>
    have few := read.length_le (by dsimp only; omega)
    refine ⟨f, Definition.function.inj same, ?_⟩
    rw [parse, cut]
    exact parseOnto_of_spells read rfl (by dsimp only; omega) few

theorem Function.passes_iff {g : Globals} {f : Function} (none : f.params = []) :
    (∃ types, f.PassesWith g types) ↔
      ∃ c', Check.Body.stmts ⟨g, f⟩ false f.body ⟨∅, Scopes.empty⟩ = .ok ((), c') := by
  unfold PassesWith Check.functionBody
  rw [none]
  constructor
  · rintro ⟨types, ran⟩
    obtain ⟨⟨_, c⟩, body, _⟩ := exists_of_bind ran
    exact ⟨c, body⟩
  · rintro ⟨c', ran⟩
    refine ⟨c'.types, ?_⟩
    change (Check.Body.stmts ⟨g, f⟩ false f.body ⟨∅, Scopes.empty⟩ >>= fun pair =>
      Except.ok pair.2.types) = _
    rw [ran]
    rfl

theorem Program.check_main_iff {f : Function} {count : Nat}
    (head : f.resolve ⟨[f], [], []⟩ = .ok f) (written : Globals.Written ⟨[f], [], []⟩ count) :
    (∃ p, check ⟨[f], [], []⟩ = .ok p) ↔ ∃ types, f.PassesWith ⟨[f], [], []⟩ types := by
  constructor
  · rintro ⟨p, checked⟩
    obtain ⟨structs, _, heads, bodies, enums⟩ := (passes_of_check written checked).1
    have same : p.globals = ⟨[f], [], []⟩ := by
      cases globals : p.globals with
      | mk fs ss es =>
        rw [globals] at structs heads enums
        cases structs
        cases enums
        obtain ⟨_, _, first, rest, rfl⟩ := List.forall₂_cons_left_iff.mp heads
        cases rest
        cases head.symm.trans first
        rfl
    rw [same] at bodies
    exact bodies f (List.mem_singleton_self f)
  · intro passes
    obtain ⟨types, checked⟩ : ∃ types, check ⟨[f], [], []⟩ = .ok ⟨⟨[f], [], []⟩, types⟩ :=
      check_of_passes ⟨.nil, rfl, .cons head .nil, by simpa using passes, rfl⟩
    exact ⟨_, checked⟩

theorem Program.compile_definingMain_iff (named : Primitive.ofName? typeName = some (.int t))
    {source : String} {l : Lexemes} (cut : Lexemes.ofSource source = .ok l)
    (spelled : l.tokens = Token.definingMain x typeName isConst v) :
    (∃ p, compile source = .ok p) ↔ t.BeginsWith v := by
  obtain ⟨f, unplaced, parsed⟩ := Globals.parse_definingMain cut spelled
  obtain ⟨count, written⟩ := Globals.parse_written parsed
  have compiles : compile source = check ⟨[f], [], []⟩ := by
    rw [compile, parsed]
    rfl
  obtain ⟨position, node, inner, rfl⟩ := Function.eq_definingMain_of_unplaced unplaced
  rw [compiles, check_main_iff rfl written, Function.passes_iff rfl, Check.Body.stmts,
    Check.Body.stmts, bind_pure_unit, Check.define_accepts_iff named]
  simp [Scopes.empty]

theorem plain_of_ofName? (named : Primitive.ofName? typeName = some (.int t)) :
    (Token.name typeName).Plain := by
  have known : typeName ∈ ["u8", "u16", "u32", "u64", "i8", "i16", "i32", "i64", "int"] := by
    unfold Primitive.ofName? at named
    split at named <;> simp_all
  simp only [List.mem_cons, List.not_mem_nil, or_false] at known
  rcases known with rfl | rfl | rfl | rfl | rfl | rfl | rfl | rfl | rfl
  all_goals exact ⟨Lexer.isName_of_all rfl rfl, fun word => by cases word <;> decide⟩

theorem exists_source_definingMain (named : Primitive.ofName? typeName = some (.int t))
    (plain : (Token.name x).Plain) (writable : v.natAbs < 2 ^ 127) :
    ∃ source l, Lexemes.ofSource source = .ok l ∧
      l.tokens = Token.definingMain x typeName isConst v := by
  have all : ∀ token ∈ Token.definingMain x typeName isConst v, token.Plain := by
    have main : (Token.name "main").Plain :=
      ⟨Lexer.isName_of_all rfl rfl, fun word => by cases word <;> decide⟩
    have type := plain_of_ofName? named
    have number : (Token.integer v.natAbs).Plain := writable
    have mark (mark : Symbol) : (Token.symbol mark).Plain := trivial
    have word (word : Keyword) : (Token.keyword word).Plain := trivial
    unfold Token.definingMain
    cases isConst <;> by_cases negative : v < 0 <;>
      simp [negative, main, plain, type, number, mark, word]
  obtain ⟨⟨text, spelling⟩, cut⟩ := Lexemes.source_of_spelling all
  obtain ⟨l, cut, tokens⟩ := cut text spelling
  exact ⟨_, l, cut, tokens⟩

end Main

/-- An integer literal can begin a variable just if the type of the variable holds it and, where
that is signed and the literal is not negative, so does an unsigned type that is narrower. This
holds wherever the definition stands in a function, and of every text that consists of it alone;
there are such texts for all literals that can be written. -/
theorem begins_variable_iff {t : IntTy} {typeName : String}
    (named : Primitive.ofName? typeName = some (.int t)) (x : String) (v : Int) (isConst : Bool) :
    (∀ (b : Check.Body) (inLoop : Bool) (c : Context) (node inner : Node),
      (∃ c', b.stmt inLoop
        (.define node x (.named typeName) (.literal inner (.integer v)) isConst) c = .ok ((), c')) ↔
        t.BeginsWith v ∧ c.scopes.inner.lookup x = none) ∧
    (∀ source l, Lexemes.ofSource source = .ok l →
      l.tokens = Token.definingMain x typeName isConst v →
      ((∃ p, Program.compile source = .ok p) ↔ t.BeginsWith v)) ∧
    ((Token.name x).Plain → v.natAbs < 2 ^ 127 → ∃ source l, Lexemes.ofSource source = .ok l ∧
      l.tokens = Token.definingMain x typeName isConst v) :=
  ⟨fun b inLoop _ node inner => Check.define_accepts_iff named b inLoop node inner,
    fun _ _ => Program.compile_definingMain_iff named, exists_source_definingMain named⟩

theorem byte_begins_signed : ∃ source l, Lexemes.ofSource source = .ok l ∧
    l.tokens = Token.definingMain "x" "i16" false 255 ∧ ∃ p, Program.compile source = .ok p := by
  have named : Primitive.ofName? "i16" = some (.int .i16) := rfl
  have begins := begins_variable_iff named "x" 255 false
  have plain : (Token.name "x").Plain :=
    ⟨Lexer.isName_of_all rfl rfl, fun word => by cases word <;> decide⟩
  have held : IntTy.i16.BeginsWith 255 := ⟨by decide, fun _ _ => ⟨.u8, by decide⟩⟩
  obtain ⟨source, l, cut, tokens⟩ := begins.2.2 plain (by decide)
  exact ⟨source, l, cut, tokens, (begins.2.1 source l cut tokens).mpr held⟩

set_option maxRecDepth 100000 in
/-- That a type holds a literal is not enough: one that is not negative is unsigned, and a signed
type takes none of its own width. -/
theorem held_but_refused : IntTy.i8.fits 100 = true ∧
    ¬ ∃ p, Program.compile "func main() \x7b x: i8 = 100; \x7d" = .ok p := by
  refine ⟨by decide, fun ⟨p, compiled⟩ => ?_⟩
  have refused : (Program.compile "func main() \x7b x: i8 = 100; \x7d").toOption.isNone := by
    decide +kernel
  rw [compiled] at refused
  cases refused

end LoopLang
