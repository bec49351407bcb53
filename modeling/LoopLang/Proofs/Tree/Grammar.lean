import LoopLang.Token

namespace LoopLang.Grammar

inductive Nonterminal where
  | program | struct | members | enum | entries | function | param | type
  | block | statement | target | invocation
  | expr | sum | product | unary | primary | fields | call | args | access | place

inductive Terminal where
  | integer | float | char | string | name
  | word (k : Keyword)
  | mark (s : Symbol)
  deriving DecidableEq

def Terminal.Covers : Terminal → Token → Prop
  | integer, .integer _ | float, .float _ | char, .char _ | string, .string _
  | name, .name _ => True
  | word k, .keyword k' => k = k'
  | mark s, .symbol s' => s = s'
  | _, _ => False

inductive Kind where
  | function | type | part
  deriving DecidableEq

inductive Form where
  | terminal (t : Terminal)
  | defined (kind : Kind)
  | rule (n : Nonterminal)
  | seq (first second : Form)
  | either (left right : Form)
  | optional (form : Form)
  | many (form : Form)

namespace Form

instance : AndThen Form := ⟨fun first second => seq first (second ())⟩

instance : OrElse Form := ⟨fun left right => either left (right ())⟩

abbrev word (k : Keyword) : Form := terminal (.word k)

abbrev mark (s : Symbol) : Form := terminal (.mark s)

abbrev integer : Form := terminal .integer

abbrev float : Form := terminal .float

abbrev char : Form := terminal .char

abbrev string : Form := terminal .string

abbrev name : Form := terminal .name

abbrev between (opening closing : Symbol) (form : Form) : Form :=
  mark opening >> form >> mark closing

abbrev separated (item : Form) : Form := item >> many (mark .comma >> item)

abbrev loose (item : Form) : Form := many (item >> optional (mark .comma))

abbrev listed (item : Form) : Form := optional (separated item >> optional (mark .comma))

abbrev value : Form := mark .equal >> rule .expr

abbrev member : Form := defined .part >> mark .colon >> rule .type >> optional value

abbrev field : Form := name >> mark .colon >> rule .expr

abbrev comparand : Form :=
  (mark .equalEqual <|> mark .notEqual <|> mark .less <|> mark .lessEqual <|> mark .greater
    <|> mark .greaterEqual) >> rule .sum

abbrev addend : Form := (mark .plus <|> mark .minus) >> rule .product

abbrev factor : Form := (mark .star <|> mark .slash <|> mark .percent) >> rule .unary

abbrev step : Form :=
  between .leftBracket .rightBracket (rule .expr) <|> (mark .dot >> name)

abbrev params : Form := optional (separated (rule .param))

abbrev result : Form := optional (mark .colon >> rule .type)

abbrev branch : Form := between .leftParen .rightParen (rule .expr) >> rule .block

end Form

open Form in
/-- The grammar as the description of the language has it. -/
def documented : Nonterminal → Form
  | .program => many (rule .struct <|> rule .enum <|> rule .function)
  | .struct => word .struct >> defined .type >> between .leftBrace .rightBrace (rule .members)
  | .members => loose member
  | .enum => word .enum >> defined .type >> between .leftBrace .rightBrace (rule .entries)
  | .entries => loose (defined .part)
  | .function =>
    optional (word .func) >> defined .function >> between .leftParen .rightParen params >> result >>
      rule .block
  | .param => name >> mark .colon >> optional (mark .star) >> rule .type
  | .type => name <|> between .leftBracket .rightBracket name
  | .block => between .leftBrace .rightBrace (many (rule .statement))
  | .statement =>
    (optional (word .var) >> name >> mark .colon >> rule .type >> optional value >>
      mark .semicolon)
    <|> (word .const >> name >> mark .colon >> rule .type >> value >> mark .semicolon)
    <|> (word .loop >> rule .block)
    <|> (word .if_ >> branch >> many (word .elif >> branch)
      >> optional (word .else_ >> rule .block))
    <|> (word .return_ >> optional (rule .expr) >> mark .semicolon)
    <|> (word .break_ >> mark .semicolon)
    <|> (word .continue_ >> mark .semicolon)
    <|> (rule .target >> value >> mark .semicolon)
    <|> (rule .invocation >> mark .semicolon)
  | .target => rule .place
  | .invocation => rule .call <|> rule .access
  | .expr => rule .sum >> optional comparand
  | .sum => rule .product >> many addend
  | .product => rule .unary >> many factor
  | .unary => ((word .not_ <|> mark .bang <|> mark .minus) >> rule .unary) <|> rule .primary
  | .primary =>
    integer <|> float <|> string <|> char <|> word .true_ <|> word .false_
    <|> between .leftParen .rightParen (rule .expr)
    <|> rule .call
    <|> (name >> between .leftBrace .rightBrace (rule .fields))
    <|> rule .access
  | .fields => loose field
  | .call => name >> between .leftParen .rightParen (rule .args)
  | .args => optional (separated (rule .expr))
  | .access => rule .place >> optional (mark .dot >> rule .call)
  | .place => name >> many step

open Form in
/-- The grammar that the parser follows. Commas may not be missing between two members, entries or
    fields, and parentheses may stand around a target and around a call or access. -/
def accepted : Nonterminal → Form
  | .members => listed member
  | .entries => listed (defined .part)
  | .fields => listed field
  | .target => rule .place <|> between .leftParen .rightParen (rule .target)
  | .invocation => rule .call <|> rule .access <|> between .leftParen .rightParen (rule .invocation)
  | other => documented other

/-- The tokens are derived from the form, and the names are those that they define, in order. -/
inductive Derives (g : Nonterminal → Form) : Form → List Token → List (Kind × String) → Prop where
  | terminal {t : Terminal} {token : Token} (covers : t.Covers token) :
    Derives g (.terminal t) [token] []
  | defined {kind : Kind} {s : String} : Derives g (.defined kind) [.name s] [(kind, s)]
  | rule {n : Nonterminal} {ts : List Token} {names : List (Kind × String)}
    (body : Derives g (g n) ts names) : Derives g (.rule n) ts names
  | seq {a b : Form} {ts ts' : List Token} {names names' : List (Kind × String)}
    (first : Derives g a ts names) (second : Derives g b ts' names') :
    Derives g (.seq a b) (ts ++ ts') (names ++ names')
  | left {a b : Form} {ts : List Token} {names : List (Kind × String)}
    (h : Derives g a ts names) : Derives g (.either a b) ts names
  | right {a b : Form} {ts : List Token} {names : List (Kind × String)}
    (h : Derives g b ts names) : Derives g (.either a b) ts names
  | none {a : Form} : Derives g (.optional a) [] []
  | some {a : Form} {ts : List Token} {names : List (Kind × String)}
    (h : Derives g a ts names) : Derives g (.optional a) ts names
  | nil {a : Form} : Derives g (.many a) [] []
  | cons {a : Form} {ts ts' : List Token} {names names' : List (Kind × String)}
    (first : Derives g a ts names) (others : Derives g (.many a) ts' names') :
    Derives g (.many a) (ts ++ ts') (names ++ names')

/-- What a program has a name for. Members and entries belong to their struct or enum. -/
inductive Entity where
  | function (name : String)
  | type (name : String)
  | part (owner name : String)
  deriving DecidableEq

/-- What names in the order of a text are defined for; parts belong to the type before them. -/
def entities (owner : String) : List (Kind × String) → List Entity
  | [] => []
  | (.function, name) :: names => .function name :: entities owner names
  | (.type, name) :: names => .type name :: entities name names
  | (.part, name) :: names => .part owner name :: entities owner names

def Derivable (g : Nonterminal → Form) (ts : List Token) : Prop :=
  ∃ names, Derives g (.rule .program) ts names ∧ (entities "" names).Nodup

section Rules

variable {g : Nonterminal → Form} {a b : Form} {ts ts' : List Token} {names : List (Kind × String)}

theorem Derives.mark {s : Symbol} : Derives g (.mark s) [.symbol s] [] := .terminal rfl

theorem Derives.word {k : Keyword} : Derives g (.word k) [.keyword k] [] := .terminal rfl

theorem Derives.name {s : String} : Derives g .name [.name s] [] := .terminal trivial

theorem Derives.mark_then {s : Symbol} (rest : Derives g b ts names) :
    Derives g (.mark s >> b) (.symbol s :: ts) names := .seq .mark rest

theorem Derives.word_then {k : Keyword} (rest : Derives g b ts names) :
    Derives g (.word k >> b) (.keyword k :: ts) names := .seq .word rest

theorem Derives.name_then {s : String} (rest : Derives g b ts names) :
    Derives g (.name >> b) (.name s :: ts) names := .seq .name rest

theorem Derives.join (first : Derives g a ts []) (second : Derives g b ts' names) :
    Derives g (.seq a b) (ts ++ ts') names := .seq first second

theorem Derives.between {opening closing : Symbol} (inner : Derives g a ts names) :
    Derives g (.between opening closing a) (.symbol opening :: (ts ++ [.symbol closing]))
      names := by
  have closed := inner.seq (Derives.mark (s := closing))
  rw [List.append_nil] at closed
  exact closed.mark_then

theorem Derives.between_then {opening closing : Symbol} (inner : Derives g a ts [])
    (rest : Derives g b ts' names) :
    Derives g (.between opening closing a >> b)
      (.symbol opening :: (ts ++ .symbol closing :: ts')) names := by
  have enclosed : Derives g (.between opening closing a) _ [] := inner.between
  have both := enclosed.join rest
  rwa [List.cons_append, List.append_assoc] at both

theorem Derives.token_then {t : Token} (first : Derives g a [t] [])
    (rest : Derives g b ts names) : Derives g (.seq a b) (t :: ts) names := first.join rest

theorem Derives.more (first : Derives g a ts []) (others : Derives g (.many a) ts' names) :
    Derives g (.many a) (ts ++ ts') names := .cons first others

theorem Derives.further (h : Derives g (.separated a) ts names) :
    Derives g (.many (.mark .comma >> a)) (.symbol .comma :: ts) names := by
  cases h with
  | seq first others => exact .cons first.mark_then others

theorem Derives.listed_one (h : Derives g a ts names) : Derives g (.listed a) ts names := by
  have alone := (h.seq (Derives.nil (a := .mark .comma >> a))).seq
    (Derives.none (a := .mark .comma))
  simp only [List.append_nil] at alone
  exact .some alone

theorem Derives.listed_more {names' : List (Kind × String)} (first : Derives g a ts names)
    (others : Derives g (.listed a) ts' names') :
    Derives g (.listed a) (ts ++ .symbol .comma :: ts') (names ++ names') := by
  cases others with
  | none =>
    have ended := (first.seq (Derives.nil (a := .mark .comma >> a))).seq
      (Derives.some (Derives.mark (s := .comma)))
    simp only [List.append_nil] at ended
    rw [List.append_nil]
    exact .some ended
  | some h =>
    cases h with
    | seq several ended =>
      have longer := (first.seq several.further).seq ended
      simp only [List.append_assoc, List.cons_append] at longer
      exact .some longer

end Rules

inductive Repeated (P : List Token → List (Kind × String) → Prop) :
    List Token → List (Kind × String) → Prop where
  | nil : Repeated P [] []
  | cons {ts ts' : List Token} {names names' : List (Kind × String)} (first : P ts names)
    (others : Repeated P ts' names') : Repeated P (ts ++ ts') (names ++ names')

theorem Repeated.mono {P Q : List Token → List (Kind × String) → Prop} {ts : List Token}
    {names : List (Kind × String)} (weaker : ∀ {ts names}, P ts names → Q ts names)
    (h : Repeated P ts names) : Repeated Q ts names := by
  induction h with
  | nil => exact .nil
  | cons first _ ih => exact .cons (weaker first) ih

theorem Repeated.unnamed {P : List Token → List (Kind × String) → Prop} {ts : List Token}
    {names : List (Kind × String)} (own : ∀ {ts names}, P ts names → names = [])
    (h : Repeated P ts names) : names = [] := by
  induction h with
  | nil => rfl
  | cons first _ ih => rw [own first, ih, List.append_nil]

def Form.Means (P : Nonterminal → List Token → List (Kind × String) → Prop) :
    Form → List Token → List (Kind × String) → Prop
  | .terminal t, ts, names => ∃ token, t.Covers token ∧ ts = [token] ∧ names = []
  | .defined kind, ts, names => ∃ text, ts = [.name text] ∧ names = [(kind, text)]
  | .rule n, ts, names => P n ts names
  | .seq a b, ts, names =>
    ∃ ts1 names1 ts2 names2, a.Means P ts1 names1 ∧ b.Means P ts2 names2 ∧ ts = ts1 ++ ts2 ∧
      names = names1 ++ names2
  | .either a b, ts, names => a.Means P ts names ∨ b.Means P ts names
  | .optional a, ts, names => (ts = [] ∧ names = []) ∨ a.Means P ts names
  | .many a, ts, names => Repeated (a.Means P) ts names

theorem Derives.means {g : Nonterminal → Form}
    {P : Nonterminal → List Token → List (Kind × String) → Prop}
    (closed : ∀ n ts names, (g n).Means P ts names → P n ts names) {form : Form} {ts : List Token}
    {names : List (Kind × String)} (h : Derives g form ts names) : form.Means P ts names := by
  induction h with
  | terminal covers => exact ⟨_, covers, rfl, rfl⟩
  | defined => exact ⟨_, rfl, rfl⟩
  | rule _ ih => exact closed _ _ _ ih
  | seq _ _ ih ih' => exact ⟨_, _, _, _, ih, ih', rfl, rfl⟩
  | left _ ih => exact .inl ih
  | right _ ih => exact .inr ih
  | none => exact .inl ⟨rfl, rfl⟩
  | some _ ih => exact .inr ih
  | nil => exact .nil
  | cons _ _ ih ih' => exact .cons ih ih'

section Inversion

variable {P : Nonterminal → List Token → List (Kind × String) → Prop} {a b : Form}
  {ts : List Token} {names : List (Kind × String)}

theorem Form.Means.mark {s : Symbol} (h : (Form.mark s).Means P ts names) :
    ts = [.symbol s] ∧ names = [] := by
  obtain ⟨token, covers, rfl, rfl⟩ := h
  cases token with
  | symbol s' =>
    cases covers
    exact ⟨rfl, rfl⟩
  | _ => cases covers

theorem Form.Means.word {k : Keyword} (h : (Form.word k).Means P ts names) :
    ts = [.keyword k] ∧ names = [] := by
  obtain ⟨token, covers, rfl, rfl⟩ := h
  cases token with
  | keyword k' =>
    cases covers
    exact ⟨rfl, rfl⟩
  | _ => cases covers

theorem Form.Means.name (h : Form.name.Means P ts names) :
    ∃ text, ts = [.name text] ∧ names = [] := by
  obtain ⟨token, covers, rfl, rfl⟩ := h
  cases token with
  | name text => exact ⟨text, rfl, rfl⟩
  | _ => cases covers

theorem Form.Means.mark_then {s : Symbol} (h : (.mark s >> b : Form).Means P ts names) :
    ∃ ts', b.Means P ts' names ∧ ts = .symbol s :: ts' := by
  obtain ⟨_, _, ts', _, first, second, rfl, rfl⟩ := h
  obtain ⟨rfl, rfl⟩ := first.mark
  exact ⟨ts', second, rfl⟩

theorem Form.Means.word_then {k : Keyword} (h : (.word k >> b : Form).Means P ts names) :
    ∃ ts', b.Means P ts' names ∧ ts = .keyword k :: ts' := by
  obtain ⟨_, _, ts', _, first, second, rfl, rfl⟩ := h
  obtain ⟨rfl, rfl⟩ := first.word
  exact ⟨ts', second, rfl⟩

theorem Form.Means.name_then (h : (.name >> b : Form).Means P ts names) :
    ∃ text ts', b.Means P ts' names ∧ ts = .name text :: ts' := by
  obtain ⟨_, _, ts', _, first, second, rfl, rfl⟩ := h
  obtain ⟨text, rfl, rfl⟩ := first.name
  exact ⟨text, ts', second, rfl⟩

theorem Form.Means.between {opening closing : Symbol}
    (h : (Form.between opening closing a).Means P ts names) :
    ∃ inner, a.Means P inner names ∧
      ts = .symbol opening :: (inner ++ [.symbol closing]) := by
  obtain ⟨_, ⟨inner, _, _, _, own, last, rfl, rfl⟩, rfl⟩ := h.mark_then
  obtain ⟨rfl, rfl⟩ := last.mark
  rw [List.append_nil]
  exact ⟨inner, own, rfl⟩

theorem Form.Means.separated_unnamed
    (own : ∀ {ts names}, a.Means P ts names → names = [])
    (h : (Form.separated a).Means P ts names) : names = [] := by
  obtain ⟨_, _, _, _, first, others, rfl, rfl⟩ := h
  obtain rfl := own first
  refine Repeated.unnamed (fun next => ?_) others
  obtain ⟨_, item, _⟩ := next.mark_then
  exact own item

theorem Form.Means.listed_unnamed (own : ∀ {ts names}, a.Means P ts names → names = [])
    (h : (Form.listed a).Means P ts names) : names = [] := by
  rcases h with ⟨_, rfl⟩ | ⟨_, _, _, _, several, ended, rfl, rfl⟩
  · rfl
  · obtain rfl := several.separated_unnamed own
    rcases ended with ⟨_, rfl⟩ | comma
    · rfl
    · exact comma.mark.2

end Inversion
end LoopLang.Grammar
