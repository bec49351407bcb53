import LoopLang.Range
import LoopLang.Token

namespace LoopLang

inductive LexCause where
  | unexpected (c : Char)
  | openComment
  | openString
  | openEscape
  | unknownEscape (c : Char)
  | openChar
  | emptyChar
  | unclosedChar
  | integerTooLarge (digits : String)
  deriving DecidableEq, Repr

namespace LexCause

def message : LexCause → String
  | unexpected c => s!"Unexpected character: '{c}'"
  | openComment => "Unterminated block comment"
  | openString => "Unterminated string literal"
  | openEscape => "Unexpected end of file in escape sequence"
  | unknownEscape c => s!"Unknown escape sequence: \\{c}"
  | openChar => "Unexpected end of file in character literal"
  | emptyChar => "Empty character literal"
  | unclosedChar => "Expected closing quote in character literal"
  | integerTooLarge digits => s!"Invalid integer literal: {digits}"

end LexCause

structure LexError where
  cause : LexCause
  position : Position
  deriving DecidableEq, Repr

structure Cursor where
  rest : List Char
  position : Position
  deriving DecidableEq, Repr

namespace Lexer

/-- What the characters between two tokens belong to. -/
inductive Gap where
  | blank
  | lineComment
  | blockComment (opened : Position)
  deriving DecidableEq, Repr

def isBlank (c : Char) : Bool := c == ' ' || c == '\t' || c == '\r' || c == '\n'

/-- Passes over blanks and comments. Block comments do not nest. -/
def skip : Gap → List Char → Position → Except LexError Cursor
  | .blank, [], p => .ok ⟨[], p⟩
  | .blank, '/' :: '/' :: cs, p => skip .lineComment cs ((p.step '/').step '/')
  | .blank, '/' :: '*' :: cs, p => skip (.blockComment p) cs ((p.step '/').step '*')
  | .blank, c :: cs, p =>
    if isBlank c then skip .blank cs (p.step c) else .ok ⟨c :: cs, p⟩
  | .lineComment, [], p => .ok ⟨[], p⟩
  | .lineComment, c :: cs, p =>
    if c = '\n' then skip .blank cs (p.step c) else skip .lineComment cs (p.step c)
  | .blockComment opened, [], _ => .error ⟨.openComment, opened⟩
  | .blockComment _, '*' :: '/' :: cs, p => skip .blank cs ((p.step '*').step '/')
  | .blockComment opened, c :: cs, p => skip (.blockComment opened) cs (p.step c)

def span (keep : Char → Bool) : List Char → Position → List Char × Cursor
  | [], p => ([], ⟨[], p⟩)
  | c :: cs, p =>
    if keep c then
      let (taken, cursor) := span keep cs (p.step c)
      (c :: taken, cursor)
    else ([], ⟨c :: cs, p⟩)

def isDigit (c : Char) : Bool := '0' ≤ c && c ≤ '9'

def isNameStart (c : Char) : Bool := ('a' ≤ c && c ≤ 'z') || ('A' ≤ c && c ≤ 'Z') || c == '_'

def isNamePart (c : Char) : Bool := isNameStart c || isDigit c

def unescape? (quote c : Char) : Option Char :=
  match c with
  | 'n' => some '\n'
  | 't' => some '\t'
  | 'r' => some '\r'
  | '\\' => some '\\'
  | '0' => some '\x00'
  | c => if c = quote then some c else none

/-- The content of a string, up to and over its closing quote. A string ends on its line. -/
def stringBody (opened : Position) : List Char → Position → Except LexError (List Char × Cursor)
  | [], _ => .error ⟨.openString, opened⟩
  | '"' :: cs, p => .ok ([], ⟨cs, p.step '"'⟩)
  | '\n' :: _, _ => .error ⟨.openString, opened⟩
  | '\\' :: [], p => .error ⟨.openEscape, p.step '\\'⟩
  | '\\' :: e :: cs, p =>
    let q := (p.step '\\').step e
    match unescape? '"' e with
    | none => .error ⟨.unknownEscape e, q⟩
    | some c => (stringBody opened cs q).map fun (body, cursor) => (c :: body, cursor)
  | c :: cs, p => (stringBody opened cs (p.step c)).map fun (body, cursor) => (c :: body, cursor)

def closeChar (value : Char) : List Char → Position → Except LexError (Token × Cursor)
  | [], p => .error ⟨.unclosedChar, p⟩
  | c :: cs, p =>
    if c = '\'' then .ok (.char value, ⟨cs, p.step c⟩) else .error ⟨.unclosedChar, p.step c⟩

def charBody (opened : Position) : List Char → Position → Except LexError (Token × Cursor)
  | [], p => .error ⟨.openChar, p⟩
  | '\'' :: _, _ => .error ⟨.emptyChar, opened⟩
  | '\\' :: [], p => .error ⟨.openEscape, p.step '\\'⟩
  | '\\' :: e :: cs, p =>
    let q := (p.step '\\').step e
    match unescape? '\'' e with
    | none => .error ⟨.unknownEscape e, q⟩
    | some c => closeChar c cs q
  | c :: cs, p => closeChar c cs (p.step c)

def digitsValue (ds : List Char) : Nat :=
  ds.foldl (fun n d => 10 * n + (d.toNat - '0'.toNat)) 0

/-- A number. A point belongs to it only if a digit follows. -/
def number (cs : List Char) (p : Position) : Except LexError (Token × Cursor) :=
  let (whole, after) := span isDigit cs p
  match after.rest with
  | '.' :: d :: rest =>
    if isDigit d then
      let (places, after) := span isDigit (d :: rest) (after.position.step '.')
      .ok (.float (Float.ofScientific (digitsValue (whole ++ places)) true places.length), after)
    else integer whole after
  | _ => integer whole after
where
  integer (digits : List Char) (after : Cursor) : Except LexError (Token × Cursor) :=
    let value := digitsValue digits
    if Range.wide.contains value then .ok (.integer value, after)
    else .error ⟨.integerTooLarge (String.ofList digits), p⟩

def word (cs : List Char) (p : Position) : Token × Cursor :=
  let (letters, after) := span isNamePart cs p
  let text := String.ofList letters
  match Keyword.ofSpelling? text with
  | some k => (.keyword k, after)
  | none => (.name text, after)

/-- The longest mark that the text begins with. -/
def symbol? : List Char → Option (Symbol × List Char)
  | '=' :: '=' :: cs => some (.equalEqual, cs)
  | '!' :: '=' :: cs => some (.notEqual, cs)
  | '<' :: '=' :: cs => some (.lessEqual, cs)
  | '>' :: '=' :: cs => some (.greaterEqual, cs)
  | '=' :: cs => some (.equal, cs)
  | '!' :: cs => some (.bang, cs)
  | '<' :: cs => some (.less, cs)
  | '>' :: cs => some (.greater, cs)
  | '+' :: cs => some (.plus, cs)
  | '-' :: cs => some (.minus, cs)
  | '*' :: cs => some (.star, cs)
  | '/' :: cs => some (.slash, cs)
  | '%' :: cs => some (.percent, cs)
  | '.' :: cs => some (.dot, cs)
  | ':' :: cs => some (.colon, cs)
  | '(' :: cs => some (.leftParen, cs)
  | ')' :: cs => some (.rightParen, cs)
  | '{' :: cs => some (.leftBrace, cs)
  | '}' :: cs => some (.rightBrace, cs)
  | '[' :: cs => some (.leftBracket, cs)
  | ']' :: cs => some (.rightBracket, cs)
  | ';' :: cs => some (.semicolon, cs)
  | ',' :: cs => some (.comma, cs)
  | _ => none

def token (c : Char) (cs : List Char) (p : Position) : Except LexError (Token × Cursor) :=
  if c = '"' then
    (stringBody p cs (p.step c)).map fun (body, after) => (.string (String.ofList body), after)
  else if c = '\'' then charBody p cs (p.step c)
  else if isDigit c then number (c :: cs) p
  else if isNameStart c then .ok (word (c :: cs) p)
  else
    match symbol? (c :: cs) with
    | some (mark, rest) =>
      .ok (.symbol mark, ⟨rest, ⟨p.line, p.column + mark.spelling.length⟩⟩)
    | none => .error ⟨.unexpected c, p⟩

theorem of_map_ok {ε α β : Type} {f : α → β} {x : Except ε α} {b : β} (h : x.map f = .ok b) :
    ∃ a, x = .ok a ∧ f a = b := by
  cases x with
  | error e => cases h
  | ok a => exact ⟨a, rfl, Except.ok.inj h⟩

theorem span_length (keep : Char → Bool) (cs : List Char) (p : Position) :
    (span keep cs p).2.rest.length ≤ cs.length := by
  induction cs generalizing p with
  | nil => simp [span]
  | cons c cs ih =>
    unfold span
    split
    · exact Nat.le_succ_of_le (ih _)
    · simp

theorem span_length_of_head (keep : Char → Bool) (c : Char) (cs : List Char) (p : Position)
    (h : keep c = true) : (span keep (c :: cs) p).2.rest.length ≤ cs.length := by
  simp only [span, h, if_true]
  exact span_length keep cs _

theorem skip_length (g : Gap) (cs : List Char) (p : Position) {c : Cursor}
    (h : skip g cs p = .ok c) : c.rest.length ≤ cs.length := by
  fun_induction skip g cs p with
  | case1 | case5 | case6 => cases h; exact Nat.le_refl _
  | case9 => cases h
  | case2 | case3 | case10 =>
    rename_i ih
    exact Nat.le_trans (ih h) (Nat.le_add_right _ 2)
  | case4 | case7 | case8 | case11 =>
    rename_i ih
    exact Nat.le_succ_of_le (ih h)

theorem stringBody_length (opened : Position) (cs : List Char) (p : Position)
    {r : List Char × Cursor} (h : stringBody opened cs p = .ok r) :
    r.2.rest.length ≤ cs.length := by
  fun_induction stringBody opened cs p generalizing r with
  | case1 | case3 | case4 | case5 => simp at h
  | case2 => cases h; simp
  | case6 =>
    rename_i ih
    obtain ⟨_, done, rfl⟩ := of_map_ok h
    have := ih done
    simp
    omega
  | case7 _ _ _ _ _ _ _ ih =>
    obtain ⟨_, done, rfl⟩ := of_map_ok h
    have := ih done
    simp
    omega

theorem closeChar_length (value : Char) (cs : List Char) (p : Position) {r : Token × Cursor}
    (h : closeChar value cs p = .ok r) : r.2.rest.length ≤ cs.length := by
  cases cs with
  | nil => simp [closeChar] at h
  | cons c cs =>
    simp only [closeChar] at h
    split at h
    · cases h; simp
    · cases h

theorem charBody_length (opened : Position) (cs : List Char) (p : Position) {r : Token × Cursor}
    (h : charBody opened cs p = .ok r) : r.2.rest.length ≤ cs.length := by
  unfold charBody at h
  split at h
  · cases h
  · cases h
  · cases h
  · split at h
    · cases h
    · have := closeChar_length _ _ _ h
      simp
      omega
  · have := closeChar_length _ _ _ h
    simp
    omega

theorem number_length (c : Char) (cs : List Char) (p : Position) (hc : isDigit c = true)
    {r : Token × Cursor} (h : number (c :: cs) p = .ok r) : r.2.rest.length ≤ cs.length := by
  have whole := span_length_of_head isDigit c cs p hc
  have same (after : Cursor) (r : Token × Cursor) (digits : List Char)
      (h : number.integer p digits after = .ok r) : r.2 = after := by
    simp only [number.integer] at h
    split at h
    · cases h; rfl
    · cases h
  simp only [number] at h
  split at h
  · rename_i d rest hd
    split at h
    · rename_i hdigit
      cases h
      have := span_length_of_head isDigit d rest
        ((span isDigit (c :: cs) p).2.position.step '.') hdigit
      rw [hd] at whole
      simp only [List.length_cons] at whole
      dsimp only
      omega
    · rw [same _ _ _ h]; exact whole
  · rw [same _ _ _ h]; exact whole

theorem symbol?_length {c : Char} {cs rest : List Char} {mark : Symbol}
    (h : symbol? (c :: cs) = some (mark, rest)) : rest.length ≤ cs.length := by
  unfold symbol? at h
  split at h
  all_goals grind

theorem token_length (c : Char) (cs : List Char) (p : Position) {r : Token × Cursor}
    (h : token c cs p = .ok r) : r.2.rest.length ≤ cs.length := by
  unfold token at h
  split at h
  · obtain ⟨_, done, rfl⟩ := of_map_ok h
    exact stringBody_length _ _ _ done
  · split at h
    · exact charBody_length _ _ _ h
    · split at h
      · rename_i hdigit
        exact number_length c cs p hdigit h
      · split at h
        · rename_i hstart
          have := span_length_of_head isNamePart c cs p (by simp [isNamePart, hstart])
          cases h
          simp only [word]
          split <;> exact this
        · split at h
          · rename_i hsymbol
            cases h
            exact symbol?_length hsymbol
          · cases h

def lexemes (cs : List Char) (p : Position) : Except LexError Lexemes :=
  match _skipped : skip .blank cs p with
  | .error e => .error e
  | .ok ⟨[], q⟩ => .ok ⟨[], q⟩
  | .ok ⟨c :: rest, q⟩ =>
    match _cut : token c rest q with
    | .error e => .error e
    | .ok (t, after) =>
      (lexemes after.rest after.position).map fun l => ⟨⟨t, q⟩ :: l.list, l.finish⟩
termination_by cs.length
decreasing_by
  have shorter := skip_length _ _ _ _skipped
  have left := token_length _ _ _ _cut
  simp only [List.length_cons] at shorter left
  omega

end Lexer

def Lexemes.ofSource (source : String) : Except LexError Lexemes :=
  Lexer.lexemes source.toList Position.start

end LoopLang
