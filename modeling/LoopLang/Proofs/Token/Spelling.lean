import Mathlib.Data.Nat.Digits.Lemmas
import LoopLang.Token.Lexer

namespace LoopLang

namespace Lexer

/-- Blanks, line comments with the end of their line, and block comments, which the first closing
    mark ends. Only in the last trivia of a text may a line comment have no end of line. -/
inductive Trivia (last : Prop) : List Char → Prop
  | nil : Trivia last []
  | blank {c : Char} {rest : List Char} (blank : c ∈ [' ', '\t', '\r', '\n'])
    (others : Trivia last rest) : Trivia last (c :: rest)
  | line {text rest : List Char} (inside : '\n' ∉ text) (others : Trivia last rest) :
    Trivia last ('/' :: '/' :: (text ++ '\n' :: rest))
  | block {text rest : List Char} (inside : ¬['*', '/'] <:+: text) (others : Trivia last rest) :
    Trivia last ('/' :: '*' :: (text ++ '*' :: '/' :: rest))
  | unended {text : List Char} (atEnd : last) (inside : '\n' ∉ text) :
    Trivia last ('/' :: '/' :: text)

inductive Escape (quote : Char) : (letter value : Char) → Prop
  | newline : Escape quote 'n' '\n'
  | tab : Escape quote 't' '\t'
  | carriageReturn : Escape quote 'r' '\r'
  | nul : Escape quote '0' '\x00'
  | backslash : Escape quote '\\' '\\'
  | own : Escape quote quote quote

/-- How a character is spelled between two quotes. A raw line feed would end a string, but it may
    stand in a character literal. -/
inductive Glyph (quote : Char) : Char → List Char → Prop
  | plain {c : Char} (noQuote : c ≠ quote) (noBackslash : c ≠ '\\')
    (onLine : quote = '"' → c ≠ '\n') : Glyph quote c [c]
  | escaped {letter c : Char} (escape : Escape quote letter c) : Glyph quote c ['\\', letter]

def IsName (text : List Char) : Prop :=
  ∃ c rest, text = c :: rest ∧ (c.isAlpha ∨ c = '_') ∧ ∀ d ∈ rest, d.isAlphanum ∨ d = '_'

def IsDecimal (digits : List Char) : Prop := digits ≠ [] ∧ ∀ d ∈ digits, d.isDigit

def decimalValue (digits : List Char) : Nat :=
  Nat.ofDigits 10 (digits.reverse.map fun d => d.toNat - '0'.toNat)

end Lexer

namespace Token

open Lexer

inductive Spelled : Token → List Char → Prop
  | integer {digits : List Char} (decimal : IsDecimal digits)
    (fits : decimalValue digits < 2 ^ 127) : Spelled (.integer (decimalValue digits)) digits
  | float {whole places : List Char} (left : IsDecimal whole) (right : IsDecimal places) :
    Spelled (.float (Float.ofScientific (decimalValue (whole ++ places)) true places.length))
      (whole ++ '.' :: places)
  | char {c : Char} {letters : List Char} (glyph : Glyph '\'' c letters) :
    Spelled (.char c) ('\'' :: (letters ++ ['\'']))
  | string {content : String} {letters : List (List Char)}
    (glyphs : List.Forall₂ (Glyph '"') content.toList letters) :
    Spelled (.string content) ('"' :: (letters.flatten ++ ['"']))
  | name {text : String} (isName : IsName text.toList)
    (free : ∀ word : Keyword, word.spelling ≠ text) : Spelled (.name text) text.toList
  | keyword (word : Keyword) : Spelled (.keyword word) word.spelling.toList
  | symbol (mark : Symbol) : Spelled (.symbol mark) mark.spelling.toList

/-- Tokens that the same rule spells. A number may have a point, a name may be a keyword. -/
inductive Class where
  | number | char | string | word | symbol
  deriving DecidableEq

def lexicalClass : Token → Class
  | integer _ | float _ => .number
  | char _ => .char
  | string _ => .string
  | name _ | keyword _ => .word
  | symbol _ => .symbol

end Token

end LoopLang
