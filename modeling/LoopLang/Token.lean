import LoopLang.Position
import LoopLang.Decimal.Text
import LoopLang.Text.Quoted

namespace LoopLang

inductive Keyword where
  | struct | enum | func | var | const | loop
  | if_ | elif | else_ | break_ | continue_ | return_
  | true_ | false_ | not_
  deriving DecidableEq, Repr

namespace Keyword

def spelling : Keyword → String
  | struct => "struct"
  | enum => "enum"
  | func => "func"
  | var => "var"
  | const => "const"
  | loop => "loop"
  | if_ => "if"
  | elif => "elif"
  | else_ => "else"
  | break_ => "break"
  | continue_ => "continue"
  | return_ => "return"
  | true_ => "true"
  | false_ => "false"
  | not_ => "not"

def all : List Keyword :=
  [struct, enum, func, var, const, loop, if_, elif, else_, break_, continue_, return_, true_,
    false_, not_]

theorem mem_all (k : Keyword) : k ∈ all := by cases k <;> decide

def ofSpelling? (s : String) : Option Keyword := all.find? (·.spelling == s)

end Keyword

inductive Symbol where
  | plus | minus | star | slash | percent
  | equalEqual | notEqual | less | lessEqual | greater | greaterEqual
  | bang | equal
  | dot | colon | leftParen | rightParen | leftBrace | rightBrace | leftBracket | rightBracket
  | semicolon | comma
  deriving DecidableEq, Repr

namespace Symbol

def spelling : Symbol → String
  | plus => "+"
  | minus => "-"
  | star => "*"
  | slash => "/"
  | percent => "%"
  | equalEqual => "=="
  | notEqual => "!="
  | less => "<"
  | lessEqual => "<="
  | greater => ">"
  | greaterEqual => ">="
  | bang => "!"
  | equal => "="
  | dot => "."
  | colon => ":"
  | leftParen => "("
  | rightParen => ")"
  | leftBrace => "\x7b"
  | rightBrace => "\x7d"
  | leftBracket => "["
  | rightBracket => "]"
  | semicolon => ";"
  | comma => ","

end Symbol

/-- What the text of a program is made of. Numbers carry no sign of their own. -/
inductive Token where
  | integer (value : Nat)
  | float (value : Float)
  | char (value : Char)
  | string (value : String)
  | name (text : String)
  | keyword (word : Keyword)
  | symbol (mark : Symbol)
  deriving DecidableEq

namespace Token

def describe : Token → String
  | integer value => s!"int literal {value}"
  | float value => s!"float literal {Decimal.literal value}"
  | char value => s!"char literal {Text.quoted value}"
  | string value => s!"string literal \"{value}\""
  | name text => s!"identifier '{text}'"
  | keyword word => s!"'{word.spelling}'"
  | symbol mark => s!"'{mark.spelling}'"

end Token

structure Lexeme where
  token : Token
  position : Position
  deriving DecidableEq

structure Lexemes where
  list : List Lexeme
  finish : Position
  deriving DecidableEq

namespace Lexemes

def tokens (l : Lexemes) : List Token := l.list.map (·.token)

end Lexemes
end LoopLang
