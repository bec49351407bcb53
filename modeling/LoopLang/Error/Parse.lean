import LoopLang.Token.Lexer

namespace LoopLang

/-- Why a text is not a program. What was found is missing at the end of the text. -/
inductive ParseCause where
  | lexical (cause : LexCause)
  | expected (wanted : String) (found : Option Token)
  | unexpected (found : Option Token)
  | constWithoutValue (name : String)
  | notAssignable
  | bareExpression
  | methodNotLast
  /-- The text is nested more deeply than it is long. -/
  | tooDeep
  deriving DecidableEq

namespace ParseCause

def describe : Option Token → String
  | some token => token.describe
  | none => "end of file"

def message : ParseCause → String
  | lexical cause => cause.message
  | expected wanted found => s!"Expected {wanted}, found {describe found}"
  | unexpected found => s!"Unexpected token: {describe found}"
  | constWithoutValue name => s!"Constant '{name}' must be initialized"
  | notAssignable => "Invalid assignment target"
  | bareExpression => "Expected statement, found a bare expression"
  | methodNotLast => "A method call must end a variable access"
  | tooDeep => "Nesting too deep"

end ParseCause

structure ParseError where
  cause : ParseCause
  position : Position
  deriving DecidableEq

namespace LexError

def toParse (e : LexError) : ParseError := ⟨.lexical e.cause, e.position⟩

def text (e : LexError) : String := s!"Lexer error at {e.position.text}: {e.cause.message}"

end LexError

namespace ParseError

def text (e : ParseError) : String := s!"Parse error at {e.position.text}: {e.cause.message}"

end ParseError
end LoopLang
