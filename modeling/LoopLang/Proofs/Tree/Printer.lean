import Mathlib.Data.List.Sort
import LoopLang.Proofs.Token.Order
import LoopLang.Tree.Parser

namespace LoopLang

namespace Token

def between (opening closing : Symbol) (tokens : List Token) : List Token :=
  .symbol opening :: (tokens ++ [.symbol closing])

def parenthesized (needed : Bool) (tokens : List Token) : List Token :=
  if needed then between .leftParen .rightParen tokens else tokens

end Token

-- A number for each reader of expressions, the outermost first.

namespace Level

abbrev comparison : Nat := 0

abbrev additive : Nat := 1

abbrev multiplicative : Nat := 2

abbrev unary : Nat := 3

end Level

namespace MathOp

def mark : MathOp → Symbol
  | add => .plus
  | subtract => .minus
  | multiply => .star
  | divide => .slash
  | modulo => .percent

def level : MathOp → Nat
  | add | subtract => Level.additive
  | multiply | divide | modulo => Level.multiplicative

end MathOp

namespace CompareOp

def mark : CompareOp → Symbol
  | equal => .equalEqual
  | notEqual => .notEqual
  | less => .less
  | lessEqual => .lessEqual
  | greater => .greater
  | greaterEqual => .greaterEqual

end CompareOp

namespace Literal

/-- Whether a float has a minus sign. A zero can have one, too. -/
def signed (value : Float) : Bool := value.toBits.toNat.testBit 63

def tokens : Literal → List Token
  | integer value =>
    if value < 0 then [.symbol .minus, .integer value.natAbs] else [.integer value.natAbs]
  | float value => if signed value then [.symbol .minus, .float (-value)] else [.float value]
  | string value => [.string value]
  | char value => [.char value]
  | bool value => [.keyword (if value then .true_ else .false_)]

/-- Whether a literal is a number that a minus sign before it would belong to. -/
def isUnsigned : Literal → Bool
  | integer value => 0 ≤ value
  | float value => !signed value
  | _ => false

end Literal

namespace Ty

/-- A type as a source text writes it, which never names `any`. -/
def tokens : Ty → List Token
  | named name | struct name | enum name => [.name name]
  | primitive p => [.name p.name]
  | array element => Token.between .leftBracket .rightBracket element.tokens
  | any => []

end Ty

namespace Expr

def level : Expr → Nat
  | compare .. => Level.comparison
  | math _ op .. => op.level
  | _ => Level.unary

def isUnsigned : Expr → Bool
  | literal _ value => value.isUnsigned
  | _ => false

end Expr

mutual

def Expr.tokens : Expr → List Token
  | .literal _ value => value.tokens
  | .place _ root steps => .name root :: Step.tokensOf steps
  | .method _ root steps name _ args =>
    .name root :: (Step.tokensOf steps ++ .symbol .dot :: .name name ::
      Token.between .leftParen .rightParen (Expr.tokensOf args).tail)
  | .call _ callee args =>
    .name callee :: Token.between .leftParen .rightParen (Expr.tokensOf args).tail
  | .math _ op left right =>
    Token.parenthesized (left.level < op.level) left.tokens ++ .symbol op.mark ::
      Token.parenthesized (right.level < op.level + 1) right.tokens
  | .compare _ op left right =>
    Token.parenthesized (left.level < Level.additive) left.tokens ++ .symbol op.mark ::
      Token.parenthesized (right.level < Level.additive) right.tokens
  | .unary _ .not operand =>
    .keyword .not_ :: Token.parenthesized (operand.level < Level.unary) operand.tokens
  | .unary _ .negate operand =>
    .symbol .minus ::
      Token.parenthesized (operand.level < Level.unary || operand.isUnsigned) operand.tokens
  | .build _ name given =>
    .name name :: Token.between .leftBrace .rightBrace (Field.tokensOf given).tail
termination_by structural e => e

def Expr.tokensOf : List Expr → List Token
  | [] => []
  | e :: es => .symbol .comma :: (e.tokens ++ Expr.tokensOf es)
termination_by structural es => es

def Step.tokensOf : List Step → List Token
  | [] => []
  | .index e :: steps =>
    Token.between .leftBracket .rightBracket e.tokens ++ Step.tokensOf steps
  | .member name _ :: steps => .symbol .dot :: .name name :: Step.tokensOf steps
termination_by structural steps => steps

def Field.tokensOf : List Field → List Token
  | [] => []
  | .mk name _ value :: given =>
    .symbol .comma :: .name name :: .symbol .colon :: (value.tokens ++ Field.tokensOf given)
termination_by structural given => given

end

/-- An operand where operators of the given level are read, or of one that binds more tightly. -/
def Expr.tokensAt (level : Nat) (e : Expr) : List Token :=
  Token.parenthesized (e.level < level) e.tokens

mutual

def Stmt.tokens : Stmt → List Token
  | .declare _ name type =>
    .name name :: .symbol .colon :: (type.tokens ++ [.symbol .semicolon])
  | .define _ name type value isConst =>
    (if isConst then [.keyword .const] else []) ++ .name name :: .symbol .colon ::
      (type.tokens ++ .symbol .equal :: (value.tokens ++ [.symbol .semicolon]))
  | .assign _ _ root steps value =>
    .name root :: (Step.tokensOf steps ++ .symbol .equal ::
      (value.tokens ++ [.symbol .semicolon]))
  | .loop _ body => .keyword .loop :: Token.between .leftBrace .rightBrace (Stmt.tokensOf body)
  | .choose _ ⟨test, body⟩ elifs otherwise =>
    .keyword .if_ :: (Token.between .leftParen .rightParen test.tokens ++
      Token.between .leftBrace .rightBrace (Stmt.tokensOf body) ++
      Stmt.tokensOfBranches elifs ++
      match otherwise with
      | some body =>
        .keyword .else_ :: Token.between .leftBrace .rightBrace (Stmt.tokensOf body)
      | none => [])
  | .return _ (some value) => .keyword .return_ :: (value.tokens ++ [.symbol .semicolon])
  | .return _ none => [.keyword .return_, .symbol .semicolon]
  | .break _ => [.keyword .break_, .symbol .semicolon]
  | .continue _ => [.keyword .continue_, .symbol .semicolon]
  | .call _ node callee args => (Expr.call node callee args).tokens ++ [.symbol .semicolon]
  | .place _ node root steps => (Expr.place node root steps).tokens ++ [.symbol .semicolon]
  | .method _ node root steps name nameAt args =>
    (Expr.method node root steps name nameAt args).tokens ++ [.symbol .semicolon]
termination_by structural s => s

def Stmt.tokensOf : List Stmt → List Token
  | [] => []
  | s :: rest => s.tokens ++ Stmt.tokensOf rest
termination_by structural body => body

def Stmt.tokensOfBranches : List (Branch Stmt) → List Token
  | [] => []
  | ⟨test, body⟩ :: rest =>
    .keyword .elif :: (Token.between .leftParen .rightParen test.tokens ++
      Token.between .leftBrace .rightBrace (Stmt.tokensOf body) ++ Stmt.tokensOfBranches rest)
termination_by structural branches => branches

end

namespace Token

def separated {α : Type} (tokens : α → List Token) (items : List α) : List Token :=
  (items.flatMap fun item => .symbol .comma :: tokens item).tail

end Token

namespace Param

def tokens (param : Param) : List Token :=
  .name param.name :: .symbol .colon ::
    ((if param.byReference then [.symbol .star] else []) ++ param.type.tokens)

end Param

namespace Member

def tokens (m : Member) : List Token :=
  .name m.name :: .symbol .colon :: (m.type.tokens ++
    match m.default with
    | some value => .symbol .equal :: value.tokens
    | none => [])

end Member

namespace Function

def tokensOfResult : Option Ty → List Token
  | some type => .symbol .colon :: type.tokens
  | none => []

end Function

namespace Definition

def tokens : Definition → List Token
  | struct s =>
    .keyword .struct :: .name s.name ::
      Token.between .leftBrace .rightBrace (Token.separated Member.tokens s.members)
  | enum e =>
    .keyword .enum :: .name e.name ::
      Token.between .leftBrace .rightBrace (Token.separated (fun entry => [.name entry]) e.entries)
  | function f =>
    .keyword .func :: .name f.name ::
      (Token.between .leftParen .rightParen (Token.separated Param.tokens f.params) ++
        (Function.tokensOfResult f.returns ++
        Token.between .leftBrace .rightBrace (Stmt.tokensOf f.body)))

def position : Definition → Position
  | struct s => s.position
  | enum e => e.position
  | function f => f.position

end Definition

namespace Globals

def byKind (g : Globals) : List Definition :=
  g.functions.map .function ++ g.structs.map .struct ++ g.enums.map .enum

def inOrder (g : Globals) : List Definition :=
  g.byKind.insertionSort fun d d' => d.position ≤ d'.position

def tokens (g : Globals) : List Token := g.inOrder.flatMap Definition.tokens

end Globals
end LoopLang
