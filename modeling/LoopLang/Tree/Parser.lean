import LoopLang.Error
import LoopLang.Tree

namespace LoopLang

structure Reader where
  rest : List Lexeme
  finish : Position
  nextId : NodeId

abbrev Parse := StateT Reader (Except ParseError)

namespace Parse

def peek : Parse (Option Token) := do return (← get).rest.head?.map (·.token)

def peekSecond : Parse (Option Token) := do return (← get).rest[1]?.map (·.token)

def here : Parse Position := do
  let r ← get
  return (r.rest.head?.map (·.position)).getD r.finish

def advance : Parse Unit := modify fun r => { r with rest := r.rest.tail }

def failAt {α : Type} (position : Position) (cause : ParseCause) : Parse α :=
  throw ⟨cause, position⟩

def fail {α : Type} (cause : ParseCause) : Parse α := do failAt (← here) cause

def accept (mark : Symbol) : Parse Bool := do
  if (← peek) = some (.symbol mark) then
    advance
    return true
  else return false

def acceptWord (word : Keyword) : Parse Bool := do
  if (← peek) = some (.keyword word) then
    advance
    return true
  else return false

def isNext (mark : Symbol) : Parse Bool := do return (← peek) = some (.symbol mark)

def expect (mark : Symbol) (wanted : String) : Parse Unit := do
  unless ← accept mark do fail (.expected wanted (← peek))

def expectSemicolon (statement : String) : Parse Unit :=
  expect .semicolon s!"';' after {statement}"

def expectName : Parse String := do
  match ← peek with
  | some (.name text) => advance; return text
  | found => fail (.expected "identifier" found)

def number (position : Position) : Parse Node := do
  let r ← get
  set { r with nextId := r.nextId + 1 }
  return ⟨r.nextId, position⟩

def type : Parse Ty := do
  if ← accept .leftBracket then
    let element ← expectName
    expect .rightBracket "']' after array element type"
    return .array (.named element)
  else
    match ← peek with
    | some (.name name) => advance; return .named name
    | found => fail (.expected "type" found)

def literal? : Token → Option Literal
  | .integer value => some (.integer value)
  | .float value => some (.float value)
  | .string value => some (.string value)
  | .char value => some (.char value)
  | .keyword .true_ => some (.bool true)
  | .keyword .false_ => some (.bool false)
  | _ => none

def negative? : Token → Option Literal
  | .integer value => some (.integer (-value))
  | .float value => some (.float (-value))
  | _ => none

def comparison? : Token → Option CompareOp
  | .symbol .equalEqual => some .equal
  | .symbol .notEqual => some .notEqual
  | .symbol .less => some .less
  | .symbol .lessEqual => some .lessEqual
  | .symbol .greater => some .greater
  | .symbol .greaterEqual => some .greaterEqual
  | _ => none

def sum? : Token → Option MathOp
  | .symbol .plus => some .add
  | .symbol .minus => some .subtract
  | _ => none

def product? : Token → Option MathOp
  | .symbol .star => some .multiply
  | .symbol .slash => some .divide
  | .symbol .percent => some .modulo
  | _ => none

def operator? {ω : Type} (class? : Token → Option ω) : Parse (Option ω) := do
  match (← peek).bind class? with
  | some op => advance; return some op
  | none => return none

-- Every function below reads with a bound on the depth of its own recursion. A bound of ten for
-- each token of the text is never reached.

mutual

/-- An expression: sums, or a comparison of two of them. Comparisons do not chain. -/
def expression : Nat → Parse Expr
  | 0 => fail .tooDeep
  | fuel + 1 => do
    let left ← sum fuel
    match ← operator? comparison? with
    | none => return left
    | some op =>
      let right ← sum fuel
      return .compare (← number left.position) op left right

def sum : Nat → Parse Expr
  | 0 => fail .tooDeep
  | fuel + 1 => do sumTail fuel (← product fuel)

def sumTail : Nat → Expr → Parse Expr
  | 0, _ => fail .tooDeep
  | fuel + 1, left => do
    match ← operator? sum? with
    | none => return left
    | some op =>
      let right ← product fuel
      sumTail fuel (.math (← number left.position) op left right)

def product : Nat → Parse Expr
  | 0 => fail .tooDeep
  | fuel + 1 => do productTail fuel (← unary fuel)

def productTail : Nat → Expr → Parse Expr
  | 0, _ => fail .tooDeep
  | fuel + 1, left => do
    match ← operator? product? with
    | none => return left
    | some op =>
      let right ← unary fuel
      productTail fuel (.math (← number left.position) op left right)

/-- An operand with the signs before it. A minus sign right before a number belongs to it. -/
def unary : Nat → Parse Expr
  | 0 => fail .tooDeep
  | fuel + 1 => do
    let start ← here
    match ← peek with
    | some (.keyword .not_) | some (.symbol .bang) =>
      advance
      let operand ← unary fuel
      return .unary (← number start) .not operand
    | some (.symbol .minus) =>
      advance
      match (← peek).bind negative? with
      | some value => advance; return .literal (← number start) value
      | none =>
        let operand ← unary fuel
        return .unary (← number start) .negate operand
    | _ => primary fuel

def primary : Nat → Parse Expr
  | 0 => fail .tooDeep
  | fuel + 1 => do
    let start ← here
    let next ← peek
    match next.bind literal?, next with
    | some value, _ => advance; return .literal (← number start) value
    | none, some (.symbol .leftParen) =>
      advance
      let inner ← expression fuel
      expect .rightParen "')' after expression"
      return inner
    | none, some (.name name) =>
      advance
      if ← isNext .leftParen then
        let args ← arguments fuel
        return .call (← number start) name args
      else if ← accept .leftBrace then
        let fields ← fieldList fuel
        expect .rightBrace "'\x7d' after struct fields"
        return .build (← number start) name fields
      else access fuel start name []
    | none, found => fail (.unexpected found)

def arguments : Nat → Parse (List Expr)
  | 0 => fail .tooDeep
  | fuel + 1 => do
    advance
    let args ← if ← isNext .rightParen then pure [] else expressionList fuel
    expect .rightParen "')' after arguments"
    return args

def expressionList : Nat → Parse (List Expr)
  | 0 => fail .tooDeep
  | fuel + 1 => do
    let first ← expression fuel
    if ← accept .comma then return first :: (← expressionList fuel) else return [first]

/-- Members with their values, up to the closing brace. A comma may follow the last one. -/
def fieldList : Nat → Parse (List Field)
  | 0 => fail .tooDeep
  | fuel + 1 => do
    if ← isNext .rightBrace then return []
    let start ← here
    let name ← expectName
    expect .colon "':' after field name"
    let field := Field.mk name start (← expression fuel)
    if ← accept .comma then return field :: (← fieldList fuel) else return [field]

/-- The rest of an access to `root`, of which `steps` are read, the last one first. -/
def access : Nat → Position → String → List Step → Parse Expr
  | 0, _, _, _ => fail .tooDeep
  | fuel + 1, start, root, steps => do
    if ← accept .leftBracket then
      let index ← expression fuel
      expect .rightBracket "']' after index"
      access fuel start root (.index index :: steps)
    else if ← accept .dot then
      let nameAt ← here
      let name ← expectName
      if ← isNext .leftParen then
        let args ← arguments fuel
        if (← isNext .dot) || (← isNext .leftBracket) then fail .methodNotLast
        return .method (← number start) root steps.reverse name nameAt args
      else access fuel start root (.member name nameAt :: steps)
    else return .place (← number start) root steps.reverse

end

def condition (fuel : Nat) (keyword : Keyword) : Parse Expr := do
  expect .leftParen s!"'(' after '{keyword.spelling}'"
  let condition ← expression fuel
  expect .rightParen "')' after condition"
  return condition

def declaration (fuel : Nat) (isConst : Bool) : Parse Stmt := do
  let start ← here
  let name ← expectName
  expect .colon "':' after variable name"
  let type ← type
  let node ← number start
  if ← accept .equal then
    let value ← expression fuel
    expectSemicolon "variable definition"
    return .define node name type value isConst
  else if isConst then fail (.constWithoutValue name)
  else
    expectSemicolon "variable declaration"
    return .declare node name type

def expressionStatement (fuel : Nat) : Parse Stmt := do
  let start ← here
  let e ← expression fuel
  if ← accept .equal then
    -- A call of a method is no place, so it is refused here and in no later step.
    match e with
    | .place node root steps =>
      let value ← expression fuel
      expectSemicolon "assignment"
      return .assign start node root steps value
    | _ => failAt e.position .notAssignable
  else
    expectSemicolon "expression statement"
    match e with
    | .call node callee args => return .call start node callee args
    | .place node root steps => return .place start node root steps
    | .method node root steps name nameAt args =>
      return .method start node root steps name nameAt args
    | _ => failAt start .bareExpression

mutual

def block : Nat → Parse (List Stmt)
  | 0 => fail .tooDeep
  | fuel + 1 => do
    expect .leftBrace "'\x7b' to open block"
    statements fuel

def statements : Nat → Parse (List Stmt)
  | 0 => fail .tooDeep
  | fuel + 1 => do
    if ← accept .rightBrace then return []
    else if (← peek).isNone then fail (.expected "'\x7d' to close block" none)
    else
      let first ← statement fuel
      return first :: (← statements fuel)

def statement : Nat → Parse Stmt
  | 0 => fail .tooDeep
  | fuel + 1 => do
    let start ← here
    match ← peek with
    | some (.keyword .var) => advance; declaration fuel false
    | some (.keyword .const) => advance; declaration fuel true
    | some (.keyword .loop) =>
      advance
      return .loop start (← block fuel)
    | some (.keyword .if_) =>
      advance
      let test ← condition fuel .if_
      let first := Branch.mk test (← block fuel)
      let elifs ← elifList fuel
      let otherwise ← if ← acceptWord .else_ then some <$> block fuel else pure none
      return .choose start first elifs otherwise
    | some (.keyword .return_) =>
      advance
      let value ← if ← isNext .semicolon then pure none else some <$> expression fuel
      expectSemicolon "return statement"
      return .return start value
    | some (.keyword .break_) =>
      advance
      expectSemicolon "'break'"
      return .break start
    | some (.keyword .continue_) =>
      advance
      expectSemicolon "'continue'"
      return .continue start
    | some (.name _) =>
      if (← peekSecond) = some (.symbol .colon) then declaration fuel false
      else expressionStatement fuel
    | _ => expressionStatement fuel

def elifList : Nat → Parse (List (Branch Stmt))
  | 0 => fail .tooDeep
  | fuel + 1 => do
    if ← acceptWord .elif then
      let test ← condition fuel .elif
      let branch := Branch.mk test (← block fuel)
      return branch :: (← elifList fuel)
    else return []

end

def memberList : Nat → Parse (List Member)
  | 0 => fail .tooDeep
  | fuel + 1 => do
    if ← isNext .rightBrace then return []
    let start ← here
    let name ← expectName
    expect .colon "':' after struct member name"
    let type ← type
    let default ← if ← accept .equal then some <$> expression fuel else pure none
    let member := Member.mk name type default start
    if ← accept .comma then return member :: (← memberList fuel) else return [member]

def entryList : Nat → Parse (List String)
  | 0 => fail .tooDeep
  | fuel + 1 => do
    if ← isNext .rightBrace then return []
    let entry ← expectName
    if ← accept .comma then return entry :: (← entryList fuel) else return [entry]

def paramList : Nat → Parse (List Param)
  | 0 => fail .tooDeep
  | fuel + 1 => do
    let start ← here
    let name ← expectName
    expect .colon "':' after parameter name"
    let byReference ← accept .star
    let param := Param.mk name (← type) byReference start
    if ← accept .comma then return param :: (← paramList fuel) else return [param]

def struct (fuel : Nat) : Parse Struct := do
  let start ← here
  let name ← expectName
  expect .leftBrace "'\x7b' after struct name"
  let members ← memberList fuel
  expect .rightBrace "'\x7d' after struct members"
  return ⟨name, members, start⟩

def enum (fuel : Nat) : Parse Enum := do
  let start ← here
  let name ← expectName
  expect .leftBrace "'\x7b' after enum name"
  let entries ← entryList fuel
  expect .rightBrace "'\x7d' after enum entries"
  return ⟨name, entries, start⟩

def function (fuel : Nat) : Parse Function := do
  let start ← here
  let name ← expectName
  expect .leftParen "'(' after function name"
  let params ← if ← isNext .rightParen then pure [] else paramList fuel
  expect .rightParen "')' after parameters"
  let returns ← if ← accept .colon then some <$> type else pure none
  let body ← block fuel
  return ⟨name, params, returns, body, start⟩

end Parse

inductive Definition where
  | function (f : Function)
  | struct (s : Struct)
  | enum (e : Enum)

namespace Definition

/-- A definition; the word before a function may be left out. -/
def parse (fuel : Nat) : Parse Definition := do
  match ← Parse.peek with
  | some (.keyword .struct) => Parse.advance; return .struct (← Parse.struct fuel)
  | some (.keyword .enum) => Parse.advance; return .enum (← Parse.enum fuel)
  | some (.keyword .func) => Parse.advance; return .function (← Parse.function fuel)
  | _ => return .function (← Parse.function fuel)

end Definition

namespace Globals

def firstRepeated? {α : Type} (key : α → String) : (earlier : List String) → List α → Option α
  | _, [] => none
  | earlier, x :: xs =>
    if earlier.contains (key x) then some x else firstRepeated? key (key x :: earlier) xs

def definesType (g : Globals) (name : String) : Bool :=
  (g.struct? name).isSome || (g.enum? name).isSome

/-- Adds a definition, unless it repeats a name. Functions have names of their own; structs and
    enums share theirs. -/
def add (g : Globals) : Definition → Except CompileError Globals
  | .function f =>
    if (g.function? f.name).isSome then .error ⟨.duplicateFunction f.name, f.position, none⟩
    else .ok { g with functions := g.functions ++ [f] }
  | .struct s =>
    if g.definesType s.name then .error ⟨.duplicateStruct s.name, s.position, none⟩
    else
      match firstRepeated? Member.name [] s.members with
      | some m => .error ⟨.duplicateMember s.name m.name, m.position, none⟩
      | none => .ok { g with structs := g.structs ++ [s] }
  | .enum e =>
    if g.definesType e.name then .error ⟨.duplicateEnum e.name, e.position, none⟩
    else
      match firstRepeated? id [] e.entries with
      | some entry => .error ⟨.duplicateEntry e.name entry, e.position, none⟩
      | none => .ok { g with enums := g.enums ++ [e] }

def parseOnto (g : Globals) (fuel : Nat) : (definitions : Nat) → Reader → Except Error Globals
  | 0, r => if r.rest.isEmpty then .ok g else .error (.parse ⟨.tooDeep, r.finish⟩)
  | definitions + 1, r =>
    if r.rest.isEmpty then .ok g
    else
      match (Definition.parse fuel).run r with
      | .error e => .error (.parse e)
      | .ok (d, r) =>
        match g.add d with
        | .error e => .error (.compile e)
        | .ok g => parseOnto g fuel definitions r

def ofLexemes (l : Lexemes) : Except Error Globals :=
  parseOnto empty (10 * (l.list.length + 1)) l.list.length ⟨l.list, l.finish, 0⟩

def parse (source : String) : Except Error Globals :=
  match Lexemes.ofSource source with
  | .error e => .error (.parse e.toParse)
  | .ok l => ofLexemes l

end Globals
end LoopLang
