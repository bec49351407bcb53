import LoopLang.Typing.Context

namespace LoopLang

namespace Ty

def ofLiteral : Literal → Except CompileCause Ty
  | .integer value =>
    match IntTy.ofLiteral? value with
    | some t => .ok (int t)
    | none => .error (.literalOutOfRange value)
  | .float _ => .ok (primitive .f32)
  | .string _ => .ok string
  | .char _ => .ok (primitive .char)
  | .bool _ => .ok bool

def ofConstant : Constant → Except CompileCause Ty
  | .int value => ofLiteral (.integer value)
  | .float _ => .ok (primitive .f32)

def ofEnumMember (g : Globals) (enum member : String) : Except CompileCause Ty :=
  if (g.enum? enum).any (·.entries.contains member) then .ok (.enum enum)
  else .error (.unknownEnumMember enum member)

def supports (op : MathOp) : Ty → Bool
  | primitive .string => op == .add
  | primitive p => p.isNumeric
  | _ => false

def isOrdered : Ty → Bool
  | primitive p => p.isOrdered
  | _ => false

/-- The type of an operation on operands that are not both literals. -/
def ofMath (op : MathOp) (left right : Ty) : Except CompileCause Ty :=
  match common? left right with
  | none => .error (.operandMismatch op.symbol left right)
  | some type =>
    if type.supports op then .ok type else .error (.unsupportedOperator op.symbol type)

def ofCompare (op : CompareOp) (left right : Ty) : Except CompileCause Ty :=
  match common? left right with
  | none => .error (.comparisonMismatch op.symbol left right)
  | some type =>
    if op.isOrdering && !type.isOrdered then .error (.unsupportedOperator op.symbol type)
    else .ok bool

def isNegatable : Ty → Bool
  | primitive p => p.isSigned || p == .f32
  | _ => false

def ofUnary (op : UnaryOp) (operand : Ty) : Except CompileCause Ty :=
  match op with
  | .not => if operand = bool then .ok bool else .error (.notOfNonBool operand)
  | .negate => if operand.isNegatable then .ok operand else .error (.notNegatable operand)

def item? : Ty → Option Ty
  | array element => some element
  | primitive .string => some (primitive .char)
  | _ => none

end Ty

namespace Globals

/-- What a call refers to: functions of the program come before those that are built in. -/
def signature? (g : Globals) (callee : String) : Option Signature :=
  match g.function? callee with
  | some f => some ⟨f.name, f.params, f.returns⟩
  | none => (Builtin.ofName? callee).map (·.signature)

end Globals

namespace Signature

/-- The signature of a method of an array of `element`: what it takes in general is an item here. -/
def ofItems (s : Signature) (element : Ty) : Signature :=
  { s with params := s.params.map fun p => if p.type = .any then { p with type := element } else p }

end Signature

inductive Reached where
  | enum (name : String)
  /-- A part of a variable; a character of a string is no place of its own. -/
  | part (type : Ty) (inString : Bool)
  deriving DecidableEq, Repr

namespace Check

/-- What a name at the root of an access means: a variable before an enum. -/
def root (g : Globals) (name : String) (position : Position) : Check Reached := do
  match ← binding? name with
  | some b => return .part b.type false
  | none => if g.isEnum name then return .enum name else fail position (.unknownVariable name)

def memberType (g : Globals) (type : Ty) (name : String) (position : Position) : Check Ty :=
  match type with
  | .struct struct =>
    match g.struct? struct with
    | none => failInternally position (.structNotGlobal struct)
    | some s =>
      match s.member? name with
      | some m => return m.type
      | none => fail position (.unknownField struct name)
  | other => fail position (.noMember other name)

/-- A receiver that a method changes belongs to a variable that is no constant. -/
def receiverMayChange (root method : String) (position : Position) : Check Unit := do
  match ← binding? root with
  | none => failInternally position .receiverNotVariable
  | some b =>
    if b.mutability = .constant then fail position (.mutationOfConstant method root)

def method (root : String) (receiver : Ty) (name : String) (position : Position) :
    Check Signature := do
  match receiver with
  | .struct struct => fail position (.methodOnStruct struct)
  | .enum enum => fail position (.methodOnEnum enum)
  | .named _ | .any => failInternally position (.receiverUnresolved receiver)
  | .array _ | .primitive _ =>
    match Method.ofTy? receiver name with
    | none => fail position (.unknownMethod receiver name)
    | some m =>
      if m.mutates then receiverMayChange root name position
      match receiver with
      | .array element => return m.signature.ofItems element
      | _ => return m.signature

def function (g : Globals) (callee : String) (position : Position) : Check Signature :=
  match g.signature? callee with
  | some s => return s
  | none => fail position (.unknownFunction callee)

def argumentCount (callee : String) (params : List Param) (args : List Expr)
    (position : Position) : Check Unit := do
  if params.length ≠ args.length then
    fail position (.argumentCount callee params.length args.length)

/-- An argument by reference is a variable that may change and has exactly the parameter's
    type. -/
def referenceArgument (callee : String) (param : Param) (arg : Expr) : Check Unit := do
  match arg.bareName? with
  | none => fail arg.position (.referenceToNonVariable param.name callee)
  | some name =>
    match ← binding? name with
    | none => fail arg.position (.unknownVariable name)
    | some b =>
      if b.mutability ≠ .mutable then fail arg.position (.referenceToReadOnly name)
      else if b.type ≠ param.type then
        fail arg.position (.referenceMismatch param.name callee param.type b.type)
      else record arg.node b.type

def missingFields (g : Globals) (s : Struct) (given : List String) (position : Position) :
    Check Unit :=
  match s.members.find? fun m =>
      !given.contains m.name && m.default.isNone && !g.hasDefault m.type with
  | some m => fail position (.missingField m.name s.name)
  | none => return

mutual

/-- The type of an expression, which is noted for each of its nodes. -/
def expr (g : Globals) : Expr → Check Ty
  | .literal node value => do
    let type ← liftAt node.position (Ty.ofLiteral value)
    record node type
    return type
  | .place node name path => do
    let (type, _) ← steps g node.position (← root g name node.position) path
    record node type
    return type
  | .method node name path called calledAt args => do
    let (receiver, _) ← steps g node.position (← root g name node.position) path
    let s ← method name receiver called calledAt
    argumentCount called s.params args calledAt
    arguments g called s.params args
    match s.returns with
    | none => fail node.position (.methodWithoutValue called)
    | some type =>
      record node type
      return type
  | .call node callee args => do
    let s ← function g callee node.position
    argumentCount callee s.params args node.position
    arguments g callee s.params args
    match s.returns with
    | none => fail node.position (.functionWithoutValue callee)
    | some type =>
      record node type
      return type
  | .math node op left right => do
    let l ← expr g left
    let r ← expr g right
    let folded ←
      match left.constant?, right.constant? with
      | some a, some b => liftAt node.position ((a.fold op b).mapError .fold)
      | _, _ => pure none
    let type ← liftAt node.position <|
      match folded with
      | some constant => Ty.ofConstant constant
      | none => Ty.ofMath op l r
    record node type
    return type
  | .compare node op left right => do
    let l ← expr g left
    let r ← expr g right
    let type ← liftAt node.position (Ty.ofCompare op l r)
    record node type
    return type
  | .unary node op operand => do
    let type ← liftAt node.position (Ty.ofUnary op (← expr g operand))
    record node type
    return type
  | .build node name given => do
    match g.struct? name with
    | none => fail node.position (.unknownStruct name)
    | some s =>
      fields g s [] given
      missingFields g s (given.map (·.name)) node.position
      record node (.struct name)
      return .struct name
termination_by structural e => e

/-- The type of the place that steps lead to, and whether it is a character of a string. -/
def steps (g : Globals) (position : Position) : Reached → List Step → Check (Ty × Bool)
  | .enum enum, .member name at_ :: path => do
    let type ← liftAt at_ (Ty.ofEnumMember g enum name)
    steps g position (.part type false) path
  | .enum enum, _ => fail position (.enumWithoutMember enum)
  | .part type inString, [] => return (type, inString)
  | .part type inString, .index index :: path => do
    let t ← expr g index
    if t.int?.isNone then fail index.position (.indexNotInteger t)
    match type.item? with
    | some item => steps g position (.part item (inString || type == .string)) path
    | none => fail index.position (.notIndexable type)
  | .part type inString, .member name at_ :: path => do
    steps g position (.part (← memberType g type name at_) inString) path
termination_by structural _ path => path

def arguments (g : Globals) (callee : String) : List Param → List Expr → Check Unit
  | param :: params, arg :: args => do
    if param.byReference then referenceArgument callee param arg
    else
      let type ← expr g arg
      unless param.type.accepts type do
        fail arg.position (.argumentMismatch param.name callee param.type type)
    arguments g callee params args
  | _, _ => return
termination_by structural _ args => args

def fields (g : Globals) (s : Struct) (earlier : List String) : List Field → Check Unit
  | [] => return
  | .mk name position value :: rest => do
    match s.member? name with
    | none => fail position (.unknownField s.name name)
    | some m =>
      if earlier.contains name then fail position (.duplicateField name)
      let type ← expr g value
      unless m.type.accepts type do
        fail value.position (.fieldMismatch name m.type type)
      fields g s (name :: earlier) rest
termination_by structural given => given

end

end Check
end LoopLang
