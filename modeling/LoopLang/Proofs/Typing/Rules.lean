import LoopLang.Typing.Stmt

namespace LoopLang

namespace Ty

/-- A type that is resolved, and whose structs and enums the program defines. -/
def Known (g : Globals) : Ty → Prop
  | named _ | any => False
  | primitive _ => True
  | array element => element.Known g
  | struct name => name ∈ g.structs.map Struct.name
  | enum name => name ∈ g.enums.map Enum.name

end Ty

namespace Method

def signatureOn (m : Method) : Ty → Signature
  | .array element => m.signature.ofItems element
  | _ => m.signature

end Method

variable (p : Program)

mutual

inductive Expr.Typed (names : Scopes Binding) : Expr → Ty → Prop where
  | literal {node value type} :
    Ty.ofLiteral value = .ok type →
    p.types[node.id]? = some type →
    Expr.Typed names (.literal node value) type
  | place {node root steps b type inString} :
    names.get? root = some b →
    Step.Lead names b.type steps type inString →
    p.types[node.id]? = some type →
    Expr.Typed names (.place node root steps) type
  | entry {node root name nameAt e} :
    names.get? root = none →
    p.globals.enum? root = some e →
    name ∈ e.entries →
    p.types[node.id]? = some (.enum root) →
    Expr.Typed names (.place node root [.member name nameAt]) (.enum root)
  | method {node root steps name nameAt args b receiver inString m type} :
    names.get? root = some b →
    Step.Lead names b.type steps receiver inString →
    Method.ofTy? receiver name = some m →
    (m.mutates = true → b.mutability ≠ .constant) →
    Expr.Match names (m.signatureOn receiver).params args →
    m.signature.returns = some type →
    p.types[node.id]? = some type →
    Expr.Typed names (.method node root steps name nameAt args) type
  | call {node callee args s type} :
    p.globals.signature? callee = some s →
    Expr.Match names s.params args →
    s.returns = some type →
    p.types[node.id]? = some type →
    Expr.Typed names (.call node callee args) type
  /-- Two literals, whose result is computed at once and picks the type. -/
  | folded {node op left right l r a b result type} :
    Expr.Typed names left l →
    Expr.Typed names right r →
    left.constant? = some a →
    right.constant? = some b →
    a.fold op b = .ok (some result) →
    Ty.ofConstant result = .ok type →
    p.types[node.id]? = some type →
    Expr.Typed names (.math node op left right) type
  | math {node op left right l r type} :
    Expr.Typed names left l →
    Expr.Typed names right r →
    (∀ a ∈ left.constant?, ∀ b ∈ right.constant?, a.fold op b = .ok none) →
    Ty.ofMath op l r = .ok type →
    p.types[node.id]? = some type →
    Expr.Typed names (.math node op left right) type
  | compare {node op left right l r type} :
    Expr.Typed names left l →
    Expr.Typed names right r →
    Ty.ofCompare op l r = .ok type →
    p.types[node.id]? = some type →
    Expr.Typed names (.compare node op left right) type
  | unary {node op operand t type} :
    Expr.Typed names operand t →
    Ty.ofUnary op t = .ok type →
    p.types[node.id]? = some type →
    Expr.Typed names (.unary node op operand) type
  | build {node name given s} :
    p.globals.struct? name = some s →
    Field.Fill names s [] given →
    (∀ m ∈ s.members, m.name ∈ given.map Field.name ∨ m.default.isSome ∨
      p.globals.hasDefault m.type = true) →
    p.types[node.id]? = some (.struct name) →
    Expr.Typed names (.build node name given) (.struct name)

/-- Steps lead from a place of one type to a place of another, or else to a character of a
    string, which is no place. -/
inductive Step.Lead (names : Scopes Binding) : Ty → List Step → Ty → (inString : Bool) → Prop where
  | here {type} : Step.Lead names type [] type false
  | item {element index i steps type inString} :
    Expr.Typed names index i →
    i.int?.isSome →
    Step.Lead names element steps type inString →
    Step.Lead names (.array element) (.index index :: steps) type inString
  | character {index i} :
    Expr.Typed names index i →
    i.int?.isSome →
    Step.Lead names .string [.index index] (.primitive .char) true
  | member {struct name nameAt s m steps type inString} :
    p.globals.struct? struct = some s →
    s.member? name = some m →
    Step.Lead names m.type steps type inString →
    Step.Lead names (.struct struct) (.member name nameAt :: steps) type inString

inductive Expr.Match (names : Scopes Binding) : List Param → List Expr → Prop where
  | nil : Expr.Match names [] []
  | value {param params arg args type} :
    param.byReference = false →
    Expr.Typed names arg type →
    param.type.accepts type = true →
    Expr.Match names params args →
    Expr.Match names (param :: params) (arg :: args)
  | reference {param params node name args} :
    param.byReference = true →
    names.get? name = some ⟨param.type, .mutable⟩ →
    Expr.Match names params args →
    Expr.Match names (param :: params) (.place node name [] :: args)

/-- Members that a struct is built with, after those that were given earlier. -/
inductive Field.Fill (names : Scopes Binding) : Struct → (earlier : List String) → List Field →
    Prop where
  | nil {s earlier} : Field.Fill names s earlier []
  | cons {s earlier name nameAt value given m type} :
    s.member? name = some m →
    name ∉ earlier →
    Expr.Typed names value type →
    m.type.accepts type = true →
    Field.Fill names s (name :: earlier) given →
    Field.Fill names s earlier (.mk name nameAt value :: given)

end

mutual

/-- A statement of a function that returns `returns`, with the names before and after it. -/
inductive Stmt.Typed (returns : Option Ty) :
    (inLoop : Bool) → Scopes Binding → Stmt → Scopes Binding → Prop where
  | declare {inLoop names names' node name written type} :
    Ty.resolve p.globals node.position written = .ok type →
    type.Known p.globals →
    p.globals.hasDefault type = true →
    p.types[node.id]? = some type →
    names.define? name ⟨type, .mutable⟩ = some names' →
    Stmt.Typed returns inLoop names (.declare node name written) names'
  | define {inLoop names names' node name written value isConst type found} :
    Ty.resolve p.globals node.position written = .ok type →
    type.Known p.globals →
    value.Typed p names found →
    type.accepts found = true →
    p.types[node.id]? = some type →
    names.define? name ⟨type, if isConst then .constant else .mutable⟩ = some names' →
    Stmt.Typed returns inLoop names (.define node name written value isConst) names'
  | assign {inLoop names position target root steps value b found type} :
    names.get? root = some b →
    b.mutability ≠ .constant →
    (b.mutability = .parameter → steps ≠ []) →
    value.Typed p names found →
    Step.Lead p names b.type steps type false →
    p.types[target.id]? = some type →
    type.accepts found = true →
    Stmt.Typed returns inLoop names (.assign position target root steps value) names
  | loop {inLoop names inner position body} :
    Stmt.BlockTyped returns true names.push body inner →
    Stmt.Typed returns inLoop names (.loop position body) names
  | choose {inLoop names position first elifs otherwise} :
    Stmt.BranchesTyped returns inLoop names (first :: elifs) otherwise →
    Stmt.Typed returns inLoop names (.choose position first elifs otherwise) names
  | returnValue {inLoop names position e type found} :
    returns = some type →
    e.Typed p names found →
    type.accepts found = true →
    Stmt.Typed returns inLoop names (.return position (some e)) names
  | returnNothing {inLoop names position} :
    returns = none →
    Stmt.Typed returns inLoop names (.return position none) names
  | break {names position} : Stmt.Typed returns true names (.break position) names
  | continue {names position} : Stmt.Typed returns true names (.continue position) names
  | call {inLoop names position node callee args s} :
    p.globals.signature? callee = some s →
    Expr.Match p names s.params args →
    Stmt.Typed returns inLoop names (.call position node callee args) names
  | method {inLoop names position node root steps name nameAt args b receiver inString m} :
    names.get? root = some b →
    Step.Lead p names b.type steps receiver inString →
    Method.ofTy? receiver name = some m →
    (m.mutates = true → b.mutability ≠ .constant) →
    Expr.Match p names (m.signatureOn receiver).params args →
    Stmt.Typed returns inLoop names (.method position node root steps name nameAt args) names

inductive Stmt.BlockTyped (returns : Option Ty) :
    (inLoop : Bool) → Scopes Binding → List Stmt → Scopes Binding → Prop where
  | nil {inLoop names} : Stmt.BlockTyped returns inLoop names [] names
  | cons {inLoop names next names' s rest} :
    Stmt.Typed returns inLoop names s next →
    Stmt.BlockTyped returns inLoop next rest names' →
    Stmt.BlockTyped returns inLoop names (s :: rest) names'

inductive Stmt.BranchesTyped (returns : Option Ty) :
    (inLoop : Bool) → Scopes Binding → List (Branch Stmt) → Option (List Stmt) → Prop where
  | none {inLoop names} : Stmt.BranchesTyped returns inLoop names [] none
  | otherwise {inLoop names inner body} :
    Stmt.BlockTyped returns inLoop names.push body inner →
    Stmt.BranchesTyped returns inLoop names [] (some body)
  | cons {inLoop names inner branch branches otherwise} :
    branch.condition.Typed p names .bool →
    Stmt.BlockTyped returns inLoop names.push branch.body inner →
    Stmt.BranchesTyped returns inLoop names branches otherwise →
    Stmt.BranchesTyped returns inLoop names (branch :: branches) otherwise

end

inductive Expr.Constant : Expr → Ty → Prop where
  | literal {node value type} :
    Ty.ofLiteral value = .ok type →
    p.types[node.id]? = some type →
    Expr.Constant (.literal node value) type
  | entry {node root name nameAt e} :
    p.globals.enum? root = some e →
    name ∈ e.entries →
    Expr.Constant (.place node root [.member name nameAt]) (.enum root)

structure Struct.Typed (s : Struct) : Prop where
  distinct : (s.members.map Member.name).Nodup
  known : ∀ m ∈ s.members, m.type.Known p.globals
  defaults : ∀ m ∈ s.members, ∀ e ∈ m.default, ∃ found,
    e.Constant p found ∧ m.type.accepts found = true

namespace Scopes

def ofParam (param : Param) : Binding :=
  ⟨param.type, if param.byReference then .mutable else .parameter⟩

def ofParams (params : List Param) : Scopes Binding :=
  params.foldl (fun s param => (s.define? param.name (ofParam param)).getD s) empty

end Scopes

structure Function.Typed (f : Function) : Prop where
  params : ∀ param ∈ f.params, param.type.Known p.globals
  returns : ∀ type ∈ f.returns, type.Known p.globals
  body : ∃ names', Stmt.BlockTyped p f.returns false (Scopes.ofParams f.params) f.body names'

structure Program.Typed : Prop where
  structs : ∀ s ∈ p.globals.structs, s.Typed p
  functions : ∀ f ∈ p.globals.functions, f.Typed p

end LoopLang
