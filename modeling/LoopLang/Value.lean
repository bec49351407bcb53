import LoopLang.Decimal.Text
import LoopLang.Ty

namespace LoopLang

/-- What a program computes with. An integer knows its type, and so does an array its element
    type. The members of a struct have no order of their own. -/
inductive Value where
  | int (value : Int) (type : IntTy)
  | float (value : Float32)
  | string (value : String)
  | bool (value : Bool)
  | char (value : Char)
  | struct (name : String) (fields : List (String × Value))
  | enum (name member : String)
  | array (element : Ty) (items : List Value)
  deriving Inhabited

namespace Value

def int? : Value → Option Int
  | int value _ => some value
  | _ => none

def bool? : Value → Option Bool
  | bool value => some value
  | _ => none

def primitive? : Value → Option Primitive
  | int _ type => some (.int type)
  | float _ => some .f32
  | string _ => some .string
  | bool _ => some .bool
  | char _ => some .char
  | _ => none

def kind : Value → String
  | int _ type => type.name
  | float _ => "f32"
  | string _ => "string"
  | bool _ => "bool"
  | char _ => "char"
  | struct name _ => s!"struct {name}"
  | enum name _ => s!"enum {name}"
  | array element _ => s!"[{element.describe}]"

mutual

/-- Equality of what values mean: the types of integers and of array elements do not count, at
    any depth. Floats compare as numbers, so that NaN equals nothing. -/
def equals : Value → Value → Bool
  | int a _, int b _ => a == b
  | float a, float b => a == b
  | string a, string b => a == b
  | bool a, bool b => a == b
  | char a, char b => a == b
  | struct m fs, struct n gs => m == n && fs.length == gs.length && fieldsEqual fs gs
  | enum m a, enum n b => m == n && a == b
  | array _ xs, array _ ys => itemsEqual xs ys
  | _, _ => false
termination_by structural v => v

def fieldsEqual : List (String × Value) → List (String × Value) → Bool
  | [], _ => true
  | (name, v) :: fs, gs =>
    (match gs.lookup name with
      | some w => equals v w
      | none => false) && fieldsEqual fs gs
termination_by structural fs => fs

def itemsEqual : List Value → List Value → Bool
  | [], [] => true
  | x :: xs, y :: ys => equals x y && itemsEqual xs ys
  | _, _ => false
termination_by structural xs => xs

end

mutual

def identical : Value → Value → Bool
  | int a s, int b t => a == b && s == t
  | float a, float b => a == b
  | string a, string b => a == b
  | bool a, bool b => a == b
  | char a, char b => a == b
  | struct m fs, struct n gs => m == n && fs.length == gs.length && fieldsIdentical fs gs
  | enum m a, enum n b => m == n && a == b
  | array s xs, array t ys => s == t && itemsIdentical xs ys
  | _, _ => false
termination_by structural v => v

def fieldsIdentical : List (String × Value) → List (String × Value) → Bool
  | [], _ => true
  | (name, v) :: fs, gs =>
    (match gs.lookup name with
      | some w => identical v w
      | none => false) && fieldsIdentical fs gs
termination_by structural fs => fs

def itemsIdentical : List Value → List Value → Bool
  | [], [] => true
  | x :: xs, y :: ys => identical x y && itemsIdentical xs ys
  | _, _ => false
termination_by structural xs => xs

end

/-- The order of two values that have one. The inner `none` is that of NaN, which stands before
    and behind nothing. Strings are in the order of their code points. -/
def order? : Value → Value → Option (Option Ordering)
  | int a _, int b _ => some (some (compare a b))
  | float a, float b =>
    some (if a < b then some .lt else if a == b then some .eq else if b < a then some .gt else none)
  | char a, char b => some (some (compare a b))
  | string a, string b => some (some (compare a b))
  | _, _ => none

/-- The value as one of type `target`. Only the types of integers and of array elements change:
    whoever coerces has seen to it that the number fits. -/
def coerce : Value → Ty → Value
  | int value _, .primitive (.int type) => int value type
  | array _ items, .array element => array element (items.map fun item => item.coerce element)
  | v, _ => v
termination_by structural _ target => target

def insertField (name : String) (v : Value) : List (String × Value) → List (String × Value)
  | [] => [(name, v)]
  | (other, w) :: fields =>
    if other = name then (name, v) :: fields else (other, w) :: insertField name v fields

def insertSorted (entry : String × String) : List (String × String) → List (String × String)
  | [] => [entry]
  | other :: entries =>
    if other.1 < entry.1 then other :: insertSorted entry entries else entry :: other :: entries

mutual

def display : Value → String
  | int value _ => toString value
  | float value => Decimal.printed value
  | string value => value
  | bool value => if value then "true" else "false"
  | char value => value.toString
  | struct name fields =>
    let members := (displayFields fields).foldr insertSorted []
    name ++ " \x7b" ++ ",".intercalate (members.map fun (name, text) => s!" {name}: {text}") ++
      " \x7d"
  | enum name member => s!"{name}.{member}"
  | array _ items => "[" ++ ", ".intercalate (displayItems items) ++ "]"
termination_by structural v => v

def displayFields : List (String × Value) → List (String × String)
  | [] => []
  | (name, v) :: fields => (name, display v) :: displayFields fields
termination_by structural fields => fields

def displayItems : List Value → List String
  | [] => []
  | v :: items => display v :: displayItems items
termination_by structural items => items

end

end Value
end LoopLang
