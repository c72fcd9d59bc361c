import BnkForge.Lib.PythonText
import Mathlib.Algebra.Order.Floor.Ring
import Mathlib.Data.Rat.Floor

/-!
# Python values

The values of a JSON document as Python has them: `None`, booleans, numbers, text, lists and dicts,
with the conversions `bool`, `int` and `str`. A dict is the list of its items; how floats, lists and
dicts print is a parameter.
-/

namespace Python

inductive FloatValue
  | finite (value : ℚ)
  | infinite (negative : Bool)
  | nan
  deriving DecidableEq

inductive Value
  | none
  | bool (b : Bool)
  | int (n : Int)
  | float (x : FloatValue)
  | str (s : String)
  | list (items : List Value)
  | dict (items : List (String × Value))

/-- What a conversion to `int` raises. -/
inductive IntError
  | valueError
  | typeError
  | overflowError
  deriving DecidableEq, Repr

namespace Value

def items : Value → List (String × Value)
  | .dict items => items
  | _ => []

/-- `value.get(key)` of a dict. -/
def get (v : Value) (key : String) : Value := (v.items.lookup key).getD .none

/-- `isinstance(value, dict)`. -/
def isDict : Value → Bool
  | .dict _ => true
  | _ => false

/-- `isinstance(value, str)`. -/
def isStr : Value → Bool
  | .str _ => true
  | _ => false

/-- `isinstance(value, list)`. -/
def isList : Value → Bool
  | .list _ => true
  | _ => false

/-- `isinstance(value, bool)`. -/
def isBool : Value → Bool
  | .bool _ => true
  | _ => false

/-- `value is None`. -/
def isNone : Value → Bool
  | .none => true
  | _ => false

/-- `isinstance(value, (str, int, float, bool))`. -/
def isScalar : Value → Bool
  | .none => false
  | .list _ => false
  | .dict _ => false
  | _ => true

/-- `bool(value)`. -/
def truthy : Value → Bool
  | .none => false
  | .bool b => b
  | .int n => n != 0
  | .float (.finite x) => x != 0
  | .float _ => true
  | .str s => !s.isEmpty
  | .list items => !items.isEmpty
  | .dict items => !items.isEmpty

/-- `value == 1`. -/
def isOne : Value → Bool
  | .bool b => b
  | .int n => n == 1
  | .float (.finite x) => x == 1
  | _ => false

def asNumber : Value → Option FloatValue
  | .bool b => some (.finite (if b then 1 else 0))
  | .int n => some (.finite n)
  | .float x => some x
  | _ => Option.none

mutual

/-- `a == b`. -/
def equals : Value → Value → Bool
  | .list xs, .list ys => equalsList xs ys
  | .dict xs, .dict ys => xs.length == ys.length && equalsItems xs ys
  | .str s, .str t => s == t
  | .none, .none => true
  | a, b =>
    match a.asNumber, b.asNumber with
    | some x, some y => x == y && x != .nan
    | _, _ => false

def equalsList : List Value → List Value → Bool
  | [], [] => true
  | x :: xs, y :: ys => equals x y && equalsList xs ys
  | _, _ => false

def equalsItems : List (String × Value) → List (String × Value) → Bool
  | [], _ => true
  | (key, x) :: xs, ys =>
    (match ys.lookup key with
      | some y => equals x y
      | Option.none => false) && equalsItems xs ys

end

/-- `str(value)`; `repr` prints floats, lists and dicts. -/
def toText (repr : Value → String) : Value → String
  | .none => "None"
  | .bool true => "True"
  | .bool false => "False"
  | .int n => toString n
  | .str s => s
  | v => repr v

/-- `a or b`. -/
def orElse (a b : Value) : Value := if a.truthy then a else b

/-- `isinstance(value, str) and bool(value.strip())`. -/
def isNonEmptyString : Value → Bool
  | .str s => !(strip s.toList).isEmpty
  | _ => false

/-- The part of a number before its point. -/
def truncate (x : ℚ) : Int := if x < 0 then ⌈x⌉ else ⌊x⌋

/-- `int(value)`. A text of more than 4300 digits is refused. -/
def toInt : Value → Except IntError Int
  | .bool b => .ok (if b then 1 else 0)
  | .int n => .ok n
  | .float (.finite x) => .ok (truncate x)
  | .float (.infinite _) => .error .overflowError
  | .float .nan => .error .valueError
  | .str s =>
    if 4300 < s.toList.countP fun c ↦ (digitValue c).isSome then .error .valueError
    else
      match Python.int s with
      | some n => .ok n
      | Option.none => .error .valueError
  | _ => .error .typeError

end Value

/-! ### Operations that raise -/

inductive Raised
  | attributeError
  | typeError
  | valueError
  | overflowError
  deriving DecidableEq, Repr

namespace Value

/-- `value == text`. -/
def isText (v : Value) (text : String) : Bool :=
  match v with
  | .str s => s == text
  | _ => false

/-- `value.get(key)` of any value. -/
def get? (v : Value) (key : String) : Except Raised Value :=
  if v.isDict then .ok (v.get key) else .error .attributeError

/-- `value.startswith(start)`. -/
def startsWith? (v : Value) (start : String) : Except Raised Bool :=
  match v with
  | .str s => .ok (start.toList.isPrefixOf s.toList)
  | _ => .error .attributeError

/-- `for item in value`: a text gives its characters and a dict its keys. -/
def iterate : Value → Except Raised (List Value)
  | .list items => .ok items
  | .str s => .ok (s.toList.map fun c ↦ .str (String.singleton c))
  | .dict items => .ok (items.map fun i ↦ .str i.1)
  | _ => .error .typeError

/-- `hash(value)` is defined. -/
def hashable : Value → Bool
  | .list _ => false
  | .dict _ => false
  | _ => true

/-- `int(value)`, with what it raises as one of the errors of all operations. -/
def number (v : Value) : Except Raised Int :=
  match v.toInt with
  | .ok n => .ok n
  | .error .valueError => .error .valueError
  | .error .typeError => .error .typeError
  | .error .overflowError => .error .overflowError

end Value

/-- `os.path.normpath` of POSIX: the parts of a path in order, with `..` resolved. -/
def normParts (absolute : Bool) (parts : List (List Char)) : List (List Char) :=
  parts.foldl (fun done part ↦
    if part = [] ∨ part = ['.'] then done
    else if part ≠ ['.', '.'] ∨ (absolute = false ∧ done = []) ∨ done.getLast? = some ['.', '.'] then
      done ++ [part]
    else done.dropLast) []

/-- `os.path.normpath`; two slashes at the beginning, and not three, are kept. -/
def normpath (path : List Char) : List Char :=
  let slashes :=
    if ['/', '/'].isPrefixOf path && !(['/', '/', '/'].isPrefixOf path) then 2
    else if ['/'].isPrefixOf path then 1 else 0
  let text := List.replicate slashes '/' ++
    ['/'].intercalate (normParts (0 < slashes) (path.splitOn '/'))
  if text = [] then ['.'] else text

end Python
