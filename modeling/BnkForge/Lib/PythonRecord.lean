import BnkForge.Lib.PythonValue

/-!
# Fields of Python dicts

How a program reads a dict whose fields may be missing or of another type, and what it reads where
they are there.
-/

namespace Python

/-- `value.get(key, default)`. -/
def getOr (value : Value) (key : String) (default : Value) : Except Raised Value :=
  if value.isDict then .ok ((value.items.lookup key).getD default) else .error .attributeError

/-- The items of a dict, for `keys()`, `items()` and subscripts. -/
def itemsOf (value : Value) : Except Raised (List (String × Value)) :=
  if value.isDict then .ok value.items else .error .attributeError

def textOf : Value → String
  | .str s => s
  | _ => ""

def elementsOf : Value → List Value
  | .list items => items
  | _ => []

variable {value default : Value} {key : String} {repr : Value → String}

theorem getOr_of_isDict (h : value.isDict) :
    getOr value key default = .ok ((value.items.lookup key).getD default) := if_pos h

theorem isDict_of_get (h : (value.get key).isNone = false) : value.isDict := by
  cases value with
  | dict items => rfl
  | _ => cases h

/-- A key that has a value other than `None` is read as that value. -/
theorem getOr_of_get (h : (value.get key).isNone = false) :
    getOr value key default = .ok (value.get key) := by
  rw [getOr_of_isDict (isDict_of_get h)]
  unfold Value.get at h ⊢
  cases hlookup : value.items.lookup key with
  | none => simp [hlookup, Value.isNone] at h
  | some v => rfl

theorem isNone_of_isStr (h : value.isStr) : value.isNone = false := by
  cases value <;> first | rfl | cases h

theorem isNone_of_isDict (h : value.isDict) : value.isNone = false := by
  cases value <;> first | rfl | cases h

theorem isNone_of_isList (h : value.isList) : value.isNone = false := by
  cases value <;> first | rfl | cases h

/-- A field that is left out is read as its default. -/
theorem getOr_of_lookup (hdict : value.isDict) (h : value.items.lookup key = none) :
    getOr value key default = .ok default := by
  rw [getOr_of_isDict hdict, h]
  rfl

theorem toText_of_isStr (h : value.isStr) : value.toText repr = textOf value := by
  cases value with
  | str s => rfl
  | _ => cases h

theorem iterate_of_isList (h : value.isList) : value.iterate = .ok (elementsOf value) := by
  cases value with
  | list items => rfl
  | _ => cases h

end Python
