import SotRwb1.Lib.Numeral

/-!
# JSON values as Python sees them

The values `json.loads` returns, with the parts of Python's object protocol that
code handling an untrusted document relies on: truthiness, comparison with an
integer, `isinstance(x, int)` (which includes booleans), and `.get` on
something that need not be a dictionary.  `None` is `null`, so `.get` of a
missing key is `null`.

## Main definitions

* `Json`, `PyError` — values and exceptions.
* `Json.truthy`, `Json.or`, `Json.hashable` — `bool(x)`, `x or y`, whether `hash(x)` is defined.
* `Json.eqInt`, `Json.asInt` — `x == n`, `isinstance`.
* `Json.getAttr`, `Json.getDefault` — `x.get(key)`, `x.get(key, default)`.
-/

namespace PyLib

/-- A JSON value. -/
inductive Json where
  | null
  | bool (b : Bool)
  | int (n : ℤ)
  | float (x : PyFloat)
  | str (s : String)
  | arr (items : List Json)
  | obj (fields : List (String × Json))

/-- The exceptions the modelled code can raise. -/
inductive PyError where
  | attributeError
  | typeError
  | valueError
  | overflowError
  | recursionError
  | invalidStateError
  deriving DecidableEq

namespace Json

/-- `bool(x)`. -/
def truthy : Json → Bool
  | null => false
  | bool b => b
  | int n => n ≠ 0
  | float (.finite q) => q ≠ 0
  | float _ => true
  | str s => s ≠ ""
  | arr items => !items.isEmpty
  | obj fields => !fields.isEmpty

/-- `x or y`. -/
def or (x y : Json) : Json := if x.truthy then x else y

/-- Whether `hash(x)` is defined. -/
def hashable : Json → Bool
  | arr _ => false
  | obj _ => false
  | _ => true

/-- `x == n`: booleans and floats compare with integers by value. -/
def eqInt (x : Json) (n : ℤ) : Bool :=
  match x with
  | bool b => (if b then 1 else 0) = n
  | int m => m = n
  | float (.finite q) => q = n
  | _ => false

/-- The integer behind `x` when `isinstance(x, int)`. -/
def asInt : Json → Option ℤ
  | int n => some n
  | bool b => some (if b then 1 else 0)
  | _ => none

/-- `x.get(key)`: only a dictionary has the attribute. -/
def getAttr (x : Json) (key : String) : Except PyError Json :=
  match x with
  | obj fields => .ok ((fields.lookup key).getD null)
  | _ => .error .attributeError

/-- `x.get(key, default)`. -/
def getDefault (x : Json) (key : String) (default : Json) : Except PyError Json :=
  match x with
  | obj fields => .ok ((fields.lookup key).getD default)
  | _ => .error .attributeError

/-- Whether `x` is a dictionary. -/
def isObj : Json → Bool
  | obj _ => true
  | _ => false

@[simp] theorem getAttr_obj (fields : List (String × Json)) (key : String) :
    (obj fields).getAttr key = .ok ((fields.lookup key).getD null) := rfl

@[simp] theorem getDefault_obj (fields : List (String × Json)) (key : String) (d : Json) :
    (obj fields).getDefault key d = .ok ((fields.lookup key).getD d) := rfl

theorem getAttr_of_not_isObj {x : Json} (h : x.isObj = false) (key : String) :
    x.getAttr key = .error .attributeError := by
  cases x <;> first | rfl | cases h

end Json
end PyLib
