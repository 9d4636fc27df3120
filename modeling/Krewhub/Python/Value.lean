import Krewhub.Python.Str
import Mathlib.Data.List.Infix

/-!
# Values in Python

The values that come out of a JSON text, and bytes, with what the code does to them: truth, `in`, `[]`, `.get`,
`str` and `int`. What the interpreter makes of a text or of a number where the code only passes it on is a
parameter.
-/

namespace Krewhub

inductive PyExc where
  | unicodeDecodeError
  | unicodeEncodeError
  | jsonDecodeError
  | valueError
  | binasciiError (why : String)
  | typeError
  | attributeError
  | keyError
  | overflowError
  | recursionError
  deriving DecidableEq, Repr

/-- `isinstance(exc, ValueError)`. -/
def PyExc.isValueError : PyExc → Bool
  | unicodeDecodeError | unicodeEncodeError | jsonDecodeError | valueError | binasciiError _ => true
  | _ => false

/-- A value; a float by its bits, a dict in the order of its entries. -/
inductive PyValue where
  | none
  | bool (b : Bool)
  | int (n : Int)
  | float (bits : UInt64)
  | str (s : PyStr)
  | bytes (bs : List UInt8)
  | list (xs : List PyValue)
  | dict (entries : List (PyStr × PyValue))

/-- What the interpreter computes, and the code passes on: `float` of a literal, `int` of a text, where it
does not raise, `str` of a value that is no string, `str.lower`, and how deep `json.loads` can go. -/
structure Builtins where
  float : List Char → UInt64
  int : PyStr → Option Int
  repr : PyValue → PyStr
  lower : PyStr → PyStr
  lower_ascii : ∀ s : String, (∀ c ∈ s.toList, c.toNat < 128) →
    lower (PyStr.ofString s) = PyStr.ofChars (s.toList.map Char.toLower)
  depth : Nat

/-- What CPython computes of texts of digits, of ASCII strings and of `None`, truth values and integers. -/
def Builtins.plain : Builtins where
  float _ := 0
  int s := (String.ofList s.questioned).toInt?
  repr
    | .none => PyStr.ofString "None"
    | .bool b => PyStr.ofString (if b then "True" else "False")
    | .int n => PyStr.ofString (toString n)
    | _ => []
  lower s := s.map fun
    | .scalar c => .scalar c.toLower
    | .surrogate n => .surrogate n
  lower_ascii s _ := by
    rw [PyStr.ofString, PyStr.ofChars, PyStr.ofChars, List.map_map, List.map_map]
    rfl
  depth := 1000

namespace PyValue

/-- `bool(value)`. -/
def truthy : PyValue → Bool
  | none => false
  | bool b => b
  | int n => n != 0
  | float bits => bits.toNat % 2 ^ 63 != 0
  | str s => !s.isEmpty
  | bytes bs => !bs.isEmpty
  | list xs => !xs.isEmpty
  | dict entries => !entries.isEmpty

/-- `value or default`. -/
def orElse (value default : PyValue) : PyValue := if value.truthy then value else default

/-- `str(value)`. -/
def text (B : Builtins) : PyValue → PyStr
  | str s => s
  | value => B.repr value

/-- `int(value)` of a float, which is cut off. -/
def intOfFloat (bits : UInt64) : Except PyExc Int :=
  let exponent := bits.toNat / 2 ^ 52 % 2 ^ 11
  let fraction := bits.toNat % 2 ^ 52
  if exponent = 2047 then .error (if fraction = 0 then .overflowError else .valueError)
  else
    let mantissa := if exponent = 0 then fraction else fraction + 2 ^ 52
    let size : Nat := mantissa * 2 ^ exponent / 2 ^ 1075
    .ok (if bits.toNat / 2 ^ 63 = 0 then size else -size)

/-- `int(value)`. -/
def toInt (B : Builtins) : PyValue → Except PyExc Int
  | bool b => .ok (if b then 1 else 0)
  | int n => .ok n
  | float bits => intOfFloat bits
  | str s => match B.int s with
    | some n => .ok n
    | .none => .error .valueError
  | bytes bs => match B.int (PyStr.decodeReplace bs) with
    | some n => .ok n
    | .none => .error .valueError
  | none | list _ | dict _ => .error .typeError

def isStr (key : PyStr) : PyValue → Bool
  | str s => s == key
  | _ => false

/-- `key in value`. -/
def contains (key : PyStr) : PyValue → Except PyExc Bool
  | dict entries => .ok (entries.any (·.1 == key))
  | list xs => .ok (xs.any (isStr key))
  | str s => .ok (decide (key <:+: s))
  | _ => .error .typeError

/-- `value[key]`. -/
def getItem (key : PyStr) : PyValue → Except PyExc PyValue
  | dict entries => match entries.lookup key with
    | some value => .ok value
    | .none => .error .keyError
  | _ => .error .typeError

/-- `value.get(key)`. -/
def get (key : PyStr) : PyValue → Except PyExc PyValue
  | dict entries => .ok ((entries.lookup key).getD none)
  | _ => .error .attributeError

end PyValue

end Krewhub
