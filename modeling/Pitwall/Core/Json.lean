import Mathlib.Data.Rat.Defs
set_option autoImplicit false

namespace Pitwall

/-- A Python float, a finite one named by the decimal value of its `repr`. -/
inductive PyFloat where
  | finite : ℚ → PyFloat
  | infinite (negative : Bool)
  | nan
  deriving DecidableEq

/-- JSON values as `json.loads` builds them. -/
inductive Json where
  | null
  | bool : Bool → Json
  | int : Int → Json
  | float : PyFloat → Json
  | str : String → Json
  | arr : List Json → Json
  | obj : List (String × Json) → Json

abbrev JsonObject := List (String × Json)

namespace JsonObject

/-- `d.get(key)`; `none` when the key is missing. -/
def get? (d : JsonObject) (key : String) : Option Json := d.lookup key

/-- `d.get(key)`, with `None` for a missing key. -/
def get (d : JsonObject) (key : String) : Json := (d.get? key).getD .null

def hasKey (d : JsonObject) (key : String) : Bool := (d.lookup key).isSome

/-- `d[key] = value`: an existing key keeps its place. -/
def set : JsonObject → String → Json → JsonObject
  | [], key, value => [(key, value)]
  | (k, v) :: d, key, value =>
      if k = key then (key, value) :: d else (k, v) :: set d key value

def setdefault (d : JsonObject) (key : String) (value : Json) : JsonObject :=
  if d.hasKey key then d else d.set key value

end JsonObject

namespace Json

def object? : Json → Option JsonObject
  | .obj d => some d
  | _ => none

def typeName : Json → String
  | .null => "NoneType"
  | .bool _ => "bool"
  | .int _ => "int"
  | .float _ => "float"
  | .str _ => "str"
  | .arr _ => "list"
  | .obj _ => "dict"

/-- `value is not None`, for a value that may be missing. -/
def given : Option Json → Bool
  | none | some .null => false
  | some _ => true

def truthy : Json → Bool
  | .null => false
  | .bool b => b
  | .int n => n != 0
  | .float (.finite q) => q != 0
  | .float _ => true
  | .str s => s != ""
  | .arr xs => !xs.isEmpty
  | .obj d => !d.isEmpty

/-- Python's `a or b`. -/
def orElse (a b : Json) : Json := if a.truthy then a else b

end Json

def nonEmpty : Option String → Option String
  | some text => if text = "" then none else some text
  | none => none

theorem eq_some_of_nonEmpty {text : Option String} {value : String}
    (h : nonEmpty text = some value) : text = some value := by
  cases text with
  | none => simp [nonEmpty] at h
  | some s =>
    simp only [nonEmpty] at h
    split at h
    · simp at h
    · exact h

theorem ne_empty_of_nonEmpty {text : Option String} {value : String}
    (h : nonEmpty text = some value) : value ≠ "" := by
  cases text with
  | none => simp [nonEmpty] at h
  | some s =>
    simp only [nonEmpty] at h
    split at h
    · simp at h
    · next hne => rwa [← Option.some.inj h]

/-- An exception as the ledger records it: its class name and its text. -/
structure PyError where
  type : String
  message : String
  deriving DecidableEq

/-- What `Decimal(str(value))` makes of a raw amount, `bool` being sorted out before. -/
inductive RawAmount where
  | boolean
  | unparsable
  | nonFinite
  | finite : ℚ → RawAmount
  deriving DecidableEq

/-- Python's text functions, and the parsers behind `float` and `Decimal`. `fixed2` is the format
`:.2f` of a `Decimal`, which raises where the exponent is too large. -/
structure PyText where
  str : Json → String
  repr : Json → String
  strip : String → String
  upper : String → String
  parseFloat : String → Option PyFloat
  parseDecimal : String → RawAmount
  fixed2 : ℚ → Except PyError String
  floatRepr : PyFloat → String

/-- `Decimal(str(value))`, for a value other than `None`. The text of a list or a dict
starts with a bracket and never parses. -/
def PyText.amount (text : PyText) : Json → RawAmount
  | .bool _ => .boolean
  | .int n => .finite n
  | .float (.finite q) => .finite q
  | .float _ => .nonFinite
  | .str s => text.parseDecimal s
  | _ => .unparsable

end Pitwall
