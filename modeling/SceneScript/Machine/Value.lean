import SceneScript.Decimal.Layout
import SceneScript.Number.Conversion

/-!
# Values

The values that a script computes. Objects live on a heap and are referred to by their number there.
-/

namespace SceneScript

inductive ValueKind where
  | void
  | null
  | int
  | float
  | bool
  | string
  | object
deriving Repr, DecidableEq

def ValueKind.describe : ValueKind → String
  | .void => "void"
  | .null => "null"
  | .int => "int"
  | .float => "float"
  | .bool => "bool"
  | .string => "String"
  | .object => "object"

inductive Value where
  | void
  | null
  | int (value : Int64)
  | float (value : Float)
  | bool (value : Bool)
  | string (value : String)
  | object (ref : Nat)
deriving DecidableEq

namespace Value

instance : Inhabited Value := ⟨.null⟩

def kind : Value → ValueKind
  | .void => .void
  | .null => .null
  | .int _ => .int
  | .float _ => .float
  | .bool _ => .bool
  | .string _ => .string
  | .object _ => .object

/-- Equality as scripts see it: values of one kind with the same content, where a NaN differs from
itself, the two zeros agree and objects are told apart by identity. -/
def same : Value → Value → Bool
  | .void, .void => true
  | .null, .null => true
  | .int a, .int b => a == b
  | .float a, .float b => a == b
  | .bool a, .bool b => a == b
  | .string a, .string b => a == b
  | .object a, .object b => a == b
  | _, _ => false

/-- Floating-point numbers in text: positional from `0.0001` up to below `1e16`, always with a
fraction there. -/
def numberLayout : Decimal.Layout where
  positional := fun e => -4 ≤ e && e < 16
  fraction := true
  plus := false
  tie := .up
  nan := "NaN"
  infinity := "inf"

def text : Value → String
  | .void => "void"
  | .null => "null"
  | .int n => toString n.toInt
  | .float x => numberLayout.float x
  | .bool b => if b then "true" else "false"
  | .string s => s
  | .object ref => s!"object#{ref}"

end Value

end SceneScript
