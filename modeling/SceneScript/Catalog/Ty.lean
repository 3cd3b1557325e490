import SceneScript.Catalog.HostClass

/-!
# Types of expressions

The static types. Text, numbers and truth values have types of their own; every other class has its
instances. `any` is the type of all values.
-/

namespace SceneScript

inductive Ty where
  | void
  | int
  | float
  | bool
  | string
  | null
  | any
  | object (c : HostClass)
deriving Repr, DecidableEq

namespace Ty

def describe : Ty → String
  | .void => "void"
  | .int => "int"
  | .float => "float"
  | .bool => "bool"
  | .string => "String"
  | .null => "null"
  | .any => "Object"
  | .object c => c.simpleName

def isNumeric : Ty → Bool
  | .int | .float => true
  | _ => false

/-- The types whose values may be null. -/
def isReference : Ty → Bool
  | .string | .null | .any | .object _ => true
  | _ => false

/-- Whether a value of the first type may stand where the second is asked for. -/
def assignableTo (source target : Ty) : Bool :=
  if source = target then source ≠ .void
  else match source, target with
    | .int, .float => true
    | .null, .string => true
    | .null, .object _ => true
    | .void, _ => false
    | _, .any => true
    | _, _ => false

/-- The class whose members apply to values of a type. -/
def owner? : Ty → Option HostClass
  | .int => some .integer
  | .float => some .double
  | .bool => some .boolean
  | .string => some .string
  | .any => some .object
  | .object c => some c
  | .void | .null => none

end Ty

end SceneScript
