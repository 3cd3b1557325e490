import SceneScript.Catalog.Ty
import SceneScript.Source.Tree

/-!
# Errors of names and types
-/

namespace SceneScript.Typing

open Source (UnaryOp BinaryOp)

inductive Role where
  | field
  | method
  | staticMember
  | staticMethod
deriving Repr, DecidableEq

def Role.describe : Role → String
  | .field => "field"
  | .method => "method"
  | .staticMember => "static member"
  | .staticMethod => "static method"

inductive Error where
  | unresolved (name : String)
  | noMembers (type : Ty)
  | alreadyDefined (name : String)
  | bindsNull (name : String)
  | bindsNothing (name : String)
  | missingReturnValue
  | notAssignable (name : String)
  | unresolvedMember (role : Role) (name : String) (owner : HostClass)
  | readOnlyField (name : String) (owner : HostClass)
  | invalidTarget
  | conditionType (found : Ty)
  | boundType (found : Ty)
  | mismatch (expected found : Ty)
  | classAsValue (name : String)
  | methodAsValue (name : String)
  | argumentCount (owner : HostClass) (name : String) (expected found : Nat)
  | unaryOperand (op : UnaryOp) (found : Ty)
  | operands (op : BinaryOp) (left right : Ty)
deriving Repr, DecidableEq

def Error.message : Error → String
  | .unresolved name => s!"cannot resolve symbol '{name}'"
  | .noMembers type => s!"type '{type.describe}' has no members"
  | .alreadyDefined name => s!"variable '{name}' is already defined"
  | .bindsNull name => s!"cannot infer a type for '{name}' from null; add a type annotation"
  | .bindsNothing name => s!"cannot bind '{name}' to an expression with no value"
  | .missingReturnValue => "missing return value"
  | .notAssignable name => s!"cannot assign to '{name}'"
  | .unresolvedMember role name owner =>
    s!"cannot resolve {role.describe} '{name}' in type '{owner.simpleName}'"
  | .readOnlyField name owner => s!"field '{name}' of '{owner.simpleName}' cannot be reassigned"
  | .invalidTarget => "invalid assignment target"
  | .conditionType found => s!"condition must be bool, found '{found.describe}'"
  | .boundType found => s!"range bound must be int, found '{found.describe}'"
  | .mismatch expected found =>
    s!"mismatched types: expected '{expected.describe}', found '{found.describe}'"
  | .classAsValue name => s!"'{name}' is a type; use '{name}::member'"
  | .methodAsValue name => s!"method '{name}' must be called with an argument list"
  | .argumentCount owner name expected found =>
    s!"'{owner.simpleName}.{name}' expects {expected} argument(s), found {found}"
  | .unaryOperand op found => s!"cannot apply unary '{op.text}' to '{found.describe}'"
  | .operands op left right =>
    s!"cannot apply '{op.text}' to '{left.describe}' and '{right.describe}'"

structure Fault where
  error : Error
  position : Position
deriving DecidableEq

end SceneScript.Typing
