import SceneScript.Machine.Value
import SceneScript.Source.Tree
import SceneScript.Catalog.HostClass

/-!
# Faults

What can go wrong while a script runs, and the text of each cause. A fault is located at the
innermost expression or statement that was being carried out.
-/

namespace SceneScript

inductive ObjectKind where
  | builder
  | node
  | vector
  | color
  | colorAttribute
  | material
  | model
  | array
  | released
deriving Repr, DecidableEq

def ObjectKind.describe : ObjectKind → String
  | .builder => "ModelBuilder"
  | .node => "Node"
  | .vector => "Vector3"
  | .color => "Color"
  | .colorAttribute => "ColorAttribute"
  | .material => "Material"
  | .model => "Model"
  | .array => "Array"
  | .released => "released"

inductive Need where
  | kind (k : ValueKind)
  | operand
  | model
deriving Repr, DecidableEq

def Need.describe : Need → String
  | .kind k => k.describe
  | .operand => "operand"
  | .model => "Model"

inductive Dimension where
  | width
  | height
  | depth
  | radius
deriving Repr, DecidableEq

def Dimension.describe : Dimension → String
  | .width => "width"
  | .height => "height"
  | .depth => "depth"
  | .radius => "radius"

inductive Access where
  | method
  | staticMethod
  | field
  | constant
deriving Repr, DecidableEq

def Access.describe : Access → String
  | .method => "method"
  | .staticMethod => "static method"
  | .field => "field"
  | .constant => "constant"

inductive ReadAs where
  | int
  | float
  | double
deriving Repr, DecidableEq

def ReadAs.describe : ReadAs → String
  | .int => "int"
  | .float => "float"
  | .double => "double"

/-- The deepest hierarchy of nodes; a root is one level. -/
def maxLevels : Nat := 64

inductive FaultCause where
  | stepLimit (limit : Nat)
  | heapLimit (limit : Nat)
  | stringLimit (size limit : Nat)
  | arrayLimit (limit : Nat)
  | vertexLimit (limit : Nat)
  | partLimit (limit : Nat)
  | nodeLimit (limit : Nat)
  | levelLimit
  | wrongValue (needed : Need) (found : ValueKind)
  | wrongObject (needed found : ObjectKind)
  | wrongOperands (op : Source.BinaryOp) (left right : ValueKind)
  | notArithmetic (op : Source.BinaryOp)
  | nullString
  | nullReference
  | nullAccess (member : String)
  | danglingReference
  | invalidSlot (slot : Nat)
  | notLoaded (owner : HostClass)
  | unknownMember (access : Access) (name : String)
  | unknownPrimitive (name : String)
  | unknownPart (id : Int)
  | builderEnded
  | invalidSize (dimension : Dimension) (value : Float)
  | invalidDivisions (value : Int64) (limit : Nat)
  | invalidChannel (value : Float32)
  | hasParent (id : String)
  | cycle
  | infiniteTransform (id : String)
  | outOfBounds (index : Int64) (size : Nat)
  | unreadable (text : String) (as : ReadAs)
  | overflow
  | divisionByZero
  | noModel
  | crash (detail : Option String)
  | foreign (message : String)
deriving DecidableEq

namespace FaultCause

def message : FaultCause → String
  | .stepLimit limit => s!"evaluation step limit of {limit} exceeded"
  | .heapLimit limit => s!"heap limit of {limit} bytes exceeded"
  | .stringLimit size limit => s!"string of {size} bytes exceeds the limit of {limit}"
  | .arrayLimit limit => s!"array length limit of {limit} exceeded"
  | .vertexLimit limit => s!"model exceeds the limit of {limit} vertices"
  | .partLimit limit => s!"model exceeds the limit of {limit} parts"
  | .nodeLimit limit => s!"model exceeds the limit of {limit} nodes"
  | .levelLimit => s!"node hierarchy deeper than {maxLevels} levels"
  | .wrongValue needed found => s!"expected {needed.describe}, found {found.describe}"
  | .wrongObject needed found => s!"expected {needed.describe}, found {found.describe}"
  | .wrongOperands op left right =>
    s!"cannot apply '{op.text}' to {left.describe} and {right.describe}"
  | .notArithmetic op => s!"'{op.text}' is not arithmetic"
  | .nullString => "null string"
  | .nullReference => "null reference"
  | .nullAccess member => s!"null reference: cannot access '{member}' on null"
  | .danglingReference => "dangling reference"
  | .invalidSlot slot => s!"invalid local slot {slot}"
  | .notLoaded owner => s!"type '{owner.qualifiedName}' is not loaded"
  | .unknownMember access name => s!"no {access.describe} '{name}'"
  | .unknownPrimitive name => s!"no primitive '{name}'"
  | .unknownPart id => s!"unknown part id {id}"
  | .builderEnded => "model builder used after end()"
  | .invalidSize dimension value =>
    let shown := Decimal.Layout.plain.float value
    s!"invalid {dimension.describe} {shown}: must be positive and finite"
  | .invalidDivisions value limit =>
    s!"invalid divisions {value.toInt}: must be between 3 and {limit}"
  | .invalidChannel value =>
    let shown := Decimal.Layout.plain.float32 value
    s!"invalid color channel {shown}"
  | .hasParent id => s!"node '{id}' already has a parent"
  | .cycle => "adding this child would create a cycle"
  | .infiniteTransform id => s!"node '{id}' has a non-finite transform"
  | .outOfBounds index size => s!"index {index.toInt} out of bounds for length {size}"
  | .unreadable text as => s!"cannot parse '{text}' as {as.describe}"
  | .overflow => "integer overflow"
  | .divisionByZero => "integer division by zero"
  | .noModel => "createModel produced no model"
  | .crash detail => s!"internal fault while running snippet: {detail.getD unnamedCrash}"
  | .foreign message => message
where
  unnamedCrash : String := "unknown panic"

end FaultCause

/-- A cause and, once it is known, where it arose. -/
structure Fault where
  cause : FaultCause
  position : Option Position
deriving DecidableEq

namespace Fault

def message (f : Fault) : String :=
  f.cause.message

/-- Locates a fault that has no position yet. -/
def locate (f : Fault) (p : Position) : Fault :=
  { f with position := f.position <|> some p }

end Fault

namespace Value

def asInt : Value → Except FaultCause Int64
  | .int n => .ok n
  | v => .error (.wrongValue (.kind .int) v.kind)

def asFloat : Value → Except FaultCause Float
  | .float x => .ok x
  | .int n => .ok (Float.ofInt n.toInt)
  | v => .error (.wrongValue (.kind .float) v.kind)

def asFloat32 (v : Value) : Except FaultCause Float32 :=
  v.asFloat.map Number.narrow

def asBool : Value → Except FaultCause Bool
  | .bool b => .ok b
  | v => .error (.wrongValue (.kind .bool) v.kind)

def asString : Value → Except FaultCause String
  | .string s => .ok s
  | .null => .error .nullString
  | v => .error (.wrongValue (.kind .string) v.kind)

def asObject : Value → Except FaultCause Nat
  | .object ref => .ok ref
  | .null => .error .nullReference
  | v => .error (.wrongValue (.kind .object) v.kind)

end Value

end SceneScript
