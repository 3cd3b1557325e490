import SceneScript.Loading
import SceneScript.Machine.Native.Scene

/-!
# Members by class

The implementation of a member is found by its class, the way it is used and its name. A class that
has no members of some sort knows none by any name.
-/

namespace SceneScript.HostClass

open Native

def call (c : HostClass) (name : String) (receiver : Value) (args : List Value) : Run Value :=
  match c with
  | .modelBuilder => builderCall name args
  | .model => modelCall name receiver args
  | .node => nodeCall name receiver args
  | .material => materialCall name receiver args
  | .color => colorCall name receiver args
  | .vector3 => vectorCall name receiver args
  | .array => arrayCall name receiver args
  | .string => stringCall name receiver args
  | .integer | .float | .double | .boolean | .object => toStringCall name receiver args
  | _ => unknown .method name

def callStatic (c : HostClass) (name : String) (args : List Value) : Run Value :=
  match c with
  | .material => materialStatic name args
  | .color => colorStatic name args
  | .colorAttribute => attributeStatic name args
  | .vector3 => vectorStatic name args
  | .array => arrayStatic name args
  | .string => stringStatic name args
  | .integer => integerStatic name args
  | .float => floatStatic name args
  | .double => doubleStatic name args
  | .boolean => booleanStatic name args
  | _ => unknown .staticMethod name

def getField (c : HostClass) (name : String) (receiver : Value) : Run Value :=
  match c with
  | .node => nodeGet name receiver
  | .material => materialGet name receiver
  | .color => colorGet name receiver
  | .vector3 => vectorGet name receiver
  | _ => unknown .field name

def setField (c : HostClass) (name : String) (receiver value : Value) : Run Unit :=
  match c with
  | .node => nodeSet name receiver value
  | .material => materialSet name receiver value
  | .color => colorSet name receiver value
  | .vector3 => vectorSet name receiver value
  | _ => unknown .field name

def getConstant (c : HostClass) (name : String) : Run Value :=
  match c with
  | .color => colorConstant name
  | .integer => integerConstant name
  | .float => floatConstant name
  | .double => doubleConstant name
  | _ => unknown .constant name

end SceneScript.HostClass
