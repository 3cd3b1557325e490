/-!
# Classes of the host

The classes that the host can describe, in the order of their qualified names. Scripts may use only
those that a symbol table grants.
-/

namespace SceneScript

inductive HostClass where
  | color
  | colorAttribute
  | directionalLight
  | environment
  | files
  | system
  | boolean
  | double
  | float
  | integer
  | math
  | object
  | string
  | vector3
  | material
  | model
  | modelBuilder
  | node
  | array
deriving Repr, DecidableEq

namespace HostClass

def all : List HostClass :=
  [.color, .colorAttribute, .directionalLight, .environment, .files, .system, .boolean, .double,
    .float, .integer, .math, .object, .string, .vector3, .material, .model, .modelBuilder, .node,
    .array]

theorem mem_all (c : HostClass) : c ∈ all := by
  cases c <;> decide

def package : HostClass → String
  | .color | .colorAttribute | .directionalLight | .environment => "graphics"
  | .files | .system => "host"
  | .boolean | .double | .float | .integer | .math | .object | .string => "lang"
  | .vector3 => "math"
  | .material | .model | .modelBuilder | .node => "model"
  | .array => "util"

def simpleName : HostClass → String
  | .color => "Color"
  | .colorAttribute => "ColorAttribute"
  | .directionalLight => "DirectionalLight"
  | .environment => "Environment"
  | .files => "Files"
  | .system => "System"
  | .boolean => "Boolean"
  | .double => "Double"
  | .float => "Float"
  | .integer => "Integer"
  | .math => "Math"
  | .object => "Object"
  | .string => "String"
  | .vector3 => "Vector3"
  | .material => "Material"
  | .model => "Model"
  | .modelBuilder => "ModelBuilder"
  | .node => "Node"
  | .array => "Array"

def qualifiedName (c : HostClass) : String :=
  c.package ++ "." ++ c.simpleName

def ofName? (name : String) : Option HostClass :=
  all.find? fun c => c.qualifiedName == name

/-- The given classes in the order of their qualified names, each once. -/
def sorted (classes : List HostClass) : List HostClass :=
  all.filter (· ∈ classes)

theorem mem_sorted {classes : List HostClass} {c : HostClass} :
    c ∈ sorted classes ↔ c ∈ classes := by
  simp [sorted, mem_all]

end HostClass

end SceneScript
