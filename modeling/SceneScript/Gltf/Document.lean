import SceneScript.Geometry.Matrix

/-!
# glTF documents

A document is a set of tables whose entries refer to each other by number: nodes to meshes and to
their children, the primitives of a mesh to accessors and to a material, accessors to views, and
views to ranges of one buffer of bytes.
-/

namespace SceneScript.Gltf

inductive Target where
  | vertices
  | indices
deriving Repr, DecidableEq

structure View where
  offset : Nat
  length : Nat
  target : Target
deriving Repr, DecidableEq

/-- The elements of a view: vectors of three floats, or unsigned numbers. -/
inductive Elements where
  | vectors
  | numbers
deriving Repr, DecidableEq

structure Accessor where
  view : Nat
  elements : Elements
  count : Nat
  range : Option (Vec3 × Vec3)
deriving DecidableEq

structure Surface where
  name : String
  baseColor : Rgba
  roughness : Float
  emissive : Option Vec3

structure Primitive where
  positions : Nat
  normals : Nat
  indices : Nat
  material : Nat
deriving Repr, DecidableEq

structure MeshEntry where
  name : String
  primitives : List Primitive
deriving Repr, DecidableEq

structure NodeEntry where
  name : String
  translation : Vec3
  rotation : Quaternion
  scale : Vec3
  mesh : Option Nat
  children : List Nat
deriving DecidableEq

structure Document where
  buffer : ByteArray
  views : Array View
  accessors : Array Accessor
  materials : Array Surface
  meshes : Array MeshEntry
  nodes : Array NodeEntry

def Document.empty : Document := ⟨.empty, #[], #[], #[], #[], #[]⟩

end SceneScript.Gltf
