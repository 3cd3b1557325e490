import SceneScript.Geometry.Bounds

/-!
# Meshes

A mesh is a buffer of nine numbers per vertex (position, normal, colour) and a buffer of three
vertex numbers per triangle. Either may hold a rest that makes up no vertex or triangle.
-/

namespace SceneScript

/-- The numbers per vertex. -/
def vertexSize : Nat := 9

structure Vertex where
  position : Vec3
  normal : Vec3
  color : Vec3
deriving DecidableEq, Inhabited

def Vertex.toList (v : Vertex) : List Float32 :=
  v.position.toList ++ v.normal.toList ++ v.color.toList

structure Mesh where
  buffer : Array Float32
  indices : Array UInt32
deriving DecidableEq, Inhabited

namespace Mesh

def ofVertices (vertices : List Vertex) (indices : List UInt32) : Mesh :=
  ⟨(vertices.flatMap Vertex.toList).toArray, indices.toArray⟩

def vertexCount (m : Mesh) : Nat :=
  m.buffer.size / vertexSize

def triangleCount (m : Mesh) : Nat :=
  m.indices.size / 3

def triple (m : Mesh) (i : Nat) : Vec3 :=
  ⟨m.buffer.getD i 0, m.buffer.getD (i + 1) 0, m.buffer.getD (i + 2) 0⟩

def position (m : Mesh) (i : Nat) : Vec3 :=
  m.triple (vertexSize * i)

def normal (m : Mesh) (i : Nat) : Vec3 :=
  m.triple (vertexSize * i + 3)

def color (m : Mesh) (i : Nat) : Vec3 :=
  m.triple (vertexSize * i + 6)

def positions (m : Mesh) : List Vec3 :=
  (List.range m.vertexCount).map m.position

def normals (m : Mesh) : List Vec3 :=
  (List.range m.vertexCount).map m.normal

def colors (m : Mesh) : List Vec3 :=
  (List.range m.vertexCount).map m.color

def withColor (m : Mesh) (c : Vec3) : Mesh :=
  let count := m.vertexCount
  let buffer := m.buffer.mapIdx fun i x =>
    if i < vertexSize * count then
      match i % vertexSize with
      | 6 => c.x
      | 7 => c.y
      | 8 => c.z
      | _ => x
    else x
  ⟨buffer, m.indices⟩

def bounds (m : Mesh) : Option Bounds :=
  Bounds.ofPoints m.positions

def dimensions (m : Mesh) : Vec3 :=
  match m.bounds with
  | some b => b.size
  | none => .zero

end Mesh

end SceneScript
