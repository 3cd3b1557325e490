import SceneScript.Geometry.Mesh

/-!
# Validity of meshes

Checks on the buffers of a mesh, and the list of all that is wrong with one.
-/

namespace SceneScript

inductive MeshIssue where
  | vertexRest (size : Nat)
  | triangleRest (size : Nat)
  | indexRange (vertexCount : UInt32) (indices : List UInt32)
  | notFinite
  | notUnitLength
deriving Repr, DecidableEq

def MeshIssue.message : MeshIssue → String
  | .vertexRest size => s!"Vertex buffer length {size} is not a multiple of 9"
  | .triangleRest size => s!"Index buffer length {size} is not a multiple of 3"
  | .indexRange vertexCount indices =>
    let shown := ", ".intercalate (indices.map fun i => toString i.toNat)
    s!"Indices out of range (vertex_count={vertexCount.toNat}): [{shown}]"
  | .notFinite => "Vertex data contains non-finite values"
  | .notUnitLength => "Some normals are not unit-length (epsilon=0.1)"

namespace Mesh

def hasWholeVertices (m : Mesh) : Bool :=
  m.buffer.size % vertexSize == 0

def hasWholeTriangles (m : Mesh) : Bool :=
  m.indices.size % 3 == 0

def indexBound (m : Mesh) : UInt32 :=
  UInt32.ofNat m.vertexCount

def indicesInRange (m : Mesh) : Bool :=
  m.indices.all (· < m.indexBound)

/-- Whether every normal has unit length up to `epsilon`. -/
def normalsNormalized (m : Mesh) (epsilon : Float32) : Bool :=
  m.normals.all fun n => (n.length - 1).abs ≤ epsilon

def isFinite (m : Mesh) : Bool :=
  m.buffer.all Float32.isFinite

/-- Whether the dimensions are the expected ones up to `tolerance`. -/
def dimensionsNear (m : Mesh) (expected : Vec3) (tolerance : Float32) : Bool :=
  (m.dimensions.sub expected).toList.all fun d => d.abs < tolerance

/-- Whether the mesh has vertices and all have the given colour up to a hundredth. -/
def hasColor (m : Mesh) (rgb : Vec3) : Bool :=
  0 < m.vertexCount && m.colors.all fun c => (c.sub rgb).toList.all fun d => d.abs < 0.01

def issues (m : Mesh) : List MeshIssue :=
  (if m.hasWholeVertices then [] else [.vertexRest m.buffer.size]) ++
  (if m.hasWholeTriangles then [] else [.triangleRest m.indices.size]) ++
  (if m.indicesInRange then []
    else [.indexRange m.indexBound ((m.indices.toList.filter (m.indexBound ≤ ·)).take 5)]) ++
  (if m.isFinite then [] else [.notFinite]) ++
  (if 0 < m.vertexCount && !m.normalsNormalized 0.1 then [.notUnitLength] else [])

end Mesh

end SceneScript
