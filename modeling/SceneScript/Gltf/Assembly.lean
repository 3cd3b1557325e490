import SceneScript.Gltf.Document
import SceneScript.Model.Tree

/-!
# From models to documents

The nodes of a model become entries of a document, each after its children. Every part with a
triangle becomes a primitive with accessors and a material of its own; a node with primitives gets
the mesh that holds them.
-/

namespace SceneScript.Gltf

/-! ## Bytes -/

def addWord (bytes : ByteArray) (w : UInt32) : ByteArray :=
  (((bytes.push w.toUInt8).push (w >>> 8).toUInt8).push (w >>> 16).toUInt8).push (w >>> 24).toUInt8

/-- The bits of a number. One that is not a number has a set sign and no payload. -/
def floatBits (x : Float32) : UInt32 :=
  if x.isNaN then 0xFFC00000 else x.toBits

def addFloat (bytes : ByteArray) (x : Float32) : ByteArray :=
  addWord bytes (floatBits x)

def addVector (bytes : ByteArray) (v : Vec3) : ByteArray :=
  addFloat (addFloat (addFloat bytes v.x) v.y) v.z

/-! ## Tables -/

abbrev Assembly := StateM Document

/-- Adds a view of what `fill` adds to the buffer, which comes in whole words. -/
def addView (target : Target) (fill : ByteArray → ByteArray) : Assembly Nat :=
  modifyGet fun ⟨buffer, views, accessors, materials, meshes, nodes⟩ =>
    let offset := buffer.size
    let buffer := fill buffer
    let view : View := ⟨offset, buffer.size - offset, target⟩
    (views.size, ⟨buffer, views.push view, accessors, materials, meshes, nodes⟩)

def addAccessor (a : Accessor) : Assembly Nat :=
  modifyGet fun d => (d.accessors.size, { d with accessors := d.accessors.push a })

def addMaterial (m : Surface) : Assembly Nat :=
  modifyGet fun d => (d.materials.size, { d with materials := d.materials.push m })

def addMesh (m : MeshEntry) : Assembly Nat :=
  modifyGet fun d => (d.meshes.size, { d with meshes := d.meshes.push m })

def addNode (n : NodeEntry) : Assembly Nat :=
  modifyGet fun d => (d.nodes.size, { d with nodes := d.nodes.push n })

/-! ## Parts -/

def floatMax : Float32 := Float32.ofBits 0x7F7FFFFF

/-- The least and the greatest components of points. -/
def range (points : List Vec3) : Vec3 × Vec3 :=
  (points.foldl Vec3.min ⟨floatMax, floatMax, floatMax⟩,
    points.foldl Vec3.max ⟨-floatMax, -floatMax, -floatMax⟩)

/-- The look of a material; a specular colour makes it smoother. -/
def surface (m : Material) : Surface where
  name := m.name
  baseColor := m.diffuse
  roughness := if m.specular.isSome then 0.3 else 0.8
  emissive := m.emissive.map Rgba.rgb

def addPrimitive (p : Part) : Assembly (Option Primitive) := do
  let m := p.mesh
  if m.vertexCount = 0 ∨ m.indices.isEmpty then return none
  let points := m.positions
  let positionView ← addView .vertices fun b => points.foldl addVector b
  let normalView ← addView .vertices fun b => m.normals.foldl addVector b
  let indexView ← addView .indices fun b => m.indices.foldl addWord b
  let positions ← addAccessor ⟨positionView, .vectors, m.vertexCount, some (range points)⟩
  let normals ← addAccessor ⟨normalView, .vectors, m.vertexCount, none⟩
  let indices ← addAccessor ⟨indexView, .numbers, m.indices.size, none⟩
  let material ← addMaterial (surface p.material)
  return some ⟨positions, normals, indices, material⟩

/-! ## Nodes -/

mutual

/-- Adds a tree and returns the number of its root. -/
def addTree : ModelNode → Assembly Nat
  | ⟨name, transform, parts, children⟩ => do
    let primitives := (← parts.mapM addPrimitive).filterMap id
    let children ← addTrees children
    let mesh ← if primitives.isEmpty then pure none else some <$> addMesh ⟨name, primitives⟩
    addNode ⟨name, transform.translation, .ofDegrees transform.rotation, transform.scale, mesh,
      children⟩

def addTrees : List ModelNode → Assembly (List Nat)
  | [] => return []
  | n :: rest => do
    let root ← addTree n
    return root :: (← addTrees rest)

end

/-- The document of some trees, and the numbers of their roots. -/
def assemble (roots : List ModelNode) : List Nat × Document :=
  (addTrees roots).run .empty

end SceneScript.Gltf
