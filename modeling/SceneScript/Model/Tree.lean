import SceneScript.Geometry.Validation

/-!
# Models

A finished model: trees of named nodes, each with a place relative to its parent and coloured
meshes.
-/

namespace SceneScript

structure Material where
  name : String
  diffuse : Rgba
  specular : Option Rgba
  emissive : Option Rgba
deriving DecidableEq

/-- A mesh with its material; the diffuse colour is already that of the vertices. -/
structure Part where
  mesh : Mesh
  material : Material
deriving DecidableEq

structure ModelNode where
  name : String
  transform : Transform
  parts : List Part
  children : List ModelNode

structure Model where
  id : Nat
  roots : List ModelNode

namespace ModelNode

mutual

def count : ModelNode → Nat
  | ⟨_, _, _, children⟩ => 1 + countAll children

def countAll : List ModelNode → Nat
  | [] => 0
  | n :: rest => n.count + countAll rest

end

mutual

/-- The parts of a tree with their matrices in the world, a node before its children. -/
def worldParts (parent : Matrix) : ModelNode → List (Matrix × Part)
  | ⟨_, transform, parts, children⟩ =>
    let world := parent.mul transform.matrix
    parts.map (world, ·) ++ worldPartsAll world children

def worldPartsAll (parent : Matrix) : List ModelNode → List (Matrix × Part)
  | [] => []
  | n :: rest => n.worldParts parent ++ worldPartsAll parent rest

end

mutual

/-- What is wrong with the meshes of a tree: the node, the number of the part and the issue. -/
def issues : ModelNode → List (String × Nat × MeshIssue)
  | ⟨name, _, parts, children⟩ =>
    (parts.zipIdx.flatMap fun (p, i) => p.mesh.issues.map fun e => (name, i, e)) ++
      issuesAll children

def issuesAll : List ModelNode → List (String × Nat × MeshIssue)
  | [] => []
  | n :: rest => n.issues ++ issuesAll rest

end

end ModelNode

namespace Model

def nodeCount (m : Model) : Nat :=
  ModelNode.countAll m.roots

def worldParts (m : Model) : List (Matrix × Part) :=
  ModelNode.worldPartsAll .identity m.roots

def partCount (m : Model) : Nat :=
  m.worldParts.length

def vertexCount (m : Model) : Nat :=
  m.worldParts.foldr (fun (_, p) n => p.mesh.vertexCount + n) 0

def triangleCount (m : Model) : Nat :=
  m.worldParts.foldr (fun (_, p) n => p.mesh.triangleCount + n) 0

def isEmpty (m : Model) : Bool :=
  m.partCount == 0

def partBounds (m : Model) : List Bounds :=
  m.worldParts.filterMap fun (world, p) => p.mesh.bounds.map (·.transformed world)

def bounds (m : Model) : Option Bounds :=
  match m.partBounds with
  | [] => none
  | b :: rest => some (rest.foldl Bounds.union b)

def issues (m : Model) : List String :=
  (ModelNode.issuesAll m.roots).map fun (name, i, e) => s!"node '{name}' part {i}: {e.message}"

end Model

end SceneScript
