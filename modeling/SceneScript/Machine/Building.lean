import SceneScript.Geometry.Primitive
import SceneScript.Machine.Run

/-!
# Building a model

What the methods of a model builder and of its nodes do: generate meshes, create nodes, place meshes
on nodes, attach nodes to each other, and turn the result into a model. Nothing can be built once
the model is finished.

The hierarchy of nodes stays a forest: a node gets at most one parent, never one of its own
descendants, and never so that a tree would have more than `maxLevels` levels. So that bound also
ends every walk through the hierarchy.
-/

namespace SceneScript.Building

open Run

def ensureOpen : Run Unit := do
  if (← building).ended then fault .builderEnded

/-! ## Meshes -/

/-- A positive and finite dimension. -/
def dimension (what : Dimension) (v : Value) : Run Float32 := do
  let x ← v.asFloat
  let size := Number.narrow x
  if !x.isFinite || !size.isFinite || x ≤ 0 then fault (.invalidSize what x)
  return size

def divisions (v : Value) : Run UInt32 := do
  let n ← v.asInt
  let limit := (← limits).maxDivisions
  if n.toInt < 3 ∨ (limit : Int) < n.toInt then fault (.invalidDivisions n limit)
  return UInt32.ofNat n.toInt.toNat

/-- Counts vertices before they are made. -/
def reserve (count : Nat) : Run Unit := do
  let total := (← building).vertices + count
  let limit := (← limits).maxVertices
  if total > limit then fault (.vertexLimit limit)
  modifyBuilding fun b => { b with vertices := total }

/-- The colour of meshes that no material has coloured yet. -/
def uncolored : Vec3 := .one

def generate (name : String) (args : List Value) : Run Mesh := do
  match name, args with
  | "box", [w, h, d] =>
    let width ← dimension .width w
    let height ← dimension .height h
    let depth ← dimension .depth d
    reserve Primitive.boxVertices
    return Primitive.box width height depth uncolored
  | "sphere", [r, n] =>
    let radius ← dimension .radius r
    let n ← divisions n
    reserve (Primitive.sphereVertices n)
    return Primitive.sphere radius n uncolored
  | "cylinder", [r, h, n] =>
    let radius ← dimension .radius r
    let height ← dimension .height h
    let n ← divisions n
    reserve (Primitive.cylinderVertices n)
    return Primitive.cylinder radius height n uncolored
  | "cone", [r, h, n] =>
    let radius ← dimension .radius r
    let height ← dimension .height h
    let n ← divisions n
    reserve (Primitive.coneVertices n)
    return Primitive.cone radius height n uncolored
  | "plane", [w, d] =>
    let width ← dimension .width w
    let depth ← dimension .depth d
    reserve Primitive.planeVertices
    return Primitive.plane width depth uncolored
  | _, _ => fault (.unknownPrimitive name)

def primitive (name : String) (args : List Value) : Run Value := do
  ensureOpen
  let limit := (← limits).maxParts
  if (← building).meshes.size ≥ limit then fault (.partLimit limit)
  let mesh ← generate name args
  let id := (← building).meshes.size
  modifyBuilding fun b => { b with meshes := b.meshes.push mesh }
  return .int (Int64.ofNat id)

/-! ## Nodes -/

/-- A new node at the origin; its vectors cost nothing. -/
def newNode : Run Value := do
  ensureOpen
  let limit := (← limits).maxNodes
  let count := (← building).nodes.size
  if count ≥ limit then fault (.nodeLimit limit)
  let translation ← addObject (.vector .zero)
  let rotation ← addObject (.vector .zero)
  let scale ← addObject (.vector .one)
  let ref ← addObject (.node ⟨s!"node{count}", translation, rotation, scale, #[], #[], none⟩)
  modifyBuilding fun b => { b with nodes := b.nodes.push ref }
  return .object ref

def mesh? (b : Building) (id : Int) : Option Mesh :=
  if 0 ≤ id then b.meshes[id.toNat]? else none

def placePart (node : Nat) (part material : Value) : Run Unit := do
  ensureOpen
  let id := (← part.asInt).toInt
  let some mesh := mesh? (← building) id | fault (.unknownPart id)
  let material ← material.asObject
  let _ ← (← heap).material material
  let limit := (← limits).maxParts
  if (← building).placements ≥ limit then fault (.partLimit limit)
  reserve mesh.vertexCount
  modifyBuilding fun b => { b with placements := b.placements + 1 }
  let _ ← (← heap).node node
  modifyHeap (·.modifyNode node fun n => { n with parts := n.parts.push (id.toNat, material) })

/-- The number of levels from a node up to its root, itself included, if `child` is not among
them. -/
def levelsAbove (h : Heap) (child : Nat) : Nat → Nat → Except FaultCause Nat
  | 0, _ => .error .levelLimit
  | levels + 1, ref => do
    if ref = child then .error .cycle
    match (← h.node ref).parent with
    | none => .ok 1
    | some parent => return 1 + (← levelsAbove h child levels parent)

def levelsBelow (h : Heap) : Nat → Nat → Except FaultCause Nat
  | 0, _ => .error .levelLimit
  | levels + 1, ref => do
    let below ← (← h.node ref).children.toList.mapM (levelsBelow h levels)
    return below.foldl (fun most n => max most (n + 1)) 0

def attach (parent : Nat) (child : Value) : Run Unit := do
  ensureOpen
  let child ← child.asObject
  let node ← (← heap).node child
  if node.parent.isSome then fault (.hasParent node.id)
  let above ← levelsAbove (← heap) child maxLevels parent
  let below ← levelsBelow (← heap) maxLevels child
  if above + 1 + below > maxLevels then fault .levelLimit
  modifyHeap (·.modifyNode child fun n => { n with parent := some parent })
  modifyHeap (·.modifyNode parent fun n => { n with children := n.children.push child })

/-! ## The finished model -/

def finishPart (h : Heap) (meshes : Array Mesh) (part : Nat × Nat) : Except FaultCause Part := do
  let material := (← h.material part.2).finished
  match meshes[part.1]? with
  | none => .error (.unknownPart part.1)
  | some mesh => return ⟨mesh.withColor material.diffuse.rgb, material⟩

def finishTransform (h : Heap) (n : NodeObject) : Except FaultCause Transform := do
  let t : Transform := ⟨← h.vector n.translation, ← h.vector n.rotation, ← h.vector n.scale⟩
  if t.translation.isFinite && t.rotation.isFinite && t.scale.isFinite then return t
  else .error (.infiniteTransform n.id)

def finishNode (h : Heap) (meshes : Array Mesh) : Nat → Nat → Except FaultCause ModelNode
  | 0, _ => .error .levelLimit
  | levels + 1, ref => do
    let n ← h.node ref
    let transform ← finishTransform h n
    let parts ← n.parts.toList.mapM (finishPart h meshes)
    let children ← n.children.toList.mapM (finishNode h meshes levels)
    return ⟨n.id, transform, parts, children⟩

def finishRoots (h : Heap) (meshes : Array Mesh) : List Nat → Except FaultCause (List ModelNode)
  | [] => .ok []
  | ref :: rest => do
    if (← h.node ref).parent.isNone then
      let root ← finishNode h meshes maxLevels ref
      return root :: (← finishRoots h meshes rest)
    else
      finishRoots h meshes rest

/-- Finishes the model. The builder is closed even if that fails. -/
def finish : Run Value := do
  ensureOpen
  modifyBuilding fun b => { b with ended := true }
  let b ← building
  let roots ← finishRoots (← heap) b.meshes b.nodes.toList
  let id ← modifyGet fun s => (s.nextModel, { s with nextModel := s.nextModel + 1 })
  return .object (← addObject (.model ⟨id, roots⟩))

end SceneScript.Building
