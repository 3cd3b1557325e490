import SceneScript.Machine.Building
import SceneScript.Machine.Native.Data

/-!
# Builders, models, nodes and materials
-/

namespace SceneScript.Native

open Run

/-! ## ModelBuilder and Model -/

def builderCall (name : String) (args : List Value) : Run Value := do
  match name, args with
  | "node", [] => Building.newNode
  | "part", [node, part, material] =>
    Building.placePart (← node.asObject) part material
    return .void
  | "partCount", [] => return .int (Int64.ofNat (← building).meshes.size)
  | "end", [] => Building.finish
  | name, args =>
    if name ∈ ["box", "sphere", "cylinder", "cone", "plane"] then Building.primitive name args
    else unknown .method name

def modelCall (name : String) (receiver : Value) (args : List Value) : Run Value := do
  let m ← (← heap).model (← receiver.asObject)
  match name, args with
  | "nodeCount", [] => return .int (Int64.ofNat m.nodeCount)
  | "partCount", [] => return .int (Int64.ofNat m.partCount)
  | "vertexCount", [] => return .int (Int64.ofNat m.vertexCount)
  | _, _ => unknown .method name

/-! ## Node -/

def nodeCall (name : String) (receiver : Value) (args : List Value) : Run Value := do
  let ref ← receiver.asObject
  match name, args with
  | "addPart", [part, material] =>
    Building.placePart ref part material
    return .void
  | "addChild", [child] =>
    Building.attach ref child
    return .void
  | "setTranslation", [x, y, z] =>
    let n ← (← heap).node ref
    let v ← vec3 x y z
    let _ ← (← heap).vector n.translation
    modifyHeap (·.setVector n.translation v)
    return receiver
  | "childCount", [] => return .int (Int64.ofNat (← (← heap).node ref).children.size)
  | _, _ => unknown .method name

def nodeGet (name : String) (receiver : Value) : Run Value := do
  let n ← (← heap).node (← receiver.asObject)
  match name with
  | "id" => return .string n.id
  | "translation" => return .object n.translation
  | "rotation" => return .object n.rotation
  | "scale" => return .object n.scale
  | _ => unknown .field name

/-- The new id of a node or material; its bytes are charged. -/
def newId (value : Value) : Run String := do
  let id ← value.asString
  charge id.utf8ByteSize
  return id

def nodeSet (name : String) (receiver value : Value) : Run Unit := do
  match name with
  | "id" =>
    let id ← newId value
    let ref ← receiver.asObject
    let _ ← (← heap).node ref
    modifyHeap (·.modifyNode ref fun n => { n with id := id })
  | _ => unknown .field name

/-! ## Material and ColorAttribute -/

def materialStatic (name : String) (args : List Value) : Run Value := do
  match name, args with
  | "new", [] => alloc (.material {})
  | "of", [attr] =>
    alloc (.material (MaterialObject.apply {} (← (← heap).colorAttribute (← attr.asObject))))
  | _, _ => unknown .staticMethod name

def materialCall (name : String) (receiver : Value) (args : List Value) : Run Value := do
  match name, args with
  | "set", [attr] =>
    let a ← (← heap).colorAttribute (← attr.asObject)
    let ref ← receiver.asObject
    let _ ← (← heap).material ref
    modifyHeap (·.modifyMaterial ref fun m => m.apply a)
    return receiver
  | _, _ => unknown .method name

def materialGet (name : String) (receiver : Value) : Run Value := do
  match name with
  | "id" => return .string (← (← heap).material (← receiver.asObject)).id
  | _ => unknown .field name

def materialSet (name : String) (receiver value : Value) : Run Unit := do
  match name with
  | "id" =>
    let id ← newId value
    let ref ← receiver.asObject
    let _ ← (← heap).material ref
    modifyHeap (·.modifyMaterial ref fun m => { m with id := id })
  | _ => unknown .field name

def attributeChannel? : String → Option Channel
  | "createDiffuse" => some .diffuse
  | "createSpecular" => some .specular
  | "createEmissive" => some .emissive
  | _ => none

def attributeStatic (name : String) (args : List Value) : Run Value := do
  match attributeChannel? name, args with
  | some channel, [color] =>
    alloc (.colorAttribute ⟨channel, ← (← heap).color (← color.asObject)⟩)
  | _, _ => unknown .staticMethod name

end SceneScript.Native
