import SceneScript.Decimal.Layout
import SceneScript.Gltf.Document
import SceneScript.Json.Value

/-!
# Documents as JSON

The text of a document has its names in the order of their bytes.
-/

namespace SceneScript.Gltf

/-- Numbers are positional from `0.00001` up to below `1e16`, always with a fraction there. -/
def numberLayout : Decimal.Layout where
  positional := fun e => -5 ≤ e && e < 16
  fraction := true
  plus := true
  tie := .toEven
  nan := "NaN"
  infinity := "inf"

/-- A number in double precision; one that is not finite is null. -/
def number (x : Float) : Json :=
  if x.isFinite then .number (numberLayout.float x) else .null

def single (x : Float32) : Json :=
  number (Number.widen x)

def vector (v : Vec3) : Json :=
  .array (v.toList.map single)

def color (c : Rgba) : Json :=
  .array (c.toList.map single)

def quaternion (q : Quaternion) : Json :=
  .array (q.toList.map single)

/-- A field that is left out if it has no value. -/
def optionalField (name : String) (value : Option Json) : List (String × Json) :=
  (value.map (Json.field name)).toList

def object (fields : List (String × Json)) : Json :=
  .object (fields.map fun (name, v) => Json.field name v)

def Target.code : Target → Nat
  | .vertices => 34962
  | .indices => 34963

def Elements.componentCode : Elements → Nat
  | .vectors => 5126
  | .numbers => 5125

def Elements.shape : Elements → String
  | .vectors => "VEC3"
  | .numbers => "SCALAR"

def View.json (v : View) : Json :=
  object [("buffer", .nat 0), ("byteLength", .nat v.length), ("byteOffset", .nat v.offset),
    ("target", .nat v.target.code)]

def Accessor.json (a : Accessor) : Json :=
  .object ([Json.field "bufferView" (.nat a.view),
    Json.field "componentType" (.nat a.elements.componentCode),
    Json.field "count" (.nat a.count)] ++
    optionalField "max" (a.range.map fun r => vector r.2) ++
    optionalField "min" (a.range.map fun r => vector r.1) ++
    [Json.field "type" (.text a.elements.shape)])

def Surface.json (m : Surface) : Json :=
  .object (optionalField "emissiveFactor" (m.emissive.map vector) ++
    [Json.field "name" (.text m.name),
      Json.field "pbrMetallicRoughness" (object [("baseColorFactor", color m.baseColor),
        ("metallicFactor", number 0), ("roughnessFactor", number m.roughness)])])

def Primitive.json (p : Primitive) : Json :=
  object [("attributes", object [("NORMAL", .nat p.normals), ("POSITION", .nat p.positions)]),
    ("indices", .nat p.indices), ("material", .nat p.material)]

def MeshEntry.json (m : MeshEntry) : Json :=
  object [("name", .text m.name), ("primitives", .array (m.primitives.map Primitive.json))]

def NodeEntry.json (n : NodeEntry) : Json :=
  .object (
    optionalField "children"
      (if n.children.isEmpty then none else some (.array (n.children.map .nat))) ++
    optionalField "mesh" (n.mesh.map .nat) ++
    [Json.field "name" (.text n.name), Json.field "rotation" (quaternion n.rotation),
      Json.field "scale" (vector n.scale), Json.field "translation" (vector n.translation)])

def table (entry : α → Json) (entries : Array α) : Json :=
  .array (entries.toList.map entry)

/-- A document with one scene, which shows the given roots. -/
def Document.json (d : Document) (sceneName : String) (roots : List Nat) : Json :=
  object [
    ("accessors", table Accessor.json d.accessors),
    ("asset", object [("generator", .text "modelsnip"), ("version", .text "2.0")]),
    ("bufferViews", table View.json d.views),
    ("buffers", .array [object [("byteLength", .nat d.buffer.size)]]),
    ("materials", table Surface.json d.materials),
    ("meshes", table MeshEntry.json d.meshes),
    ("nodes", table NodeEntry.json d.nodes),
    ("scene", .nat 0),
    ("scenes", .array [object [("name", .text sceneName), ("nodes", .array (roots.map .nat))]])]

end SceneScript.Gltf
