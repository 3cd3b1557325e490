import SceneScript.Decimal.Layout
import SceneScript.Json.Record
import SceneScript.Model.Tree

/-!
# Summaries

What is told of a model, and how often each thing has been done.
-/

namespace SceneScript

/-! ## Models -/

structure Summary where
  id : Nat
  nodes : Nat
  parts : Nat
  vertices : Nat
  triangles : Nat
  bounds : Option Bounds
deriving DecidableEq

def Model.summary (m : Model) : Summary where
  id := m.id
  nodes := m.nodeCount
  parts := m.partCount
  vertices := m.vertexCount
  triangles := m.triangleCount
  bounds := m.bounds

namespace Summary

/-! ### Writing -/

/-- Coordinates are positional from `0.000001` up to below `1e13`, always with a fraction there. -/
def coordinateLayout : Decimal.Layout where
  positional := fun e => -6 ≤ e && e < 13
  fraction := true
  plus := true
  tie := .toEven
  nan := "NaN"
  infinity := "inf"

def coordinate (x : Float32) : Json :=
  if x.isFinite then .number (coordinateLayout.float32 x) else .null

def point (v : Vec3) : Json :=
  .array (v.toList.map coordinate)

def json (s : Summary) : Json :=
  let bounds := s.bounds.map fun b => Json.field "bounds" (.array [point b.min, point b.max])
  .object ([Json.field "id" (.nat s.id), Json.field "node_count" (.nat s.nodes),
    Json.field "part_count" (.nat s.parts), Json.field "vertex_count" (.nat s.vertices),
    Json.field "triangle_count" (.nat s.triangles)] ++ bounds.toList)

/-! ### Reading -/

def point? (j : Json) : Option Vec3 := do
  match ← Json.listOf? Json.single? j with
  | [x, y, z] => return ⟨x, y, z⟩
  | _ => none

def bounds? (j : Json) : Option Bounds := do
  match ← Json.listOf? point? j with
  | [low, high] => return ⟨low, high⟩
  | _ => none

def ofJson? (j : Json) : Option Summary := do
  match ← j.slots? ["id", "node_count", "part_count", "vertex_count", "triangle_count",
      "bounds"] with
  | [id, nodes, parts, vertices, triangles, bounds] =>
    return {
      id := ← Json.required Json.word? id
      nodes := ← Json.required Json.word? nodes
      parts := ← Json.required Json.word? parts
      vertices := ← Json.required Json.word? vertices
      triangles := ← Json.required Json.word? triangles
      bounds := ← Json.optional bounds? bounds }
  | _ => none

end Summary

/-! ## Statistics -/

structure Statistics where
  replacements : Nat := 0
  compilations : Nat := 0
  loads : Nat := 0
  invocations : Nat := 0
  disposals : Nat := 0
deriving Repr, DecidableEq

namespace Statistics

def fieldNames : List String :=
  ["replacements", "compilations", "loads", "invocations", "disposals"]

def toList (s : Statistics) : List Nat :=
  [s.replacements, s.compilations, s.loads, s.invocations, s.disposals]

def json (s : Statistics) : Json :=
  .object (List.zipWith (fun name n => Json.field name (.nat n)) fieldNames s.toList)

def ofJson? (j : Json) : Option Statistics := do
  match ← (← j.slots? fieldNames).mapM (Json.required Json.word?) with
  | [replacements, compilations, loads, invocations, disposals] =>
    return ⟨replacements, compilations, loads, invocations, disposals⟩
  | _ => none

end Statistics

end SceneScript
