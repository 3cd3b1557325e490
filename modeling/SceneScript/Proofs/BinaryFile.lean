import SceneScript.Gltf.Layout
import SceneScript.Proofs.Decimal.Length
import SceneScript.Proofs.Gltf.Assembly
import SceneScript.Proofs.Json.Writing

/-!
# Files of models

The file of a model can be taken apart and its buffer read back to the geometry of the model's
parts.
-/

namespace SceneScript

open Gltf

/-- Bytes are a file with a document and a buffer that give the geometry of parts. -/
structure Decodes (bytes : List UInt8) (parts : List Part) (file : File) (doc : Json)
    (buffer : List UInt8) : Prop where
  read : file? bytes = some file
  magic : file.magic = 0x46546C67
  version : file.version = 2
  total : file.total.toNat = bytes.length
  /-- The text of the document, filled up with blanks, and the buffer are all that is there. -/
  chunks : ∃ spaces, file.chunks =
    [⟨0x4E4F534A, doc.render.toUTF8.data.toList ++ List.replicate spaces 0x20⟩,
      ⟨0x004E4942, buffer⟩]
  whole : ∀ chunk ∈ file.chunks, chunk.data.length % 4 = 0
  bufferLength : (entryAt? "buffers" doc 0).bind (natMember? "byteLength") = some buffer.length
  views : ∃ views, views? doc = some views ∧ Tiles 0 views buffer.length ∧
    views.Pairwise fun v w => v.offset + v.length ≤ w.offset
  parts : ∃ primitives, scenePrimitives? doc = some primitives ∧
    List.Forall₂ (Primitive.Shows doc buffer) primitives parts

theorem scenePrimitives?_json {d : Document} {name : String} {roots : List Nat}
    {below : List (List Primitive)}
    (read : roots.mapM (primitivesBelow? (d.json name roots) d.nodes.size) = some below) :
    scenePrimitives? (d.json name roots) = some below.flatten := by
  have nodes : itemsMember? "nodes" (d.json name roots) =
    some (d.nodes.toList.map NodeEntry.json) := rfl
  have number : natMember? "scene" (d.json name roots) = nat? (.nat 0) := rfl
  have scene : entryAt? "scenes" (d.json name roots) 0 = some (object [("name", .text name),
    ("nodes", .array (roots.map .nat))]) := rfl
  have shown : member? "nodes" (object [("name", .text name),
    ("nodes", .array (roots.map .nat))]) = some (.array (roots.map .nat)) := rfl
  have numbers : Json.listOf? nat? (.array (roots.map .nat)) = some roots :=
    mapM_map_inverse nat?_nat roots
  simp only [scenePrimitives?, nodes, number, nat?_nat, scene, shown, numbers, List.length_map,
    Array.length_toList, read, Option.bind_eq_bind, Option.bind_some, Option.pure_def]

theorem empty_tiled : Document.empty.Tiled :=
  ⟨rfl, rfl⟩

theorem Model.glb_eq {m : Model} (nonempty : m.isEmpty = false) :
    m.glb = container ((assemble m.roots).2.json s!"model-{m.id}" (assemble m.roots).1).render
      (assemble m.roots).2.buffer := by
  rw [Model.glb, nonempty]
  rfl

/-- The file of a model with parts is read back to them in the order in which they are drawn. Of a
vertex buffer, what makes up no vertex is left out. -/
theorem Model.glb_decodes (m : Model) (nonempty : m.isEmpty = false)
    (drawable : ∀ p ∈ m.worldParts.map Prod.snd, Drawable p) (small : m.glb.size < 2 ^ 32) :
    ∃ file doc buffer,
      Decodes m.glb.data.toList (m.worldParts.map Prod.snd) file doc buffer := by
  set roots := (assemble m.roots).1 with rootsEq
  set d := (assemble m.roots).2 with dEq
  set name := s!"model-{m.id}" with nameEq
  have glb : m.glb = container (d.json name roots).render d.buffer := Model.glb_eq nonempty
  have yields := yields_addTrees name roots .identity m.roots drawable .empty
  have tiled : d.Tiled := yields.tiled empty_tiled
  obtain ⟨partss, drawn, flat⟩ := yields.result d (.refl d)
  obtain ⟨below, read, shown⟩ := draws_all name roots drawn (draws_lt name roots drawn)
  have length : d.buffer.data.toList.length = d.buffer.size := by simp
  -- The buffer is tiled by whole words, so its chunk needs no filling.
  have unfilled : filled 0 d.buffer.data.toList = d.buffer.data.toList :=
    filled_of_whole 0 (length ▸ tiled.whole)
  rw [glb] at small ⊢
  refine ⟨_, d.json name roots, d.buffer.data.toList, {
    read := file?_container _ _ small
    magic := rfl
    version := rfl
    total := ?total
    chunks := ⟨_, by rw [unfilled]; rfl⟩
    whole := ?whole
    bufferLength := ?bufferLength
    views := ⟨_, views?_json d name roots, length ▸ tiled.tiles, tiled.tiles.disjoint⟩
    parts := ⟨_, scenePrimitives?_json read, flat ▸ shown⟩ }⟩
  case total =>
    rw [UInt32.toNat_ofNat_of_lt' small]
    simp
  case whole =>
    simp only [List.mem_cons, List.not_mem_nil, or_false, forall_eq_or_imp, forall_eq,
      length_filled]
    omega
  case bufferLength =>
    rw [length]
    exact nat?_nat d.buffer.size

/-! ## The size of documents

What the numbers of a document take up is bounded, whatever their values.
-/

namespace Gltf

open Json (weightItems)

theorem weight_number (x : Float) : (number x).weight ≤ 8007 := by
  unfold number
  split_ifs
  · exact numberLayout.size_float x
  · decide

theorem weight_singles (xs : List Float32) :
    (Json.array (xs.map single)).weight ≤ 8008 * xs.length + 2 := by
  have items : weightItems (xs.map single) ≤ 8008 * xs.length := by
    induction xs with
    | nil => exact le_rfl
    | cons x xs ih =>
      have first := weight_number (Number.widen x)
      simp only [List.map_cons, weightItems, single, List.length_cons] at ih ⊢
      omega
  simp only [Json.weight]
  omega

theorem weight_node (n : NodeEntry) :
    n.json.weight ≤ 80200 + (Json.text n.name).weight + (n.mesh.map Json.nat).elim 0 Json.weight +
      weightItems (n.children.map .nat) := by
  have names : (Json.field "children" .null).1.utf8ByteSize = 8 ∧
      (Json.field "mesh" .null).1.utf8ByteSize = 4 ∧ (Json.field "name" .null).1.utf8ByteSize = 4 ∧
      (Json.field "rotation" .null).1.utf8ByteSize = 8 ∧
      (Json.field "scale" .null).1.utf8ByteSize = 5 ∧
      (Json.field "translation" .null).1.utf8ByteSize = 11 := by decide
  have rotation : (quaternion n.rotation).weight ≤ 8008 * 4 + 2 := weight_singles n.rotation.toList
  have scale : (vector n.scale).weight ≤ 8008 * 3 + 2 := weight_singles n.scale.toList
  have translation : (vector n.translation).weight ≤ 8008 * 3 + 2 :=
    weight_singles n.translation.toList
  obtain ⟨name, translation, rotation, scale, mesh, children⟩ := n
  simp only [Json.field] at names
  cases mesh <;> cases children <;>
    simp [NodeEntry.json, optionalField, Json.weight, Json.weightFields, Json.field] at * <;> omega

def Document.withoutNodes (d : Document) : Document :=
  { d with nodes := #[] }

theorem weight_document (d : Document) (name : String) (roots : List Nat) :
    (d.json name roots).weight =
      (d.withoutNodes.json name roots).weight +
        weightItems (d.nodes.toList.map NodeEntry.json) := by
  simp only [Document.withoutNodes, Document.json, object, table, List.map_cons, List.map_nil,
    Json.field, Json.weight, Json.weightFields, weightItems]
  omega

end Gltf

/-! ## A triangle -/

def triangle : Mesh :=
  .ofVertices
    ([⟨0, 0, 0⟩, ⟨1, 0, 0⟩, ⟨0, 1, 0⟩].map fun position => ⟨position, ⟨0, 0, 1⟩, .one⟩) [0, 1, 2]

def triangleModel : Model where
  id := 1
  roots := [⟨"triangle", ⟨.zero, .zero, .one⟩, [⟨triangle, ⟨"plain", .white, none, none⟩⟩], []⟩]

instance (p : Part) : Decidable (Drawable p) :=
  decidable_of_iff
    (p.mesh.vertexCount ≠ 0 ∧ p.mesh.indices ≠ #[] ∧ ∀ v ∈ p.mesh.positions, v.isFinite)
    ⟨fun ⟨vertices, indices, finite⟩ => ⟨vertices, indices, finite⟩,
      fun ⟨vertices, indices, finite⟩ => ⟨vertices, indices, finite⟩⟩

def triangleDocument : Document := (assemble triangleModel.roots).2

theorem triangleModel_glb :
    triangleModel.glb = container (triangleDocument.json "model-1" [0]).render
      triangleDocument.buffer := by
  have roots : (assemble triangleModel.roots).1 = [0] := by decide +kernel
  have name : s!"model-{triangleModel.id}" = "model-1" := by decide +kernel
  rw [Model.glb_eq (by decide +kernel), name, roots, triangleDocument]

theorem triangleModel_small : triangleModel.glb.size < 2 ^ 32 := by
  have nodes : triangleDocument.nodes.toList.map (fun n => (n.name, n.mesh, n.children)) =
      [("triangle", some 0, [])] := by decide +kernel
  obtain ⟨n, only, fields⟩ := List.map_eq_singleton_iff.mp nodes
  obtain ⟨name, mesh, children⟩ : n.name = "triangle" ∧ n.mesh = some 0 ∧ n.children = [] := by
    simpa using fields
  have node : n.json.weight ≤ 80211 := by
    have bound := weight_node n
    rw [name, mesh, children] at bound
    exact bound
  have text : (triangleDocument.json "model-1" [0]).render.utf8ByteSize ≤ 90000 := by
    have rest : (triangleDocument.withoutNodes.json "model-1" [0]).weight ≤ 5000 := by
      decide +kernel
    have bound := (triangleDocument.json "model-1" [0]).size_render
    rw [weight_document, only] at bound
    simp only [List.map_cons, List.map_nil, Json.weightItems] at bound
    omega
  have buffer : triangleDocument.buffer.size = 84 := by decide +kernel
  rw [triangleModel_glb, size_container, size_padded, size_padded, String.toUTF8_eq_toByteArray,
    String.size_toByteArray]
  omega

theorem triangleModel_decodes :
    ∃ file doc buffer, Decodes triangleModel.glb.data.toList
      (triangleModel.worldParts.map Prod.snd) file doc buffer :=
  triangleModel.glb_decodes (by decide +kernel) (by decide +kernel) triangleModel_small

end SceneScript
