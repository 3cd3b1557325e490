import SceneScript.Proofs.BinaryFile
import SceneScript.Proofs.Gltf.Links
import SceneScript.Proofs.Gltf.Scene

/-!
# Scene graphs of models

The document of a model shows the trees of the model. Every node is reached in one way, no two nodes
share a mesh, and every part has a material of its own.
-/

namespace SceneScript

namespace Gltf

def childLinks? (doc : Json) : Option (List (List Nat)) := do
  (← itemsMember? "nodes" doc).mapM children?

def meshLinks? (doc : Json) : Option (List (Option Nat)) := do
  (← itemsMember? "nodes" doc).mapM mesh?

def materialLinks? (doc : Json) : Option (List (List Nat)) := do
  (← (← itemsMember? "meshes" doc).mapM primitives?).map (List.map Primitive.material)

end Gltf

open Gltf

/-- A document and its buffer show a model. -/
structure SceneGraph (doc : Json) (buffer : List UInt8) (m : Model) : Prop where
  forest : sceneForest? doc buffer = some (ModelNode.sceneAll m.roots)
  /-- Every node is a root, or a child of one node, which comes later. -/
  nodes : ∃ (roots : List Nat) (children : List (List Nat)),
    sceneRoots? doc = some roots ∧ childLinks? doc = some children ∧
    children.length = m.nodeCount ∧
    (∀ (i : Nat) (js : List Nat), children[i]? = some js → ∀ j ∈ js, j < i) ∧
    (roots ++ children.flatten).Perm (List.range m.nodeCount)
  /-- Distinct nodes refer to distinct meshes. -/
  meshes : ∃ links : List (Option Nat), meshLinks? doc = some links ∧
    ∀ i j mesh : Nat, links[i]? = some (some mesh) → links[j]? = some (some mesh) → i = j
  /-- Every material is that of one primitive. -/
  materials : ∃ links : List (List Nat), materialLinks? doc = some links ∧
    links.flatten.Perm (List.range m.partCount) ∧
    (itemsMember? "materials" doc).map List.length = some m.partCount

namespace Gltf

section

variable (d : Document) (name : String) (roots : List Nat)

theorem itemsMember?_nodes :
    itemsMember? "nodes" (d.json name roots) = some (d.nodes.toList.map NodeEntry.json) :=
  rfl

theorem sceneRoots?_json : sceneRoots? (d.json name roots) = some roots := by
  have scene : entryAt? "scenes" (d.json name roots) 0 = some (object [("name", .text name),
    ("nodes", .array (roots.map .nat))]) := rfl
  have shown : member? "nodes" (object [("name", .text name),
    ("nodes", .array (roots.map .nat))]) = some (.array (roots.map .nat)) := rfl
  rw [sceneRoots?, scene, Option.bind_eq_bind, Option.bind_some, shown]
  exact mapM_map_inverse nat?_nat roots

theorem childLinks?_json :
    childLinks? (d.json name roots) = some (d.nodes.toList.map NodeEntry.children) := by
  rw [childLinks?, itemsMember?_nodes]
  exact mapM_map_read children?_json d.nodes.toList

theorem meshLinks?_json :
    meshLinks? (d.json name roots) = some (d.nodes.toList.map NodeEntry.mesh) := by
  rw [meshLinks?, itemsMember?_nodes]
  exact mapM_map_read mesh?_json d.nodes.toList

theorem materialLinks?_json :
    materialLinks? (d.json name roots) = some (d.meshes.toList.map MeshEntry.materials) := by
  have items : itemsMember? "meshes" (d.json name roots) =
    some (d.meshes.toList.map MeshEntry.json) := rfl
  rw [materialLinks?, items, Option.bind_eq_bind, Option.bind_some,
    mapM_map_read primitives?_json]
  simp [Function.comp_def, MeshEntry.materials]

end

theorem eq_of_nodup_filterMap {links : List (Option Nat)} (nodup : (links.filterMap id).Nodup)
    {i j mesh : Nat} (first : links[i]? = some (some mesh))
    (second : links[j]? = some (some mesh)) : i = j := by
  have apart := List.pairwise_filterMap.mp nodup
  rw [List.pairwise_iff_getElem] at apart
  obtain ⟨boundI, atI⟩ := List.getElem?_eq_some_iff.mp first
  obtain ⟨boundJ, atJ⟩ := List.getElem?_eq_some_iff.mp second
  rcases Nat.lt_trichotomy i j with before | same | after
  · exact absurd rfl (apart i j boundI boundJ before mesh atI mesh atJ)
  · exact same
  · exact absurd rfl (apart j i boundJ boundI after mesh atJ mesh atI)

end Gltf

/-- The file of a model with parts holds a document that shows the model. -/
theorem Model.glb_sceneGraph (m : Model) (nonempty : m.isEmpty = false)
    (solid : ∀ p ∈ m.worldParts.map Prod.snd, Solid p) :
    ∃ doc buffer, m.glb = container doc.render buffer ∧ SceneGraph doc buffer.data.toList m := by
  set roots := (assemble m.roots).1 with rootsEq
  set d := (assemble m.roots).2 with dEq
  set name := s!"model-{m.id}" with nameEq
  obtain ⟨linked, nodes, materials⟩ : d.Linked roots [] [] ∧ d.nodes.size = 0 + m.nodeCount ∧
      d.materials.size = 0 + m.partCount :=
    leaves_addTrees .identity m.roots solid empty_linked
  rw [Nat.zero_add] at nodes materials
  have pictured : List.Forall₂ (Pictures name roots d) roots (ModelNode.sceneAll m.roots) :=
    (pictures_addTrees name roots .identity m.roots solid .empty).result d (.refl d)
  refine ⟨d.json name roots, d.buffer, Model.glb_eq nonempty, {
    forest := ?forest
    nodes := ⟨_, _, sceneRoots?_json d name roots, childLinks?_json d name roots, ?_, ?_, ?_⟩
    meshes := ⟨_, meshLinks?_json d name roots, fun i j mesh => ?_⟩
    materials := ⟨_, materialLinks?_json d name roots, ?_, ?_⟩ }⟩
  case forest =>
    simp only [sceneForest?, itemsMember?_nodes, sceneRoots?_json, Option.bind_eq_bind,
      Option.bind_some, List.length_map, Array.length_toList]
    exact pictures_all name roots pictured (pictures_lt name roots pictured)
  · rw [List.length_map, Array.length_toList, nodes]
  · intro i js listed
    rw [List.getElem?_map, Option.map_eq_some_iff] at listed
    obtain ⟨n, stored, rfl⟩ := listed
    exact linked.earlier i n (by simpa using stored)
  · rw [← List.flatMap_def, ← nodes]
    exact linked.nodes
  · apply eq_of_nodup_filterMap
    have meshes := linked.meshes
    rw [List.append_nil] at meshes
    rw [List.filterMap_map, Function.id_comp, meshes]
    exact List.nodup_range
  · rw [← List.flatMap_def, ← materials]
    exact linked.materials
  · have items : itemsMember? "materials" (d.json name roots) =
      some (d.materials.toList.map Surface.json) := rfl
    rw [items, Option.map_some, List.length_map, Array.length_toList, materials]

/-! ## A tower -/

def towerModel : Model where
  id := 2
  roots :=
    let part (name : String) : Part := ⟨triangle, ⟨name, .white, none, none⟩⟩
    [⟨"ground", ⟨.zero, .zero, .one⟩, [part "stone"],
      [⟨"tower", ⟨⟨0, 1, 0⟩, .zero, .one⟩, [part "brick", part "glass"], []⟩,
        ⟨"gap", ⟨.zero, .zero, .one⟩, [], []⟩]⟩,
      ⟨"sky", ⟨.zero, .zero, .one⟩, [], []⟩]

instance (p : Part) : Decidable (Solid p) :=
  decidable_of_iff (p.mesh.vertexCount ≠ 0 ∧ p.mesh.indices ≠ #[])
    ⟨fun ⟨vertices, indices⟩ => ⟨vertices, indices⟩,
      fun ⟨vertices, indices⟩ => ⟨vertices, indices⟩⟩

theorem towerModel_sceneGraph :
    ∃ doc buffer, towerModel.glb = container doc.render buffer ∧
      SceneGraph doc buffer.data.toList towerModel :=
  towerModel.glb_sceneGraph (by decide +kernel) (by decide +kernel)

end SceneScript
