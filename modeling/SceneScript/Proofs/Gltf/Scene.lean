import SceneScript.Proofs.Gltf.Assembly
import SceneScript.Proofs.Json.Writing

/-!
# Scenes

The trees that a document shows, built up again from its tables, and the same for the nodes of a
model.
-/

namespace SceneScript

open Gltf

/-! ## Depicted trees -/

structure SceneMaterial where
  name : String
  baseColor : Json
  metallic : Json
  roughness : Json
  emissive : Option Json

structure ScenePart where
  positions : List Vec3
  normals : List Vec3
  indices : List UInt32
  material : SceneMaterial

/-- A node with its place as it is written. It has parts if it refers to a mesh. -/
inductive SceneNode where
  | mk (name : String) (translation rotation scale : Json) (parts : Option (List ScenePart))
      (children : List SceneNode)

def Material.scene (m : Material) : SceneMaterial where
  name := m.name
  baseColor := color m.diffuse
  metallic := number 0
  roughness := number (if m.specular.isSome then 0.3 else 0.8)
  emissive := m.emissive.map fun c => vector c.rgb

def Part.scene (p : Part) : ScenePart where
  positions := p.mesh.positions
  normals := p.mesh.normals
  indices := p.mesh.indices.toList
  material := p.material.scene

namespace ModelNode

mutual

def scene : ModelNode → SceneNode
  | ⟨name, transform, parts, children⟩ =>
    ⟨name, vector transform.translation, quaternion (.ofDegrees transform.rotation),
      vector transform.scale, if parts.isEmpty then none else some (parts.map Part.scene),
      sceneAll children⟩

def sceneAll : List ModelNode → List SceneNode
  | [] => []
  | n :: rest => n.scene :: sceneAll rest

end

end ModelNode

namespace Gltf

/-! ## Reading -/

def textMember? (name : String) (j : Json) : Option String :=
  (member? name j).bind Json.text?

def material? (j : Json) : Option SceneMaterial := do
  let look ← member? "pbrMetallicRoughness" j
  return ⟨← textMember? "name" j, ← member? "baseColorFactor" look, ← member? "metallicFactor" look,
    ← member? "roughnessFactor" look, member? "emissiveFactor" j⟩

def part? (doc : Json) (buffer : List UInt8) (p : Primitive) : Option ScenePart := do
  return ⟨← vectorsAt? doc buffer p.positions, ← vectorsAt? doc buffer p.normals,
    ← numbersAt? doc buffer p.indices, ← material? (← entryAt? "materials" doc p.material)⟩

def primitives? (mesh : Json) : Option (List Primitive) := do
  (← itemsMember? "primitives" mesh).mapM primitive?

def mesh? (node : Json) : Option (Option Nat) :=
  match member? "mesh" node with
  | none => some none
  | some number => (nat? number).map some

def parts? (doc : Json) (buffer : List UInt8) : Option Nat → Option (Option (List ScenePart))
  | none => some none
  | some mesh => do
    let primitives ← primitives? (← entryAt? "meshes" doc mesh)
    return some (← primitives.mapM (part? doc buffer))

def sceneNode? (doc : Json) (buffer : List UInt8) : Nat → Nat → Option SceneNode
  | 0, _ => none
  | depth + 1, i => do
    let node ← entryAt? "nodes" doc i
    let parts ← parts? doc buffer (← mesh? node)
    let children ← (← children? node).mapM (sceneNode? doc buffer depth)
    return ⟨← textMember? "name" node, ← member? "translation" node, ← member? "rotation" node,
      ← member? "scale" node, parts, children⟩

def sceneRoots? (doc : Json) : Option (List Nat) := do
  Json.listOf? nat? (← member? "nodes" (← entryAt? "scenes" doc 0))

def sceneForest? (doc : Json) (buffer : List UInt8) : Option (List SceneNode) := do
  let nodes ← itemsMember? "nodes" doc
  (← sceneRoots? doc).mapM (sceneNode? doc buffer nodes.length)

/-! ## Entries -/

section Entries

variable {d : Document} (name : String) (roots : List Nat)

theorem textMember?_of_text {fieldName s : String} {j : Json}
    (found : member? fieldName j = some (.text s)) : textMember? fieldName j = some s := by
  rw [textMember?, found, Option.bind_some, Json.text?_text]

theorem material?_json (m : Material) : material? (surface m).json = some m.scene := by
  obtain ⟨nameOf, diffuse, specular, emissive⟩ := m
  set j := (surface ⟨nameOf, diffuse, specular, emissive⟩).json with written
  have look : member? "pbrMetallicRoughness" j = some (object [("baseColorFactor", color diffuse),
      ("metallicFactor", number 0),
      ("roughnessFactor", number (if specular.isSome then 0.3 else 0.8))]) := by
    cases emissive <;> rfl
  have ofName : textMember? "name" j = some nameOf :=
    textMember?_of_text (by cases emissive <;> rfl)
  have ofEmissive : member? "emissiveFactor" j = emissive.map fun c => vector c.rgb := by
    cases emissive <;> rfl
  rw [material?, look, ofName, ofEmissive]
  rfl

theorem entryAt?_materials (i : Nat) :
    entryAt? "materials" (d.json name roots) i = d.materials[i]?.map Surface.json :=
  entryAt?_table rfl i

theorem Primitive.Holds.part? {primitive : Primitive} {p : Part} (holds : primitive.Holds d p) :
    part? (d.json name roots) d.buffer.data.toList primitive = some p.scene := by
  obtain ⟨⟨_, ofPositions, positions⟩, ⟨_, ofNormals, normals⟩, ⟨_, ofIndices, indices⟩,
    ofMaterial⟩ := holds
  simp only [Gltf.part?, vectorsAt?_json d name roots ofPositions positions,
    vectorsAt?_json d name roots ofNormals normals, numbersAt?_json d name roots ofIndices indices,
    entryAt?_materials, ofMaterial, Option.map_some, Option.bind_eq_bind, Option.bind_some,
    material?_json, Option.pure_def, Part.scene]

theorem mesh?_json (n : NodeEntry) : mesh? n.json = some n.mesh := by
  rw [mesh?, member?_mesh]
  cases n.mesh with
  | none => rfl
  | some mesh => simp [nat?_nat]

theorem primitives?_json (m : MeshEntry) : primitives? m.json = some m.primitives := by
  have items : itemsMember? "primitives" m.json = some (m.primitives.map Primitive.json) := rfl
  rw [primitives?, items]
  exact mapM_map_inverse primitive?_json m.primitives

theorem parts?_json {mesh : Nat} {m : MeshEntry} {parts : List Part}
    (stored : d.meshes[mesh]? = some m)
    (held : List.Forall₂ (Primitive.Holds d) m.primitives parts) :
    parts? (d.json name roots) d.buffer.data.toList (some mesh) =
      some (some (parts.map Part.scene)) := by
  have read : m.primitives.mapM (part? (d.json name roots) d.buffer.data.toList) =
      some (parts.map Part.scene) := by
    apply mapM_eq_some
    rw [List.forall₂_map_right_iff]
    exact held.imp fun primitive p holds => holds.part? name roots
  simp only [parts?, entryAt?_meshes, stored, Option.map_some, Option.bind_eq_bind,
    Option.bind_some, primitives?_json, read, Option.pure_def]

theorem fields_json (n : NodeEntry) :
    textMember? "name" n.json = some n.name ∧
      member? "translation" n.json = some (vector n.translation) ∧
      member? "rotation" n.json = some (quaternion n.rotation) ∧
      member? "scale" n.json = some (vector n.scale) := by
  obtain ⟨_, _, _, _, mesh, children⟩ := n
  cases mesh <;> cases children <;> exact ⟨textMember?_of_text rfl, rfl, rfl, rfl⟩

end Entries

/-! ## Trees -/

section Trees

variable (name : String) (roots : List Nat)

/-- A node of a document is the root of a tree like that of a node of a model. What is below it has
smaller numbers. -/
def Pictures (e : Document) (i : Nat) (tree : SceneNode) : Prop :=
  i < e.nodes.size ∧ ∀ depth, i < depth →
    sceneNode? (e.json name roots) e.buffer.data.toList depth i = some tree

theorem pictures_lt {e : Document} {is : List Nat} {trees : List SceneNode}
    (picture : List.Forall₂ (Pictures name roots e) is trees) : ∀ i ∈ is, i < e.nodes.size := by
  induction picture with
  | nil => simp
  | cons first _ ih => simpa using ⟨first.1, ih⟩

theorem pictures_all {e : Document} {is : List Nat} {trees : List SceneNode} {depth : Nat}
    (picture : List.Forall₂ (Pictures name roots e) is trees) (deep : ∀ i ∈ is, i < depth) :
    is.mapM (sceneNode? (e.json name roots) e.buffer.data.toList depth) = some trees := by
  apply mapM_eq_some
  induction picture with
  | nil => exact .nil
  | cons first _ ih =>
    exact .cons (first.2 depth (deep _ (by simp))) (ih fun j member => deep j (by simp [member]))

theorem pictures_node {e : Document} {i : Nat} {n : NodeEntry} {parts : Option (List ScenePart)}
    {trees : List SceneNode} (stored : e.nodes[i]? = some n)
    (own : parts? (e.json name roots) e.buffer.data.toList n.mesh = some parts)
    (below : List.Forall₂ (Pictures name roots e) n.children trees)
    (smaller : ∀ j ∈ n.children, j < i) :
    Pictures name roots e i
      ⟨n.name, vector n.translation, quaternion n.rotation, vector n.scale, parts, trees⟩ := by
  refine ⟨(Array.getElem?_eq_some_iff.mp stored).1, fun depth deep => ?_⟩
  cases depth with
  | zero => omega
  | succ depth =>
    have readBelow := pictures_all name roots below
      fun j member => (smaller j member).trans_le (Nat.le_of_lt_succ deep)
    obtain ⟨ofName, ofTranslation, ofRotation, ofScale⟩ := fields_json n
    simp only [sceneNode?, entryAt?_nodes, stored, Option.map_some, Option.bind_eq_bind,
      Option.bind_some, mesh?_json, own, children?_json, readBelow, ofName, ofTranslation,
      ofRotation, ofScale, Option.pure_def]

theorem yields_ownMesh {found : List (Option Primitive)} {parts : List Part} {meshName : String}
    {d : Document} {rest : Option Nat → Assembly β} {post : Document → β → Prop}
    (held : ∀ e, d.Within e → List.Forall₂ (fun found p =>
      ∃ primitive, found = some primitive ∧ primitive.Holds e p) found parts)
    (next : ∀ mesh d', d.Within d' →
      (∀ e, d'.Within e → parts? (e.json name roots) e.buffer.data.toList mesh =
        some (if parts.isEmpty then none else some (parts.map Part.scene))) →
      (rest mesh).Yields d' post) :
    (if (found.filterMap id).isEmpty then pure none >>= rest
      else some <$> addMesh ⟨meshName, found.filterMap id⟩ >>= rest).Yields d post := by
  have length := (found_filterMap (held d (.refl d))).length_eq
  split
  · rename_i empty
    have noParts : parts = [] := by
      rw [← List.length_eq_zero_iff, ← length]
      simpa using empty
    subst noParts
    exact next _ d (.refl d) fun e _ => rfl
  · rename_i nonempty
    have hasParts : parts.isEmpty = false := by
      rw [← Bool.not_eq_true, List.isEmpty_iff, ← List.length_eq_zero_iff, ← length]
      simpa using nonempty
    rw [map_eq_pure_bind, bind_assoc]
    refine .bind (yields_addMesh d _) fun i d' grown stored => ?_
    refine next (some i) d' grown fun e later => ?_
    rw [hasParts, parts?_json name roots (stored e later)
      (found_filterMap (held e (grown.trans later)))]
    rfl

mutual

theorem pictures_addTree (parent : Matrix) (n : ModelNode)
    (solid : ∀ p ∈ (n.worldParts parent).map Prod.snd, Solid p) (d : Document) :
    (addTree n).Yields d fun e i => Pictures name roots e i n.scene := by
  obtain ⟨nodeName, transform, parts, children⟩ := n
  rw [snd_worldParts] at solid
  rw [addTree, ModelNode.scene]
  refine .bind (.mapM parts d fun p member d =>
    yields_addPrimitive (solid p (List.mem_append_left _ member)) d) fun found d₁ _ held => ?_
  refine .bind (pictures_addTrees (parent.mul transform.matrix) children
    (fun p member => solid p (List.mem_append_right _ member)) d₁) fun is d₂ grown₁ below => ?_
  refine yields_ownMesh name roots (fun e later => held e (grown₁.trans later))
    fun mesh d₃ grown₂ own => ?_
  refine (yields_addNode d₃ _).imp fun e i later stored => ?_
  refine pictures_node name roots stored.1 (own e later) (below e (grown₂.trans later))
    fun j member => ?_
  rw [stored.2]
  exact pictures_lt name roots (below d₃ grown₂) j member

theorem pictures_addTrees (parent : Matrix) (ns : List ModelNode)
    (solid : ∀ p ∈ (ModelNode.worldPartsAll parent ns).map Prod.snd, Solid p) (d : Document) :
    (addTrees ns).Yields d fun e is =>
      List.Forall₂ (Pictures name roots e) is (ModelNode.sceneAll ns) := by
  cases ns with
  | nil => exact .pure fun e _ => .nil
  | cons n rest =>
    rw [snd_worldPartsAll_cons] at solid
    rw [addTrees]
    refine .bind (pictures_addTree parent n
      (fun p member => solid p (List.mem_append_left _ member)) d) fun root d₁ _ first => ?_
    refine .bind (pictures_addTrees parent rest
      (fun p member => solid p (List.mem_append_right _ member)) d₁) fun others d₂ grown₁ later => ?_
    exact .pure fun e grown₂ => .cons (first e (grown₁.trans grown₂)) (later e grown₂)

end

end Trees

end Gltf

end SceneScript
