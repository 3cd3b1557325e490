import SceneScript.Proofs.Gltf.Assembly

/-!
# Links between tables

While a document is assembled, some nodes wait for their parents, some materials for their meshes
and a mesh for its node. All others are referred to exactly once.
-/

namespace SceneScript.Gltf

def MeshEntry.materials (m : MeshEntry) : List Nat :=
  m.primitives.map Primitive.material

/-- Nodes refer to earlier nodes and to meshes, and meshes to materials. Nothing refers to the nodes
in `loose`, the meshes in `bare` and the materials in `spare` yet. -/
structure Document.Linked (d : Document) (loose bare spare : List Nat) : Prop where
  earlier : ∀ (i : Nat) (n : NodeEntry), d.nodes[i]? = some n → ∀ j ∈ n.children, j < i
  nodes : (loose ++ d.nodes.toList.flatMap NodeEntry.children).Perm (List.range d.nodes.size)
  meshes : d.nodes.toList.filterMap NodeEntry.mesh ++ bare = List.range d.meshes.size
  materials : (spare ++ d.meshes.toList.flatMap MeshEntry.materials).Perm
    (List.range d.materials.size)

theorem empty_linked : Document.empty.Linked [] [] [] :=
  ⟨fun _ _ absent => by simp [Document.empty] at absent, .refl _, rfl, .refl _⟩

/-- An assembly with a document to begin with has a result and a document to end with. -/
def Assembly.Leaves (act : Assembly α) (d : Document) (post : α → Document → Prop) : Prop :=
  post (act.run d).1 (act.run d).2

namespace Assembly.Leaves

variable {act : Assembly α} {d : Document} {post : α → Document → Prop}

theorem pure {a : α} (holds : post a d) : Leaves (Pure.pure a : Assembly α) d post :=
  holds

theorem bind {f : α → Assembly β} {last : β → Document → Prop} (first : act.Leaves d post)
    (rest : ∀ a d', post a d' → (f a).Leaves d' last) : Leaves (act >>= f) d last :=
  rest _ _ first

theorem imp {post' : α → Document → Prop} (leaves : act.Leaves d post)
    (enough : ∀ a d', post a d' → post' a d') : act.Leaves d post' :=
  enough _ _ leaves

end Assembly.Leaves

/-! ## Steps -/

variable {d : Document} {loose bare spare : List Nat}

theorem perm_range_succ {waiting used : List Nat} {n : Nat}
    (all : (waiting ++ used).Perm (List.range n)) :
    (waiting ++ [n] ++ used).Perm (List.range (n + 1)) := by
  rw [List.range_succ, List.append_assoc]
  exact (List.perm_append_comm_assoc _ _ _).trans
    ((all.cons n).trans (List.perm_append_singleton _ _).symm)

theorem leaves_addPrimitive {p : Part} (solid : Solid p) (linked : d.Linked loose bare spare) :
    (addPrimitive p).Leaves d fun found d' => ∃ primitive, found = some primitive ∧
      d'.Linked loose bare (spare ++ [primitive.material]) ∧ d'.nodes.size = d.nodes.size ∧
      d'.materials.size = d.materials.size + 1 := by
  have nonempty : ¬(p.mesh.vertexCount = 0 ∨ p.mesh.indices.isEmpty) := by
    simp [solid.vertices, solid.indices]
  rw [addPrimitive, if_neg nonempty]
  refine ⟨_, rfl, ⟨linked.earlier, linked.nodes, linked.meshes, ?_⟩, rfl, Array.size_push _⟩
  show List.Perm (spare ++ [d.materials.size] ++ d.meshes.toList.flatMap MeshEntry.materials)
    (List.range (d.materials.push (surface p.material)).size)
  rw [Array.size_push]
  exact perm_range_succ linked.materials

theorem leaves_addPrimitives {parts : List Part} (solid : ∀ p ∈ parts, Solid p)
    (linked : d.Linked loose bare spare) :
    (parts.mapM addPrimitive).Leaves d fun found d' =>
      d'.Linked loose bare (spare ++ (found.filterMap id).map Primitive.material) ∧
      d'.nodes.size = d.nodes.size ∧ d'.materials.size = d.materials.size + parts.length := by
  induction parts generalizing d spare with
  | nil => exact .pure ⟨by simpa using linked, rfl, rfl⟩
  | cons p parts ih =>
    rw [List.mapM_cons]
    refine .bind (leaves_addPrimitive (solid p (by simp)) linked) ?_
    rintro _ d₁ ⟨primitive, rfl, linked₁, nodes₁, materials₁⟩
    refine .bind (ih (fun q member => solid q (by simp [member])) linked₁) ?_
    rintro found d₂ ⟨linked₂, nodes₂, materials₂⟩
    refine .pure ⟨by simpa using linked₂, nodes₂.trans nodes₁, ?_⟩
    rw [materials₂, materials₁, List.length_cons]
    omega

theorem leaves_addMesh {m : MeshEntry} (linked : d.Linked loose [] (spare ++ m.materials)) :
    (addMesh m).Leaves d fun i d' => d'.Linked loose [i] spare ∧ d'.nodes.size = d.nodes.size ∧
      d'.materials.size = d.materials.size := by
  refine ⟨⟨linked.earlier, linked.nodes, ?_, ?_⟩, rfl, rfl⟩
  · show d.nodes.toList.filterMap NodeEntry.mesh ++ [d.meshes.size] =
      List.range (d.meshes.push m).size
    have meshes := linked.meshes
    rw [List.append_nil] at meshes
    rw [meshes, Array.size_push, List.range_succ]
  · show List.Perm (spare ++ (d.meshes.push m).toList.flatMap MeshEntry.materials) _
    rw [Array.toList_push, List.flatMap_append, List.flatMap_singleton]
    refine .trans ?_ linked.materials
    rw [List.append_assoc]
    exact List.perm_append_comm.append_left spare

theorem leaves_addNode {n : NodeEntry}
    (linked : d.Linked (loose ++ n.children) n.mesh.toList spare) :
    (addNode n).Leaves d fun i d' => d'.Linked (loose ++ [i]) [] spare ∧
      d'.nodes.size = d.nodes.size + 1 ∧ d'.materials.size = d.materials.size := by
  refine ⟨⟨fun i m stored j member => ?_, ?_, ?_, linked.materials⟩, Array.size_push _, rfl⟩
  · -- The children were among the nodes of the document, and so before the new one.
    change (d.nodes.push n)[i]? = some m at stored
    rw [Array.getElem?_push] at stored
    split at stored
    case isTrue here =>
      cases stored
      have known := linked.nodes.mem_iff.mp (by simp [member] : j ∈ _)
      rw [here]
      exact List.mem_range.mp known
    case isFalse => exact linked.earlier i m stored j member
  · show List.Perm (loose ++ [d.nodes.size] ++
      (d.nodes.push n).toList.flatMap NodeEntry.children) (List.range (d.nodes.push n).size)
    rw [Array.size_push]
    refine perm_range_succ (.trans ?_ linked.nodes)
    rw [Array.toList_push, List.flatMap_append, List.flatMap_singleton, List.append_assoc]
    exact List.perm_append_comm.append_left loose
  · show (d.nodes.push n).toList.filterMap NodeEntry.mesh ++ [] = List.range d.meshes.size
    rw [Array.toList_push, List.filterMap_append, List.append_nil, ← linked.meshes]
    cases mesh : n.mesh <;> simp [mesh]

theorem leaves_mesh {meshName : String} {own : List Primitive}
    {rest : Option Nat → Assembly β} {last : β → Document → Prop}
    (linked : d.Linked loose [] (spare ++ own.map Primitive.material))
    (next : ∀ mesh d', d'.Linked loose mesh.toList spare → d'.nodes.size = d.nodes.size →
      d'.materials.size = d.materials.size → (rest mesh).Leaves d' last) :
    (if own.isEmpty then pure none >>= rest
      else some <$> addMesh ⟨meshName, own⟩ >>= rest).Leaves d last := by
  split
  · rename_i empty
    obtain rfl : own = [] := by simpa using empty
    rw [List.map_nil, List.append_nil] at linked
    exact next none d linked rfl rfl
  · rw [map_eq_pure_bind, bind_assoc]
    refine .bind (leaves_addMesh (m := ⟨meshName, own⟩) linked) ?_
    rintro i d' ⟨linked', nodes, materials⟩
    exact next (some i) d' linked' nodes materials

/-! ## Trees -/

mutual

theorem leaves_addTree (parent : Matrix) (n : ModelNode)
    (solid : ∀ p ∈ (n.worldParts parent).map Prod.snd, Solid p) {d : Document}
    {loose spare : List Nat} (linked : d.Linked loose [] spare) :
    (addTree n).Leaves d fun i d' => d'.Linked (loose ++ [i]) [] spare ∧
      d'.nodes.size = d.nodes.size + n.count ∧
      d'.materials.size = d.materials.size + (n.worldParts parent).length := by
  obtain ⟨nodeName, transform, parts, children⟩ := n
  have length := congrArg List.length
    (snd_worldParts parent nodeName transform parts children)
  rw [snd_worldParts] at solid
  rw [addTree]
  refine .bind (leaves_addPrimitives (fun p member => solid p (List.mem_append_left _ member))
    linked) ?_
  rintro found d₁ ⟨linked₁, nodes₁, materials₁⟩
  refine .bind (leaves_addTrees (parent.mul transform.matrix) children
    (fun p member => solid p (List.mem_append_right _ member)) linked₁) ?_
  rintro is d₂ ⟨linked₂, nodes₂, materials₂⟩
  refine leaves_mesh linked₂ fun mesh d₃ linked₃ nodes₃ materials₃ => ?_
  refine (leaves_addNode linked₃).imp ?_
  rintro i d₄ ⟨linked₄, nodes₄, materials₄⟩
  rw [List.length_map, List.length_append, List.length_map] at length
  refine ⟨linked₄, ?_, by omega⟩
  rw [ModelNode.count]
  omega

theorem leaves_addTrees (parent : Matrix) (ns : List ModelNode)
    (solid : ∀ p ∈ (ModelNode.worldPartsAll parent ns).map Prod.snd, Solid p) {d : Document}
    {loose spare : List Nat} (linked : d.Linked loose [] spare) :
    (addTrees ns).Leaves d fun is d' => d'.Linked (loose ++ is) [] spare ∧
      d'.nodes.size = d.nodes.size + ModelNode.countAll ns ∧
      d'.materials.size = d.materials.size + (ModelNode.worldPartsAll parent ns).length := by
  cases ns with
  | nil => exact .pure ⟨by simpa using linked, rfl, rfl⟩
  | cons n rest =>
    have all : ModelNode.worldPartsAll parent (n :: rest) =
        n.worldParts parent ++ ModelNode.worldPartsAll parent rest := rfl
    rw [all, List.map_append] at solid
    rw [all, List.length_append, ModelNode.countAll, addTrees]
    refine .bind (leaves_addTree parent n
      (fun p member => solid p (List.mem_append_left _ member)) linked) ?_
    rintro root d₁ ⟨linked₁, nodes₁, materials₁⟩
    refine .bind (leaves_addTrees parent rest
      (fun p member => solid p (List.mem_append_right _ member)) linked₁) ?_
    rintro others d₂ ⟨linked₂, nodes₂, materials₂⟩
    refine .pure ⟨by simpa using linked₂, by omega, by omega⟩

end

end SceneScript.Gltf
