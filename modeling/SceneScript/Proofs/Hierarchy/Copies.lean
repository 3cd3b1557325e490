import Mathlib.Algebra.BigOperators.Group.List.Basic
import SceneScript.Proofs.Geometry.Meshes
import SceneScript.Proofs.Hierarchy.Records

/-!
# Copies of trees

A finished tree depicts the tree of the nodes that it was copied from (`Depicts`): node by node it
has the id, the vectors and the parts that were on the heap then, and so it has as many nodes and
the same parts. The copy of a node depicts all that is below the node
(`Building.depicts_finishNode`), and there is one as soon as all transforms below the node are finite
(`Building.exists_finishNode`).
-/

namespace SceneScript

inductive NodeTree where
  | node (ref : Nat) (children : List NodeTree)

namespace NodeTree

def root : NodeTree → Nat
  | node ref _ => ref

mutual

def refs : NodeTree → List Nat
  | node ref children => ref :: refsAll children

def refsAll : List NodeTree → List Nat
  | [] => []
  | t :: rest => t.refs ++ refsAll rest

end

end NodeTree

/-! ## Depictions -/

/-- A finished part has the mesh of a placed one, in the colour of its material, and the latter. -/
def Part.Carries (s : RunState) (placed : Nat × Nat) (p : Part) : Prop :=
  ∃ mesh m, s.building.meshes[placed.1]? = some mesh ∧ s.heap.material placed.2 = .ok m ∧
    p.mesh.positions = mesh.positions ∧ p.mesh.normals = mesh.normals ∧
    p.mesh.indices = mesh.indices ∧
    p.mesh.colors = List.replicate mesh.vertexCount (m.diffuse.getD .white).rgb ∧
    p.material = ⟨m.id, m.diffuse.getD .white, m.specular, m.emissive⟩

def Transform.Shows (h : Heap) (n : NodeObject) (t : Transform) : Prop :=
  h.vector n.translation = .ok t.translation ∧ h.vector n.rotation = .ok t.rotation ∧
    h.vector n.scale = .ok t.scale

def Heap.FiniteAt (h : Heap) (ref : Nat) : Prop :=
  ∃ n t, h.node ref = .ok n ∧ Transform.Shows h n t ∧ t.translation.isFinite = true ∧
    t.rotation.isFinite = true ∧ t.scale.isFinite = true

/-- A finished tree depicts a tree of nodes in a state, whose parts and children the deeds tell. -/
inductive Depicts (s : RunState) (deeds : List Deed) : NodeTree → ModelNode → Prop
  | node {ref : Nat} {n : NodeObject} {transform : Transform} {parts : List Part}
      {trees : List NodeTree} {children : List ModelNode} : s.heap.node ref = .ok n →
      transform.Shows s.heap n → List.Forall₂ (Part.Carries s) (Deed.placedOn ref deeds) parts →
      trees.map NodeTree.root = Deed.attachedTo ref deeds →
      List.Forall₂ (Depicts s deeds) trees children →
      Depicts s deeds (.node ref trees) ⟨n.id, transform, parts, children⟩

/-- A tree of the nodes whose way up meets its root, each of them once. -/
structure NodeTree.Covers (links : Links) (t : NodeTree) : Prop where
  nodup : t.refs.Nodup
  mem : ∀ x, x ∈ t.refs ↔ ∃ xs, links.Ascent x xs ∧ t.root ∈ xs

namespace Building

variable {s : RunState} {deeds : List Deed} {ref : Nat} {path : List Nat} {m : ModelNode}

/-! ## Single nodes -/

theorem finishPart_ok {h : Heap} {meshes : Array Mesh} {placed : Nat × Nat} {p : Part} :
    finishPart h meshes placed = .ok p ↔ ∃ mesh m, meshes[placed.1]? = some mesh ∧
      h.material placed.2 = .ok m ∧ p = ⟨mesh.withColor m.finished.diffuse.rgb, m.finished⟩ := by
  unfold finishPart
  rw [bind_eq_ok]
  constructor
  · rintro ⟨m, read, made⟩
    dsimp only at made
    split at made
    · cases made
    · next mesh known =>
      cases made
      exact ⟨mesh, m, known, read, rfl⟩
  · rintro ⟨mesh, m, known, read, rfl⟩
    refine ⟨m, read, ?_⟩
    rw [known]
    rfl

theorem carries_finishPart {placed : Nat × Nat} {p : Part}
    (made : finishPart s.heap s.building.meshes placed = .ok p) : p.Carries s placed := by
  obtain ⟨mesh, m, known, read, rfl⟩ := finishPart_ok.1 made
  exact ⟨mesh, m, known, read, mesh.positions_withColor _, mesh.normals_withColor _,
    mesh.indices_withColor _, mesh.colors_withColor _, rfl⟩

theorem finishTransform_ok {h : Heap} {n : NodeObject} {t : Transform} :
    finishTransform h n = .ok t ↔ t.Shows h n ∧ t.translation.isFinite = true ∧
      t.rotation.isFinite = true ∧ t.scale.isFinite = true := by
  unfold finishTransform
  simp only [bind_eq_ok]
  constructor
  · rintro ⟨translation, ofTranslation, rotation, ofRotation, scale, ofScale, made⟩
    split at made
    · next finite =>
      cases made
      rw [Bool.and_eq_true, Bool.and_eq_true] at finite
      exact ⟨⟨ofTranslation, ofRotation, ofScale⟩, finite.1.1, finite.1.2, finite.2⟩
    · cases made
  · rintro ⟨⟨ofTranslation, ofRotation, ofScale⟩, finiteT, finiteR, finiteS⟩
    refine ⟨_, ofTranslation, _, ofRotation, _, ofScale, ?_⟩
    rw [if_pos (by rw [finiteT, finiteR, finiteS]; rfl)]
    rfl

/-! ## Trees -/

theorem exists_mapM {α β : Type} {f : α → Except FaultCause β} {as : List α} :
    (∃ bs, as.mapM f = .ok bs) ↔ ∀ a ∈ as, ∃ b, f a = .ok b := by
  induction as with
  | nil => exact ⟨fun _ => nofun, fun _ => ⟨[], rfl⟩⟩
  | cons a as ih =>
    rw [List.forall_mem_cons, ← ih, List.mapM_cons]
    simp only [bind_eq_ok]
    constructor
    · rintro ⟨_, b, first, bs, rest, _⟩
      exact ⟨⟨b, first⟩, bs, rest⟩
    · rintro ⟨⟨b, first⟩, bs, rest⟩
      exact ⟨_, b, first, bs, rest, rfl⟩

theorem exists_finishParts (built : s.Built deeds) {n : NodeObject}
    (read : s.heap.node ref = .ok n) :
    ∃ parts, n.parts.toList.mapM (finishPart s.heap s.building.meshes) = .ok parts := by
  refine exists_mapM.2 fun placed mem => ?_
  rw [← Heap.parts_node read, built.parts] at mem
  obtain ⟨known, kind⟩ := built.placed (Deed.mem_placedOn.1 mem)
  obtain ⟨m, ofMaterial⟩ := Heap.material_ok kind
  exact ⟨_, finishPart_ok.2 ⟨_, m, Array.getElem?_eq_getElem known, ofMaterial, rfl⟩⟩

theorem exists_finishNode (built : s.Built deeds) (ascent : s.heap.links.Ascent ref path) :
    (∃ m, finishNode s.heap s.building.meshes maxLevels ref = .ok m) ↔
      ∀ x xs, s.heap.links.Ascent x xs → ref ∈ xs → s.heap.FiniteAt x := by
  have forest := built.forested.forest
  -- From the leaves up: a node is copied with its children.
  refine forest.descend (P := fun ref _ =>
    (∃ m, finishNode s.heap s.building.meshes maxLevels ref = .ok m) ↔
      ∀ x xs, s.heap.links.Ascent x xs → ref ∈ xs → s.heap.FiniteAt x)
    (fun ref path ascent ih => ?_) ascent
  obtain ⟨n, read⟩ := Heap.node_of_has ascent.has
  rw [Heap.children_node read] at ih
  rw [finishNode_node forest ascent read]
  constructor
  · rintro ⟨m, finished⟩ x xs ascent' on
    obtain ⟨transform, -, copied, -⟩ := finishWith_eq_ok.1 finished
    rcases ascent'.through on with rfl | ⟨child, on', found⟩
    · obtain ⟨shows, finite⟩ := finishTransform_ok.1 transform
      exact ⟨n, m.transform, read, shows, finite⟩
    · have mem : child ∈ n.children.toList := by
        rw [← Heap.children_node read, forest.agree, found]
      have copy := exists_mapM.1 ⟨_, copied⟩ child mem
      exact (ih child mem).1 copy x xs ascent' on'
  · intro finite
    obtain ⟨n', t, read', shows, finite'⟩ := finite ref path ascent ascent.mem
    cases read.symm.trans read'
    obtain ⟨parts, finished⟩ := exists_finishParts built read
    have copies : ∀ child ∈ n.children.toList,
        ∃ m, finishNode s.heap s.building.meshes maxLevels child = .ok m := by
      intro child mem
      refine (ih child mem).2 fun x xs ascent' on => ?_
      have below := forest.ascent_child ascent (Heap.children_node read ▸ mem)
      have above := ascent'.suffix_of_mem on below
      exact finite x xs ascent' (above.mem (List.mem_cons_of_mem child ascent.mem))
    obtain ⟨children, copied⟩ := exists_mapM.2 copies
    exact ⟨⟨n.id, t, parts, children⟩,
      finishWith_eq_ok.2 ⟨finishTransform_ok.2 ⟨shows, finite'⟩, finished, copied, rfl⟩⟩

theorem depicts_all {links : Links} {refs : List Nat} {ms : List ModelNode} {level : Nat}
    (trees : List.Forall₂ (fun ref m => ∃ t : NodeTree, t.root = ref ∧ t.Covers links ∧
      Depicts s deeds t m) refs ms)
    (nodup : refs.Nodup)
    (height : ∀ ref ∈ refs, ∃ path, links.Ascent ref path ∧ path.length = level) :
    ∃ ts : List NodeTree, ts.map NodeTree.root = refs ∧ List.Forall₂ (Depicts s deeds) ts ms ∧
      (NodeTree.refsAll ts).Nodup ∧
      ∀ x, x ∈ NodeTree.refsAll ts ↔ ∃ xs, links.Ascent x xs ∧ ∃ ref ∈ refs, ref ∈ xs := by
  induction trees with
  | nil => exact ⟨[], rfl, .nil, List.nodup_nil, by simp [NodeTree.refsAll]⟩
  | @cons ref m refs ms first rest ih =>
    obtain ⟨t, rfl, covers, depicts⟩ := first
    obtain ⟨fresh, nodup⟩ := List.nodup_cons.1 nodup
    obtain ⟨ts, roots, depicts', nodup', mem'⟩ :=
      ih nodup fun ref mem => height ref (List.mem_cons_of_mem _ mem)
    refine ⟨t :: ts, by rw [List.map_cons, roots], .cons depicts depicts', ?_, fun x => ?_⟩
    · refine List.nodup_append.2 ⟨covers.nodup, nodup', fun x ofFirst y ofRest => ?_⟩
      rintro rfl
      -- A common node would have two nodes of one level on its way up.
      obtain ⟨xs, ascent, on⟩ := (covers.mem x).1 ofFirst
      obtain ⟨xs', ascent', ref, ofRefs, on'⟩ := (mem' x).1 ofRest
      rw [ascent'.unique ascent] at on'
      obtain ⟨ys, ascentY, heightY⟩ := height t.root List.mem_cons_self
      obtain ⟨zs, ascentZ, heightZ⟩ := height ref (List.mem_cons_of_mem _ ofRefs)
      have same := ascent.eq_of_length on on' ascentY ascentZ (heightY.trans heightZ.symm)
      exact fresh (same ▸ ofRefs)
    · rw [NodeTree.refsAll, List.mem_append, covers.mem, mem']
      constructor
      · rintro (⟨xs, ascent, on⟩ | ⟨xs, ascent, ref, ofRefs, on⟩)
        · exact ⟨xs, ascent, _, List.mem_cons_self, on⟩
        · exact ⟨xs, ascent, ref, List.mem_cons_of_mem _ ofRefs, on⟩
      · rintro ⟨xs, ascent, ref, ofRefs, on⟩
        rcases List.mem_cons.1 ofRefs with rfl | ofRefs
        · exact .inl ⟨xs, ascent, on⟩
        · exact .inr ⟨xs, ascent, ref, ofRefs, on⟩

theorem depicts_finishNode (built : s.Built deeds) (ascent : s.heap.links.Ascent ref path)
    (finished : finishNode s.heap s.building.meshes maxLevels ref = .ok m) :
    ∃ t : NodeTree, t.root = ref ∧ t.Covers s.heap.links ∧ Depicts s deeds t m := by
  have forest := built.forested.forest
  revert m
  refine forest.descend (P := fun ref _ => ∀ {m},
    finishNode s.heap s.building.meshes maxLevels ref = .ok m →
    ∃ t : NodeTree, t.root = ref ∧ t.Covers s.heap.links ∧ Depicts s deeds t m)
    (fun ref path ascent ih m finished => ?_) ascent
  obtain ⟨n, read⟩ := Heap.node_of_has ascent.has
  rw [finishNode_node forest ascent read] at finished
  obtain ⟨transform, parts, children, name⟩ := finishWith_eq_ok.1 finished
  rw [Heap.children_node read] at ih
  have trees : List.Forall₂ (fun ref m => ∃ t : NodeTree, t.root = ref ∧ t.Covers s.heap.links ∧
      Depicts s deeds t m) n.children.toList m.children := by
    have each := (List.forall₂_and_left _ _).2 ⟨@ih, mapM_eq_ok.1 children⟩
    exact each.imp fun child c ⟨depicts, made⟩ => depicts made
  have once : n.children.toList.Nodup := Heap.children_node read ▸ forest.once ref
  have below : ∀ child ∈ n.children.toList, s.heap.links.Ascent child (child :: path) :=
    fun child mem => forest.ascent_child ascent (Heap.children_node read ▸ mem)
  obtain ⟨ts, roots, depicts, nodup, mem⟩ := depicts_all trees once
    fun child mem => ⟨_, below child mem, List.length_cons⟩
  refine ⟨.node ref ts, rfl, ⟨?_, fun x => ?_⟩, ?_⟩
  -- The node itself is not below one of its children, whose ways up are longer.
  · refine List.nodup_cons.2 ⟨fun again => ?_, nodup⟩
    obtain ⟨xs, ascent', child, ofNode, on⟩ := (mem ref).1 again
    obtain rfl := ascent'.unique ascent
    have longer := (ascent.suffix_of_mem on (below child ofNode)).length_le
    exact Nat.not_succ_le_self _ longer
  · rw [NodeTree.refs, List.mem_cons, mem]
    constructor
    · rintro (rfl | ⟨xs, ascent', child, ofNode, on⟩)
      · exact ⟨path, ascent, ascent.mem⟩
      · have above := ascent'.suffix_of_mem on (below child ofNode)
        exact ⟨xs, ascent', above.mem (List.mem_cons_of_mem child ascent.mem)⟩
    · rintro ⟨xs, ascent', on⟩
      rcases ascent'.through on with rfl | ⟨child, on', found⟩
      · exact .inl rfl
      · refine .inr ⟨xs, ascent', child, ?_, on'⟩
        rw [← Heap.children_node read]
        exact (forest.agree ref child).2 found
  · cases m
    cases name
    refine .node read (finishTransform_ok.1 transform).1 ?_ ?_ depicts
    · rw [← built.parts, Heap.parts_node read]
      exact (mapM_eq_ok.1 parts).imp fun _ _ => carries_finishPart
    · rw [roots, ← built.children, Heap.children_node read]

/-! ## All nodes -/

theorem filter_roots (built : s.Built deeds) :
    (s.building.nodes.toList.filter fun ref => (s.heap.links.parent? ref).isNone) =
      (Deed.createdIn deeds).filter fun ref => ref ∉ Deed.attachedIn deeds := by
  rw [built.created]
  refine List.filter_congr fun ref _ => ?_
  have attached : ∀ parent, s.heap.links.parent? ref = some parent ↔
      .attached parent ref ∈ deeds := by
    intro parent
    rw [← built.forested.forest.agree, built.children, Deed.mem_attachedTo]
  rw [Bool.eq_iff_iff, decide_eq_true_iff, Option.isNone_iff_eq_none, Deed.mem_attachedIn,
    Option.eq_none_iff_forall_ne_some, not_exists]
  exact forall_congr' fun parent => not_congr (attached parent)

theorem mem_roots (built : s.Built deeds) {x : Nat} (has : s.heap.links.Has x) :
    ∃ xs, s.heap.links.Ascent x xs ∧ ∃ ref ∈ (Deed.createdIn deeds).filter
      fun ref => ref ∉ Deed.attachedIn deeds, ref ∈ xs := by
  obtain ⟨xs, ascent, -⟩ := built.forested.forest.rooted x has
  obtain ⟨ref, on, isNode, free⟩ := ascent.exists_root
  refine ⟨xs, ascent, ref, ?_, on⟩
  rw [← filter_roots built]
  exact List.mem_filter.2 ⟨built.forested.created.2 isNode, Option.isNone_iff_eq_none.2 free⟩

theorem exists_finishRoots (built : s.Built deeds) :
    (∃ roots, finishRoots s.heap s.building.meshes s.building.nodes.toList = .ok roots) ↔
      ∀ ref ∈ Deed.createdIn deeds, s.heap.FiniteAt ref := by
  have nodes : ∀ ref ∈ s.building.nodes.toList, s.heap.links.Has ref :=
    fun ref mem => built.forested.created.1 mem
  rw [finishRoots_eq nodes, exists_mapM]
  constructor
  · intro copies x mem
    obtain ⟨xs, ascent, ref, isRoot, on⟩ := mem_roots built (built.mem_created.1 mem)
    rw [← filter_roots built] at isRoot
    have has := nodes ref (List.mem_filter.1 isRoot).1
    obtain ⟨path, ascent', -⟩ := built.forested.forest.rooted ref has
    exact (exists_finishNode built ascent').1 (copies ref isRoot) x xs ascent on
  · intro finite ref isRoot
    obtain ⟨path, ascent, -⟩ :=
      built.forested.forest.rooted ref (nodes ref (List.mem_filter.1 isRoot).1)
    exact (exists_finishNode built ascent).2 fun x xs ascent' _ =>
      finite x (built.mem_created.2 ascent'.has)

theorem depicts_finishRoots (built : s.Built deeds) {roots : List ModelNode}
    (finished : finishRoots s.heap s.building.meshes s.building.nodes.toList = .ok roots) :
    ∃ ts : List NodeTree, ts.map NodeTree.root =
        ((Deed.createdIn deeds).filter fun ref => ref ∉ Deed.attachedIn deeds) ∧
      (NodeTree.refsAll ts).Perm (Deed.createdIn deeds) ∧
      List.Forall₂ (Depicts s deeds) ts roots := by
  have nodes : ∀ ref ∈ s.building.nodes.toList, s.heap.links.Has ref :=
    fun ref mem => built.forested.created.1 mem
  rw [finishRoots_eq nodes, mapM_eq_ok, filter_roots built] at finished
  have alone : ∀ ref ∈ (Deed.createdIn deeds).filter fun ref => ref ∉ Deed.attachedIn deeds,
      s.heap.links.Ascent ref [ref] := by
    intro ref isRoot
    rw [← filter_roots built] at isRoot
    obtain ⟨mem, free⟩ := List.mem_filter.1 isRoot
    exact .root (nodes ref mem) (Option.isNone_iff_eq_none.1 free)
  have trees := ((List.forall₂_and_left _ _).2 ⟨alone, finished⟩).imp
    fun ref m ⟨ascent, made⟩ => depicts_finishNode built ascent made
  obtain ⟨ts, areRoots, depicts, nodup, mem⟩ := depicts_all trees (built.distinct.filter _)
    fun ref isRoot => ⟨_, alone ref isRoot, List.length_singleton⟩
  refine ⟨ts, areRoots, ?_, depicts⟩
  refine (List.perm_ext_iff_of_nodup nodup built.distinct).2 fun x => ?_
  rw [mem, built.mem_created]
  constructor
  · rintro ⟨xs, ascent, -⟩
    exact ascent.has
  · exact mem_roots built

end Building

/-! ## Totals -/

variable {s : RunState} {deeds : List Deed}

theorem Depicts.count : ∀ (t : NodeTree) (m : ModelNode), Depicts s deeds t m →
    m.count = t.refs.length
  | .node ref trees, _, .node _ _ _ _ below => by
    rw [ModelNode.count, NodeTree.refs, List.length_cons, countAll trees _ below, Nat.add_comm]
where
  countAll : ∀ (ts : List NodeTree) (ms : List ModelNode), List.Forall₂ (Depicts s deeds) ts ms →
      ModelNode.countAll ms = (NodeTree.refsAll ts).length
    | [], _, .nil => rfl
    | t :: ts, m :: ms, .cons first rest => by
      rw [ModelNode.countAll, NodeTree.refsAll, List.length_append, Depicts.count t m first,
        countAll ts ms rest]

theorem Depicts.parts : ∀ (t : NodeTree) (m : ModelNode) (parent : Matrix), Depicts s deeds t m →
    List.Forall₂ (Part.Carries s) (t.refs.flatMap fun ref => Deed.placedOn ref deeds)
      ((m.worldParts parent).map Prod.snd)
  | .node ref trees, ⟨_, transform, parts, children⟩, parent, .node _ _ placed _ below => by
    have own : parts.map (Prod.snd ∘ fun p => (parent.mul transform.matrix, p)) = parts :=
      List.map_id'' (fun _ => rfl) parts
    rw [ModelNode.worldParts, NodeTree.refs, List.flatMap_cons, List.map_append, List.map_map, own]
    exact List.rel_append placed (partsAll trees children _ below)
where
  partsAll : ∀ (ts : List NodeTree) (ms : List ModelNode) (world : Matrix),
      List.Forall₂ (Depicts s deeds) ts ms →
      List.Forall₂ (Part.Carries s)
        ((NodeTree.refsAll ts).flatMap fun ref => Deed.placedOn ref deeds)
        ((ModelNode.worldPartsAll world ms).map Prod.snd)
    | [], _, _, .nil => .nil
    | t :: ts, m :: ms, world, .cons first rest => by
      rw [ModelNode.worldPartsAll, NodeTree.refsAll, List.flatMap_append, List.map_append]
      exact List.rel_append (Depicts.parts t m world first) (partsAll ts ms world rest)

theorem map_eq_of_forall₂ {α β γ : Type} {R : α → β → Prop} {f : α → γ} {g : β → γ}
    (same : ∀ a b, R a b → f a = g b) {as : List α} {bs : List β} (related : List.Forall₂ R as bs) :
    as.map f = bs.map g := by
  rw [← List.forall₂_eq_eq_eq, List.forall₂_map_left_iff, List.forall₂_map_right_iff]
  exact related.imp same

namespace Part.Carries

variable {placed : Nat × Nat} {p : Part}

theorem vertexCount (carries : p.Carries s placed) :
    s.building.meshes[placed.1]?.elim 0 Mesh.vertexCount = p.mesh.vertexCount := by
  obtain ⟨mesh, m, known, -, positions, -⟩ := carries
  have length : ∀ mesh : Mesh, mesh.positions.length = mesh.vertexCount := by
    intro mesh
    rw [Mesh.positions, List.length_map, List.length_range]
  rw [known, Option.elim_some, ← length, ← length, positions]

theorem triangleCount (carries : p.Carries s placed) :
    s.building.meshes[placed.1]?.elim 0 Mesh.triangleCount = p.mesh.triangleCount := by
  obtain ⟨mesh, m, known, -, -, -, indices, -⟩ := carries
  rw [known, Option.elim_some, Mesh.triangleCount, Mesh.triangleCount, indices]

end Part.Carries

namespace Model

variable {m : Model} {ts : List NodeTree}

theorem vertexCount_eq (m : Model) :
    m.vertexCount = ((m.worldParts.map Prod.snd).map fun p => p.mesh.vertexCount).sum := by
  rw [vertexCount, List.map_map, List.sum_eq_foldr, List.foldr_map]
  rfl

theorem triangleCount_eq (m : Model) :
    m.triangleCount = ((m.worldParts.map Prod.snd).map fun p => p.mesh.triangleCount).sum := by
  rw [triangleCount, List.map_map, List.sum_eq_foldr, List.foldr_map]
  rfl

variable (built : s.Built deeds) (depicts : List.Forall₂ (Depicts s deeds) ts m.roots)
  (all : (NodeTree.refsAll ts).Perm (Deed.createdIn deeds))

include depicts all

theorem nodeCount_depicted : m.nodeCount = (Deed.createdIn deeds).length := by
  rw [nodeCount, Depicts.count.countAll ts m.roots depicts, all.length_eq]

include built

theorem parts_depicted : ∃ placed : List (Nat × Nat), placed.Perm (Deed.placedIn deeds) ∧
    List.Forall₂ (Part.Carries s) placed (m.worldParts.map Prod.snd) := by
  refine ⟨_, ?_, Depicts.parts.partsAll ts m.roots .identity depicts⟩
  exact (all.flatMap_right _).trans (Deed.flatMap_placedOn built.distinct built.created_of_placed)

theorem partCount_depicted : m.partCount = (Deed.placedIn deeds).length := by
  obtain ⟨placed, perm, parts⟩ := parts_depicted built depicts all
  rw [partCount, ← perm.length_eq, parts.length_eq, List.length_map]

theorem vertexCount_depicted : m.vertexCount = ((Deed.placedIn deeds).map fun placed =>
    s.building.meshes[placed.1]?.elim 0 Mesh.vertexCount).sum := by
  obtain ⟨placed, perm, parts⟩ := parts_depicted built depicts all
  have counts := map_eq_of_forall₂ (fun _ _ carries => carries.vertexCount) parts
  rw [vertexCount_eq, ← counts]
  exact (perm.map _).sum_eq

theorem triangleCount_depicted : m.triangleCount = ((Deed.placedIn deeds).map fun placed =>
    s.building.meshes[placed.1]?.elim 0 Mesh.triangleCount).sum := by
  obtain ⟨placed, perm, parts⟩ := parts_depicted built depicts all
  have counts := map_eq_of_forall₂ (fun _ _ carries => carries.triangleCount) parts
  rw [triangleCount_eq, ← counts]
  exact (perm.map _).sum_eq

end Model

end SceneScript

/-!
## The finished model is what was built

However a builder came to its state, as long as it is open: `end` succeeds if and only if the
vectors of all created nodes are finite, and then the model consists of those nodes as they are at
that moment, with the parts that were placed on them and the children that were attached to them
(`Leads.finished_model`).
-/

namespace SceneScript

open Building Run

/-- The model is exactly what the deeds have built, as it stands in the state. -/
structure Model.IsBuilt (s : RunState) (deeds : List Deed) (m : Model) : Prop where
  id : m.id = s.nextModel
  /-- The trees begin with the nodes that were not attached. They contain every created node once
  and show it as it is, with its parts and children in order. -/
  roots : ∃ ts : List NodeTree, ts.map NodeTree.root =
      ((Deed.createdIn deeds).filter fun ref => ref ∉ Deed.attachedIn deeds) ∧
    (NodeTree.refsAll ts).Perm (Deed.createdIn deeds) ∧ List.Forall₂ (Depicts s deeds) ts m.roots
  nodeCount : m.nodeCount = (Deed.createdIn deeds).length
  partCount : m.partCount = (Deed.placedIn deeds).length
  vertexCount : m.vertexCount = ((Deed.placedIn deeds).map fun placed =>
    s.building.meshes[placed.1]?.elim 0 Mesh.vertexCount).sum
  triangleCount : m.triangleCount = ((Deed.placedIn deeds).map fun placed =>
    s.building.meshes[placed.1]?.elim 0 Mesh.triangleCount).sum

theorem Model.isBuilt {s : RunState} {deeds : List Deed} {roots : List ModelNode}
    (built : s.Built deeds)
    (finished : finishRoots s.heap s.building.meshes s.building.nodes.toList = .ok roots) :
    Model.IsBuilt s deeds ⟨s.nextModel, roots⟩ := by
  obtain ⟨ts, areRoots, all, depicts⟩ := depicts_finishRoots built finished
  exact {
    id := rfl
    roots := ⟨ts, areRoots, all, depicts⟩
    nodeCount := nodeCount_depicted depicts all
    partCount := partCount_depicted built depicts all
    vertexCount := vertexCount_depicted built depicts all
    triangleCount := triangleCount_depicted built depicts all }

theorem Building.finish_eq {limits : Limits} {s : RunState} (isOpen : s.building.ended = false) :
    finish limits s = match finishRoots s.heap s.building.meshes s.building.nodes.toList with
      | .ok roots => .ok (.object s.heap.size) { s with
          heap := (s.heap.add (.model ⟨s.nextModel, roots⟩)).2
          building := { s.building with ended := true }
          nextModel := s.nextModel + 1 }
      | .error cause => .error ⟨cause, none⟩ { s with
          building := { s.building with ended := true } } := by
  unfold finish
  rw [bind_apply, ensureOpen_run isOpen]
  change ((liftM (finishRoots s.heap s.building.meshes s.building.nodes.toList) :
    Run (List ModelNode)) >>= _) limits { s with building := { s.building with ended := true } } = _
  cases finishRoots s.heap s.building.meshes s.building.nodes.toList <;> rfl

theorem Leads.finished_model {limits : Limits} {n : Nat} {deeds : List Deed} {s : RunState}
    (leads : Leads limits (.start n) deeds s) (isOpen : s.building.ended = false)
    (receiver : Value) :
    ((∃ v s', (Call.method .modelBuilder "end" receiver []).run limits s = .ok v s') ↔
      ∀ ref ∈ Deed.createdIn deeds, s.heap.FiniteAt ref) ∧
    ∀ v s', (Call.method .modelBuilder "end" receiver []).run limits s = .ok v s' →
      ∃ m, v = .object s.heap.size ∧ s'.heap.model s.heap.size = .ok m ∧
        Model.IsBuilt s deeds m := by
  have isFinish : (Call.method .modelBuilder "end" receiver []).run = finish := rfl
  rw [isFinish, finish_eq isOpen, ← exists_finishRoots leads.built]
  cases made : finishRoots s.heap s.building.meshes s.building.nodes.toList with
  | error cause => exact ⟨⟨nofun, nofun⟩, nofun⟩
  | ok roots =>
    refine ⟨⟨fun _ => ⟨roots, rfl⟩, fun _ => ⟨_, _, rfl⟩⟩, fun v s' ended => ?_⟩
    cases ended
    refine ⟨⟨s.nextModel, roots⟩, rfl, ?_, Model.isBuilt leads.built made⟩
    rw [Heap.model_eq_ok, Heap.find_add]
    exact if_pos rfl

theorem Leads.finished_model_pair :
    Leads {} (.start 0) [.created 4, .created 8, .attached 4 8] .pair ∧
    RunState.pair.building.ended = false ∧
    ((∃ v s', (Call.method .modelBuilder "end" (.object 0) []).run {} .pair = .ok v s') ↔
      ∀ ref ∈ [4, 8], RunState.pair.heap.FiniteAt ref) ∧
    ∀ v s', (Call.method .modelBuilder "end" (.object 0) []).run {} .pair = .ok v s' →
      ∃ m, v = .object 9 ∧ s'.heap.model 9 = .ok m ∧ m.nodeCount = 2 := by
  obtain ⟨succeeds, gives⟩ := Leads.finished_model Leads.pair rfl (.object 0)
  refine ⟨Leads.pair, rfl, succeeds, fun v s' ended => ?_⟩
  obtain ⟨m, is, found, built⟩ := gives v s' ended
  exact ⟨m, is, found, built.nodeCount⟩

end SceneScript
