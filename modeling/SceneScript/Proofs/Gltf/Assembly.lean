import SceneScript.Proofs.Gltf.Extremes
import SceneScript.Proofs.Gltf.Reading

/-!
# What an assembly adds

Tables and the buffer only grow, so what has been put into a document can be read in all that it
becomes. The views split the buffer up at every moment.
-/

namespace SceneScript.Gltf

/-! ## Growth -/

structure Document.Within (d e : Document) : Prop where
  buffer : d.buffer.data.toList <+: e.buffer.data.toList
  views : d.views.toList <+: e.views.toList
  accessors : d.accessors.toList <+: e.accessors.toList
  materials : d.materials.toList <+: e.materials.toList
  meshes : d.meshes.toList <+: e.meshes.toList
  nodes : d.nodes.toList <+: e.nodes.toList

theorem Document.Within.refl (d : Document) : d.Within d :=
  ⟨List.prefix_rfl, List.prefix_rfl, List.prefix_rfl, List.prefix_rfl, List.prefix_rfl,
    List.prefix_rfl⟩

theorem Document.Within.trans {d e f : Document} (first : d.Within e) (second : e.Within f) :
    d.Within f :=
  ⟨first.buffer.trans second.buffer, first.views.trans second.views,
    first.accessors.trans second.accessors, first.materials.trans second.materials,
    first.meshes.trans second.meshes, first.nodes.trans second.nodes⟩

theorem prefix_push (entries : Array α) (x : α) : entries.toList <+: (entries.push x).toList := by
  simp

theorem getElem?_of_push {entries later : Array α} {x : α}
    (grown : (entries.push x).toList <+: later.toList) : later[entries.size]? = some x := by
  obtain ⟨rest, split⟩ := grown
  rw [← Array.getElem?_toList, ← split]
  simp

/-! ## Views side by side -/

/-- The views, in order, split up the bytes from `start` to `stop`. Each begins with a word. -/
def Tiles (start : Nat) : List View → Nat → Prop
  | [], stop => start = stop
  | v :: rest, stop => v.offset = start ∧ start % 4 = 0 ∧ Tiles (start + v.length) rest stop

theorem Tiles.push {views : List View} {start stop : Nat} (tiles : Tiles start views stop)
    (aligned : stop % 4 = 0) (length : Nat) (target : Target) :
    Tiles start (views ++ [⟨stop, length, target⟩]) (stop + length) := by
  induction views generalizing start with
  | nil =>
    cases tiles
    exact ⟨rfl, aligned, rfl⟩
  | cons v rest ih => exact ⟨tiles.1, tiles.2.1, ih tiles.2.2⟩

theorem Tiles.offset_ge {views : List View} {start stop : Nat} (tiles : Tiles start views stop) :
    ∀ v ∈ views, start ≤ v.offset := by
  induction views generalizing start with
  | nil => simp
  | cons v rest ih =>
    obtain ⟨here, -, tail⟩ := tiles
    intro w member
    rcases List.mem_cons.mp member with rfl | member
    · exact here.ge
    · exact (Nat.le_add_right _ _).trans (ih tail w member)

theorem Tiles.disjoint {views : List View} {start stop : Nat} (tiles : Tiles start views stop) :
    views.Pairwise fun v w => v.offset + v.length ≤ w.offset := by
  induction views generalizing start with
  | nil => exact .nil
  | cons v rest ih =>
    obtain ⟨rfl, -, tail⟩ := tiles
    exact .cons tail.offset_ge (ih tail)

structure Document.Tiled (d : Document) : Prop where
  tiles : Tiles 0 d.views.toList d.buffer.size
  whole : d.buffer.size % 4 = 0

/-! ## Results of assemblies -/

/-- What an assembly leaves of a document, and what its result stands for in every document that
this becomes. -/
structure Assembly.Yields (act : Assembly α) (d : Document) (post : Document → α → Prop) :
    Prop where
  within : d.Within (act.run d).2
  tiled : d.Tiled → (act.run d).2.Tiled
  result : ∀ e, (act.run d).2.Within e → post e (act.run d).1

namespace Assembly.Yields

variable {act : Assembly α} {d : Document} {post : Document → α → Prop}

theorem pure {a : α} (holds : ∀ e, d.Within e → post e a) :
    Yields (Pure.pure a : Assembly α) d post :=
  ⟨.refl d, id, holds⟩

theorem bind {f : α → Assembly β} {last : Document → β → Prop} (first : act.Yields d post)
    (rest : ∀ a d', d.Within d' → (∀ e, d'.Within e → post e a) → (f a).Yields d' last) :
    Yields (act >>= f) d last := by
  have second := rest _ _ first.within first.result
  exact ⟨first.within.trans second.within, second.tiled ∘ first.tiled, second.result⟩

theorem imp {post' : Document → α → Prop} (holds : act.Yields d post)
    (enough : ∀ e a, d.Within e → post e a → post' e a) : act.Yields d post' :=
  ⟨holds.within, holds.tiled, fun e grown =>
    enough e _ (holds.within.trans grown) (holds.result e grown)⟩

theorem mapM {f : β → Assembly α} {related : Document → α → β → Prop} (l : List β) (d : Document)
    (each : ∀ x ∈ l, ∀ d, (f x).Yields d fun e a => related e a x) :
    (l.mapM f).Yields d fun e as => List.Forall₂ (related e) as l := by
  induction l generalizing d with
  | nil => exact pure fun e _ => .nil
  | cons x l ih =>
    rw [List.mapM_cons]
    refine bind (each x (by simp) d) fun a d' _ head => ?_
    refine bind (ih d' fun y member => each y (by simp [member])) fun as d'' grown tail => ?_
    exact pure fun e later => .cons (head e (grown.trans later)) (tail e later)

end Assembly.Yields

/-! ## Entries -/

theorem yields_addView {d : Document} {target : Target} {fill : ByteArray → ByteArray}
    {bytes : List UInt8} (filled : ∀ b, (fill b).data.toList = b.data.toList ++ bytes)
    (whole : bytes.length % 4 = 0) :
    (addView target fill).Yields d fun e i => e.Stores i bytes := by
  have size : (fill d.buffer).size = d.buffer.size + bytes.length := by
    have := congrArg List.length (filled d.buffer)
    simpa using this
  have run : (addView target fill).run d = (d.views.size, { d with
      buffer := fill d.buffer
      views := d.views.push ⟨d.buffer.size, (fill d.buffer).size - d.buffer.size, target⟩ }) := rfl
  constructor
  · rw [run]
    exact ⟨⟨bytes, (filled d.buffer).symm⟩, prefix_push _ _, List.prefix_rfl, List.prefix_rfl,
      List.prefix_rfl, List.prefix_rfl⟩
  · rw [run]
    intro tiled
    refine ⟨?_, ?_⟩
    · simpa [size] using tiled.tiles.push tiled.whole bytes.length target
    · have := tiled.whole
      show (fill d.buffer).size % 4 = 0
      omega
  · rw [run]
    intro e later
    refine ⟨_, getElem?_of_push later.views, ?_⟩
    obtain ⟨rest, split⟩ := later.buffer
    rw [← split, filled]
    simp [size]

theorem Assembly.Yields.aside {act : Assembly α} {d : Document} {post : Document → α → Prop}
    (within : d.Within (act.run d).2) (buffer : (act.run d).2.buffer = d.buffer)
    (views : (act.run d).2.views = d.views)
    (result : ∀ e, (act.run d).2.Within e → post e (act.run d).1) : act.Yields d post where
  within := within
  tiled tiled := ⟨by rw [views, buffer]; exact tiled.tiles, by rw [buffer]; exact tiled.whole⟩
  result := result

theorem yields_addAccessor (d : Document) (a : Accessor) :
    (addAccessor a).Yields d fun e i => e.accessors[i]? = some a :=
  .aside { Document.Within.refl d with accessors := prefix_push _ _ } rfl rfl fun _ later =>
    getElem?_of_push later.accessors

theorem yields_addMaterial (d : Document) (m : Surface) :
    (addMaterial m).Yields d fun e i => e.materials[i]? = some m :=
  .aside { Document.Within.refl d with materials := prefix_push _ _ } rfl rfl fun _ later =>
    getElem?_of_push later.materials

theorem yields_addMesh (d : Document) (m : MeshEntry) :
    (addMesh m).Yields d fun e i => e.meshes[i]? = some m :=
  .aside { Document.Within.refl d with meshes := prefix_push _ _ } rfl rfl fun _ later =>
    getElem?_of_push later.meshes

theorem yields_addNode (d : Document) (n : NodeEntry) :
    (addNode n).Yields d fun e i => e.nodes[i]? = some n ∧ i = d.nodes.size :=
  .aside { Document.Within.refl d with nodes := prefix_push _ _ } rfl rfl fun _ later =>
    ⟨getElem?_of_push later.nodes, rfl⟩

/-! ## Parts -/

structure Solid (p : Part) : Prop where
  vertices : p.mesh.vertexCount ≠ 0
  indices : p.mesh.indices ≠ #[]

structure Drawable (p : Part) : Prop where
  vertices : p.mesh.vertexCount ≠ 0
  indices : p.mesh.indices ≠ #[]
  finite : ∀ v ∈ p.mesh.positions, v.isFinite

theorem Drawable.solid {p : Part} (drawable : Drawable p) : Solid p :=
  ⟨drawable.vertices, drawable.indices⟩

structure Primitive.Holds (e : Document) (primitive : Primitive) (p : Part) : Prop where
  positions : ∃ view, e.accessors[primitive.positions]? =
      some ⟨view, .vectors, p.mesh.positions.length, some (range p.mesh.positions)⟩ ∧
    e.Stores view ((p.mesh.positions.flatMap vectorWords).flatMap splitWord)
  normals : ∃ view, e.accessors[primitive.normals]? =
      some ⟨view, .vectors, p.mesh.normals.length, none⟩ ∧
    e.Stores view ((p.mesh.normals.flatMap vectorWords).flatMap splitWord)
  indices : ∃ view, e.accessors[primitive.indices]? =
      some ⟨view, .numbers, p.mesh.indices.toList.length, none⟩ ∧
    e.Stores view (p.mesh.indices.toList.flatMap splitWord)
  material : e.materials[primitive.material]? = some (surface p.material)

theorem yields_addPrimitive {p : Part} (solid : Solid p) (d : Document) :
    (addPrimitive p).Yields d fun e found =>
      ∃ primitive, found = some primitive ∧ primitive.Holds e p := by
  have vectors (target : Target) (vs : List Vec3) (d : Document) :
      (addView target fun b => vs.foldl addVector b).Yields d fun e i =>
        e.Stores i ((vs.flatMap vectorWords).flatMap splitWord) :=
    yields_addView (bytes_foldl_addVector vs) (by rw [length_vectorBytes]; omega)
  have words (d : Document) :
      (addView .indices fun b => p.mesh.indices.foldl addWord b).Yields d fun e i =>
        e.Stores i (p.mesh.indices.toList.flatMap splitWord) := by
    simp only [← Array.foldl_toList]
    exact yields_addView (bytes_foldl_addWord p.mesh.indices.toList)
      (by rw [length_flatMap_splitWord]; omega)
  have nonempty : ¬(p.mesh.vertexCount = 0 ∨ p.mesh.indices.isEmpty) := by
    simp [solid.vertices, solid.indices]
  rw [addPrimitive, if_neg nonempty]
  have positionCount : p.mesh.vertexCount = p.mesh.positions.length := by simp [Mesh.positions]
  have normalCount : p.mesh.vertexCount = p.mesh.normals.length := by simp [Mesh.normals]
  refine .bind (vectors _ _ _) fun positionView _ _ storedPositions => ?_
  refine .bind (vectors _ _ _) fun normalView _ grown₁ storedNormals => ?_
  refine .bind (words _) fun indexView _ grown₂ storedIndices => ?_
  refine .bind (yields_addAccessor _ _) fun positions _ grown₃ positionAccessor => ?_
  refine .bind (yields_addAccessor _ _) fun normals _ grown₄ normalAccessor => ?_
  refine .bind (yields_addAccessor _ _) fun indices _ grown₅ indexAccessor => ?_
  refine .bind (yields_addMaterial _ _) fun material _ grown₆ ofMaterial => ?_
  refine .pure fun e grown₇ => ⟨_, rfl, ?_⟩
  -- What one step stores is still there after all the later ones.
  have after₆ := grown₆.trans grown₇
  have after₅ := grown₅.trans after₆
  have after₄ := grown₄.trans after₅
  have after₃ := grown₃.trans after₄
  have after₂ := grown₂.trans after₃
  have after₁ := grown₁.trans after₂
  rw [positionCount] at positionAccessor
  rw [normalCount] at normalAccessor
  exact {
    positions := ⟨_, positionAccessor e after₄, storedPositions e after₁⟩
    normals := ⟨_, normalAccessor e after₅, storedNormals e after₂⟩
    indices := ⟨_, indexAccessor e after₆, storedIndices e after₃⟩
    material := ofMaterial e grown₇ }

theorem found_filterMap {found : List (Option Primitive)} {parts : List Part}
    {related : Primitive → Part → Prop} (relates : List.Forall₂ (fun found p =>
      ∃ primitive, found = some primitive ∧ related primitive p) found parts) :
    List.Forall₂ related (found.filterMap id) parts := by
  induction relates with
  | nil => exact .nil
  | cons first _ ih =>
    obtain ⟨primitive, rfl, holds⟩ := first
    exact .cons holds ih

section

variable (name : String) (roots : List Nat)

theorem Primitive.Holds.shows {e : Document} {primitive : Primitive} {p : Part}
    (holds : primitive.Holds e p) (drawable : Drawable p) :
    primitive.Shows (e.json name roots) e.buffer.data.toList p := by
  obtain ⟨⟨_, ofPositions, positions⟩, ⟨_, ofNormals, normals⟩, ⟨_, ofIndices, indices⟩, -⟩ := holds
  have points : p.mesh.positions ≠ [] := by
    simpa [Mesh.positions] using drawable.vertices
  exact {
    positions := vectorsAt?_json e name roots ofPositions positions
    normals := vectorsAt?_json e name roots ofNormals normals
    indices := numbersAt?_json e name roots ofIndices indices
    range := ⟨_, ofPoints_eq_range points drawable.finite,
      rangeAt?_json e name roots ofPositions rfl (range_isFinite drawable.finite)⟩ }

theorem shown_filterMap {e : Document} {found : List (Option Primitive)} {parts : List Part}
    (drawable : ∀ p ∈ parts, Drawable p) (held : List.Forall₂ (fun found p =>
      ∃ primitive, found = some primitive ∧ primitive.Holds e p) found parts) :
    List.Forall₂ (Primitive.Shows (e.json name roots) e.buffer.data.toList)
      (found.filterMap id) parts := by
  have holds := found_filterMap held
  rw [List.forall₂_iff_get] at holds ⊢
  refine ⟨holds.1, fun i bound bound' => ?_⟩
  exact (holds.2 i bound bound').shows name roots (drawable _ (List.get_mem _ _))

/-! ## Trees -/

/-- A node, with what is below it, shows parts. What is below it has smaller numbers. -/
def Draws (e : Document) (i : Nat) (parts : List Part) : Prop :=
  i < e.nodes.size ∧ ∀ depth, i < depth → ∃ primitives,
    primitivesBelow? (e.json name roots) depth i = some primitives ∧
      List.Forall₂ (Primitive.Shows (e.json name roots) e.buffer.data.toList) primitives parts

theorem draws_all {e : Document} {is : List Nat} {partss : List (List Part)} {depth : Nat}
    (draw : List.Forall₂ (Draws name roots e) is partss) (deep : ∀ i ∈ is, i < depth) :
    ∃ below, is.mapM (primitivesBelow? (e.json name roots) depth) = some below ∧
      List.Forall₂ (Primitive.Shows (e.json name roots) e.buffer.data.toList) below.flatten
        partss.flatten := by
  induction draw with
  | nil => exact ⟨[], rfl, .nil⟩
  | @cons i parts is partss first _ ih =>
    obtain ⟨primitives, read, shown⟩ := first.2 depth (deep i (by simp))
    obtain ⟨below, readAll, shownAll⟩ := ih fun j member => deep j (by simp [member])
    refine ⟨primitives :: below, ?_, List.rel_append shown shownAll⟩
    simp [List.mapM_cons, read, readAll]

theorem yields_mesh {primitives : List Primitive} {meshName : String} {d : Document}
    {rest : Option Nat → Assembly β} {post : Document → β → Prop}
    (next : ∀ mesh d', d.Within d' →
      (∀ e, d'.Within e → ∀ n : NodeEntry, n.mesh = mesh →
        ownPrimitives? (e.json name roots) n.json = some primitives) →
      (rest mesh).Yields d' post) :
    (if primitives.isEmpty then pure none >>= rest
      else some <$> addMesh ⟨meshName, primitives⟩ >>= rest).Yields d post := by
  split
  · rename_i empty
    obtain rfl : primitives = [] := by simpa using empty
    exact next none d (.refl d) fun e _ n shape => ownPrimitives?_of_none e name roots shape
  · rw [map_eq_pure_bind, bind_assoc]
    refine .bind (yields_addMesh d _) fun i d' grown stored => ?_
    exact next (some i) d' grown fun e later n shape =>
      ownPrimitives?_of_some e name roots shape (stored e later)

theorem draws_lt {e : Document} {is : List Nat} {partss : List (List Part)}
    (draw : List.Forall₂ (Draws name roots e) is partss) : ∀ i ∈ is, i < e.nodes.size := by
  induction draw with
  | nil => simp
  | cons first _ ih => simpa using ⟨first.1, ih⟩

theorem draws_node {e : Document} {i : Nat} {n : NodeEntry} {own : List Primitive}
    {ownParts : List Part} {partss : List (List Part)} (stored : e.nodes[i]? = some n)
    (read : ownPrimitives? (e.json name roots) n.json = some own)
    (shown : List.Forall₂ (Primitive.Shows (e.json name roots) e.buffer.data.toList) own ownParts)
    (drawn : List.Forall₂ (Draws name roots e) n.children partss)
    (smaller : ∀ j ∈ n.children, j < i) :
    Draws name roots e i (ownParts ++ partss.flatten) := by
  refine ⟨(Array.getElem?_eq_some_iff.mp stored).1, fun depth deep => ?_⟩
  cases depth with
  | zero => omega
  | succ depth =>
    obtain ⟨below, readBelow, shownBelow⟩ := draws_all name roots drawn
      fun j member => (smaller j member).trans_le (Nat.le_of_lt_succ deep)
    refine ⟨own ++ below.flatten, ?_, List.rel_append shown shownBelow⟩
    simp only [primitivesBelow?, entryAt?_nodes, stored, Option.map_some, Option.bind_eq_bind,
      Option.bind_some, read, children?_json, readBelow, Option.pure_def]

theorem snd_worldParts (parent : Matrix) (name : String) (transform : Transform) (parts : List Part)
    (children : List ModelNode) :
    ((ModelNode.mk name transform parts children).worldParts parent).map Prod.snd =
      parts ++ (ModelNode.worldPartsAll (parent.mul transform.matrix) children).map Prod.snd := by
  simp [ModelNode.worldParts]

theorem snd_worldPartsAll_cons (parent : Matrix) (n : ModelNode) (rest : List ModelNode) :
    (ModelNode.worldPartsAll parent (n :: rest)).map Prod.snd =
      (n.worldParts parent).map Prod.snd ++
        (ModelNode.worldPartsAll parent rest).map Prod.snd := by
  simp [ModelNode.worldPartsAll]

mutual

theorem yields_addTree (parent : Matrix) (n : ModelNode)
    (drawable : ∀ p ∈ (n.worldParts parent).map Prod.snd, Drawable p) (d : Document) :
    (addTree n).Yields d fun e i => Draws name roots e i ((n.worldParts parent).map Prod.snd) := by
  obtain ⟨nodeName, transform, parts, children⟩ := n
  rw [snd_worldParts] at drawable ⊢
  rw [addTree]
  have ofParts : ∀ p ∈ parts, Drawable p := fun p member => drawable p (by simp [member])
  refine .bind (.mapM parts d fun p member d => yields_addPrimitive (ofParts p member).solid d)
    fun found d₁ _ held => ?_
  refine .bind (yields_addTrees (parent.mul transform.matrix) children
    (fun p member => drawable p (List.mem_append_right _ member)) d₁)
    fun below d₂ grown₁ drawn => ?_
  refine yields_mesh name roots fun mesh d₃ grown₂ own => ?_
  obtain ⟨_, numbered, -⟩ := drawn d₃ grown₂
  refine (yields_addNode d₃ _).imp fun e i later stored => ?_
  obtain ⟨partss, drawnLater, flat⟩ := drawn e (grown₂.trans later)
  rw [← flat]
  refine draws_node name roots stored.1 (own e later _ rfl)
    (shown_filterMap name roots ofParts (held e (grown₁.trans (grown₂.trans later)))) drawnLater
    fun j member => ?_
  rw [stored.2]
  exact draws_lt name roots numbered j member

theorem yields_addTrees (parent : Matrix) (ns : List ModelNode)
    (drawable : ∀ p ∈ (ModelNode.worldPartsAll parent ns).map Prod.snd, Drawable p)
    (d : Document) :
    (addTrees ns).Yields d fun e is => ∃ partss, List.Forall₂ (Draws name roots e) is partss ∧
      partss.flatten = (ModelNode.worldPartsAll parent ns).map Prod.snd := by
  cases ns with
  | nil => exact .pure fun e _ => ⟨[], .nil, rfl⟩
  | cons n rest =>
    rw [snd_worldPartsAll_cons] at drawable ⊢
    rw [addTrees]
    refine .bind (yields_addTree parent n
      (fun p member => drawable p (List.mem_append_left _ member)) d) fun root d₁ _ first => ?_
    refine .bind (yields_addTrees parent rest
      (fun p member => drawable p (List.mem_append_right _ member)) d₁)
      fun others d₂ grown₁ later => ?_
    refine .pure fun e grown₂ => ?_
    obtain ⟨partss, drawn, flat⟩ := later e grown₂
    exact ⟨_ :: partss, .cons (first e (grown₁.trans grown₂)) drawn,
      by rw [List.flatten_cons, flat]⟩

end

end

end SceneScript.Gltf
