import SceneScript.Proofs.Machine.Safe
import SceneScript.Machine.Building

/-!
# Building is safe

The operations of a model builder and of its nodes on arguments of the right types. The walks up and
down the hierarchy of nodes only meet nodes, since the parents and children of nodes are nodes.
-/

namespace SceneScript

/-! ## Checks that read the heap -/

def Mild {α : Type} (x : Except FaultCause α) : Prop :=
  ∀ cause, x = .error cause → cause.isIllTyped = false

namespace Mild

variable {α β : Type} {x : Except FaultCause α}

theorem ok (a : α) : Mild (.ok a) := by
  intro cause failed
  cases failed

theorem error {cause : FaultCause} (mild : cause.isIllTyped = false) :
    Mild (.error cause : Except FaultCause α) := by
  intro cause' failed
  cases failed
  exact mild

theorem bind {next : α → Except FaultCause β} (first : Mild x) (rest : ∀ a, Mild (next a)) :
    Mild (x >>= next) := by
  cases x with
  | ok a => exact rest a
  | error cause => exact .error (first cause rfl)

theorem bind_ok {next : α → Except FaultCause β} {a : α} (first : x = .ok a)
    (rest : Mild (next a)) : Mild (x >>= next) := by
  rw [first]
  exact rest

theorem mapM {f : α → Except FaultCause β} {as : List α} (each : ∀ a ∈ as, Mild (f a)) :
    Mild (as.mapM f) := by
  induction as with
  | nil => exact .ok []
  | cons a as ih =>
    rw [List.mapM_cons]
    refine (each a List.mem_cons_self).bind fun b => ?_
    exact (ih fun a' mem => each a' (List.mem_cons_of_mem a mem)).bind fun bs => .ok (b :: bs)

end Mild

namespace Building

variable {h : Heap}

theorem mild_levelsAbove (typed : h.WellTyped) (child : Nat) (levels ref : Nat)
    (kind : h.kind? ref = some .node) : Mild (levelsAbove h child levels ref) := by
  induction levels generalizing ref with
  | zero => exact .error rfl
  | succ levels ih =>
    obtain ⟨n, read, node⟩ := Heap.node_ok kind typed
    unfold levelsAbove
    split
    · exact .error rfl
    · refine .bind_ok read ?_
      cases found : n.parent with
      | none => exact .ok 1
      | some parent =>
        exact (ih parent (node.parent parent found)).bind fun above => .ok (1 + above)

theorem mild_levelsBelow (typed : h.WellTyped) (levels ref : Nat)
    (kind : h.kind? ref = some .node) : Mild (levelsBelow h levels ref) := by
  induction levels generalizing ref with
  | zero => exact .error rfl
  | succ levels ih =>
    obtain ⟨n, read, node⟩ := Heap.node_ok kind typed
    unfold levelsBelow
    refine .bind_ok read ?_
    refine Mild.bind (.mapM fun child mem => ?_) fun below => .ok _
    exact ih child (node.children child (Array.mem_toList_iff.1 mem))

theorem mild_finishPart (meshes : Array Mesh) {part : Nat × Nat}
    (kind : h.kind? part.2 = some .material) : Mild (finishPart h meshes part) := by
  obtain ⟨m, read⟩ := Heap.material_ok kind
  unfold finishPart
  refine .bind_ok read ?_
  split
  · exact .error rfl
  · exact .ok _

theorem mild_finishTransform {n : NodeObject} (node : n.WellTyped h) :
    Mild (finishTransform h n) := by
  obtain ⟨t, translation⟩ := Heap.vector_ok node.translation
  obtain ⟨r, rotation⟩ := Heap.vector_ok node.rotation
  obtain ⟨v, scale⟩ := Heap.vector_ok node.scale
  unfold finishTransform
  refine .bind_ok translation (.bind_ok rotation (.bind_ok scale ?_))
  dsimp only
  split
  · exact .ok _
  · exact .error rfl

theorem mild_finishNode (typed : h.WellTyped) (meshes : Array Mesh) (levels ref : Nat)
    (kind : h.kind? ref = some .node) : Mild (finishNode h meshes levels ref) := by
  induction levels generalizing ref with
  | zero => exact .error rfl
  | succ levels ih =>
    obtain ⟨n, read, node⟩ := Heap.node_ok kind typed
    unfold finishNode
    refine .bind_ok read ?_
    refine (mild_finishTransform node).bind fun transform => ?_
    refine Mild.bind (.mapM fun part mem => ?_) fun parts => ?_
    · exact mild_finishPart meshes (node.parts part (Array.mem_toList_iff.1 mem))
    · refine Mild.bind (.mapM fun child mem => ?_) fun children => .ok _
      exact ih child (node.children child (Array.mem_toList_iff.1 mem))

theorem mild_finishRoots (typed : h.WellTyped) (meshes : Array Mesh) (refs : List Nat)
    (kinds : ∀ ref ∈ refs, h.kind? ref = some .node) : Mild (finishRoots h meshes refs) := by
  induction refs with
  | nil => exact .ok []
  | cons ref rest ih =>
    have ofRest := ih fun ref' mem => kinds ref' (List.mem_cons_of_mem ref mem)
    have kind := kinds ref List.mem_cons_self
    obtain ⟨n, read, -⟩ := Heap.node_ok kind typed
    unfold finishRoots
    refine .bind_ok read ?_
    split
    · exact (mild_finishNode typed meshes maxLevels ref kind).bind fun root =>
        ofRest.bind fun roots => .ok (root :: roots)
    · exact ofRest

/-! ## Operations -/

open Run

variable {limits : Limits} {s : RunState} {h : Heap}

theorem safe_mild {α : Type} {x : Except FaultCause α} (mild : Mild x) :
    Safe limits s (liftM x : Run α) fun _ _ => True :=
  safe_lift (fun _ _ => trivial) mild

theorem safe_ensureOpen : Safe limits s ensureOpen fun _ _ => True := by
  unfold ensureOpen
  rw [safe_building_bind]
  exact safe_ensure rfl

theorem safe_dimension (what : Dimension) {v : Value} (typed : v.HasType h .float) :
    Safe limits s (dimension what v) fun _ _ => True := by
  refine .bind (safe_asFloat typed) fun x _ _ _ _ => ?_
  exact .guard rfl (.pure trivial)

theorem safe_divisions {v : Value} (typed : v.HasType h .int) :
    Safe limits s (divisions v) fun _ _ => True := by
  refine .bind (safe_asInt typed) fun n _ _ _ _ => ?_
  rw [safe_limits_bind]
  exact .guard rfl (.pure trivial)

theorem safe_reserve (count : Nat) : Safe limits s (reserve count) fun _ _ => True := by
  unfold reserve
  rw [safe_building_bind, safe_limits_bind]
  exact .guard rfl (safe_modifyBuilding rfl)

theorem safe_primitive {name : String} {args : List Value}
    (generates : ∀ s', Safe limits s' (generate name args) fun _ _ => True) :
    Safe limits s (primitive name args) fun v s' => v.HasType s'.heap .int := by
  refine .bind safe_ensureOpen fun _ s₁ _ _ _ => ?_
  rw [safe_limits_bind, safe_building_bind]
  refine .guard rfl (.bind (generates _) fun mesh s₂ _ _ _ => ?_)
  rw [safe_building_bind]
  exact .bind (safe_modifyBuilding rfl) fun _ _ _ _ _ => .pure (.int _)

theorem safe_box {w t d : Value} (width : w.HasType h .float) (height : t.HasType h .float)
    (depth : d.HasType h .float) : Safe limits s (generate "box" [w, t, d]) fun _ _ => True := by
  refine .bind (safe_dimension .width width) fun _ _ _ _ _ => ?_
  refine .bind (safe_dimension .height height) fun _ _ _ _ _ => ?_
  refine .bind (safe_dimension .depth depth) fun _ _ _ _ _ => ?_
  exact .bind (safe_reserve _) fun _ _ _ _ _ => .pure trivial

theorem safe_sphere {r n : Value} (radius : r.HasType h .float) (count : n.HasType h .int) :
    Safe limits s (generate "sphere" [r, n]) fun _ _ => True := by
  refine .bind (safe_dimension .radius radius) fun _ _ _ _ _ => ?_
  refine .bind (safe_divisions count) fun _ _ _ _ _ => ?_
  exact .bind (safe_reserve _) fun _ _ _ _ _ => .pure trivial

theorem safe_cylinder {r t n : Value} (radius : r.HasType h .float) (height : t.HasType h .float)
    (count : n.HasType h .int) : Safe limits s (generate "cylinder" [r, t, n]) fun _ _ => True := by
  refine .bind (safe_dimension .radius radius) fun _ _ _ _ _ => ?_
  refine .bind (safe_dimension .height height) fun _ _ _ _ _ => ?_
  refine .bind (safe_divisions count) fun _ _ _ _ _ => ?_
  exact .bind (safe_reserve _) fun _ _ _ _ _ => .pure trivial

theorem safe_cone {r t n : Value} (radius : r.HasType h .float) (height : t.HasType h .float)
    (count : n.HasType h .int) : Safe limits s (generate "cone" [r, t, n]) fun _ _ => True := by
  refine .bind (safe_dimension .radius radius) fun _ _ _ _ _ => ?_
  refine .bind (safe_dimension .height height) fun _ _ _ _ _ => ?_
  refine .bind (safe_divisions count) fun _ _ _ _ _ => ?_
  exact .bind (safe_reserve _) fun _ _ _ _ _ => .pure trivial

theorem safe_plane {w d : Value} (width : w.HasType h .float) (depth : d.HasType h .float) :
    Safe limits s (generate "plane" [w, d]) fun _ _ => True := by
  refine .bind (safe_dimension .width width) fun _ _ _ _ _ => ?_
  refine .bind (safe_dimension .depth depth) fun _ _ _ _ _ => ?_
  exact .bind (safe_reserve _) fun _ _ _ _ _ => .pure trivial

theorem wellTyped_new (id : String) {t r v : Nat} (translation : h.kind? t = some .vector)
    (rotation : h.kind? r = some .vector) (scale : h.kind? v = some .vector) :
    NodeObject.WellTyped h ⟨id, t, r, v, #[], #[], none⟩ where
  translation := translation
  rotation := rotation
  scale := scale
  parts part mem := by simp at mem
  children child mem := by simp at mem
  parent parent found := by cases found

theorem safe_recordNode {ref : Nat} (found : s.heap.kind? ref = some .node) :
    Safe limits s (modifyBuilding fun b => { b with nodes := b.nodes.push ref })
      fun _ _ => True := by
  intro typed
  refine ⟨⟨typed.heap, fun ref' mem => ?_⟩, .refl _, trivial⟩
  rcases Array.mem_push.1 mem with old | rfl
  · exact typed.nodes ref' old
  · exact found

theorem safe_newNode : Safe limits s newNode fun v s' => v.HasType s'.heap (.object .node) := by
  refine .bind safe_ensureOpen fun _ s₁ _ _ _ => ?_
  rw [safe_limits_bind, safe_building_bind]
  refine .guard rfl (.bind (safe_addObject trivial) fun t s₂ _ grown₂ translation => ?_)
  refine .bind (safe_addObject trivial) fun r s₃ _ grown₃ rotation => ?_
  refine .bind (safe_addObject trivial) fun v s₄ _ grown₄ scale => ?_
  have node := wellTyped_new s!"node{s₁.building.nodes.size}"
    (grown₄ _ _ (grown₃ _ _ translation)) (grown₄ _ _ rotation) scale
  refine .bind (safe_addObject node) fun ref s₅ _ _ found => ?_
  refine .bind (safe_recordNode found) fun _ s₆ _ grown₆ _ => ?_
  exact .pure (.object rfl (grown₆ _ _ found))

theorem safe_placePart {node : Nat} {part material : Value}
    (isNode : s.heap.kind? node = some .node) (isInt : part.HasType h .int)
    (isMaterial : material.HasType s.heap (.object .material)) :
    Safe limits s (placePart node part material) fun _ _ => True := by
  refine .bind safe_ensureOpen fun _ s₁ _ grown₁ _ => ?_
  refine .bind (safe_asInt isInt) fun n s₂ _ grown₂ _ => ?_
  rw [safe_building_bind]
  split
  · refine .bind (safe_asObject isMaterial rfl) fun ref s₃ _ grown₃ found => ?_
    have found₃ := grown₃ _ _ (grown₂ _ _ (grown₁ _ _ found))
    rw [safe_heap_bind]
    refine .bind (safe_total (Heap.material_ok found₃)) fun _ s₄ _ grown₄ _ => ?_
    rw [safe_limits_bind, safe_building_bind]
    refine .guard rfl (.bind (safe_reserve _) fun _ s₅ _ grown₅ _ => ?_)
    refine .bind (safe_modifyBuilding rfl) fun _ s₆ typed₆ grown₆ _ => ?_
    rw [safe_heap_bind]
    have later : s.heap.Extends s₆.heap :=
      grown₁.trans (grown₂.trans (grown₃.trans (grown₄.trans (grown₅.trans grown₆))))
    refine .bind (safe_read (Heap.node_ok (later _ _ isNode) typed₆.heap)) fun _ s₇ _ grown₇ _ => ?_
    refine safe_modifyNode node fun n typed => { typed with parts := fun p mem => ?_ }
    rcases Array.mem_push.1 mem with old | rfl
    · exact typed.parts p old
    · exact grown₇ _ _ (grown₆ _ _ (grown₅ _ _ (grown₄ _ _ found₃)))
  · exact .fault rfl

theorem safe_nextModel :
    Safe limits s (modifyGet fun s => (s.nextModel, { s with nextModel := s.nextModel + 1 }))
      fun _ _ => True :=
  fun typed => ⟨⟨typed.heap, typed.nodes⟩, .refl _, trivial⟩

theorem safe_attach {parent : Nat} {child : Value} (isNode : s.heap.kind? parent = some .node)
    (typed : child.HasType s.heap (.object .node)) :
    Safe limits s (attach parent child) fun _ _ => True := by
  refine .bind safe_ensureOpen fun _ s₁ _ grown₁ _ => ?_
  refine .bind (safe_asObject typed rfl) fun ref s₂ typed₂ grown₂ found => ?_
  have found₂ := grown₂ _ _ (grown₁ _ _ found)
  have parent₂ := grown₂ _ _ (grown₁ _ _ isNode)
  rw [safe_heap_bind]
  refine .bind (safe_total ?_) fun n s₃ typed₃ grown₃ _ => ?_
  · obtain ⟨n, read, -⟩ := Heap.node_ok found₂ typed₂.heap
    exact ⟨n, read⟩
  · refine .guard rfl ?_
    rw [safe_heap_bind]
    refine .bind (safe_mild (mild_levelsAbove typed₃.heap _ _ _ (grown₃ _ _ parent₂)))
      fun above s₄ typed₄ grown₄ _ => ?_
    rw [safe_heap_bind]
    have found₄ := grown₄ _ _ (grown₃ _ _ found₂)
    refine .bind (safe_mild (mild_levelsBelow typed₄.heap _ _ found₄))
      fun below s₅ _ grown₅ _ => .guard rfl ?_
    have parent₅ := grown₅ _ _ (grown₄ _ _ (grown₃ _ _ parent₂))
    refine .bind (safe_modifyNode ref fun n node => ?_) fun _ s₆ _ grown₆ _ => ?_
    · refine { node with parent := fun p is => ?_ }
      cases is
      exact parent₅
    · refine safe_modifyNode parent fun n node => { node with children := fun c mem => ?_ }
      rcases Array.mem_push.1 mem with old | rfl
      · exact node.children c old
      · exact grown₆ _ _ (grown₅ _ _ found₄)

theorem safe_finish : Safe limits s finish fun v s' => v.HasType s'.heap (.object .model) := by
  refine .bind safe_ensureOpen fun _ s₁ _ _ _ => ?_
  refine .bind (safe_modifyBuilding rfl) fun _ s₂ typed₂ _ _ => ?_
  rw [safe_building_bind, safe_heap_bind]
  have kinds : ∀ ref ∈ s₂.building.nodes.toList, s₂.heap.kind? ref = some .node :=
    fun ref mem => typed₂.nodes ref (Array.mem_toList_iff.1 mem)
  refine .bind (safe_mild (mild_finishRoots typed₂.heap _ _ kinds)) fun roots s₃ _ _ _ => ?_
  refine .bind safe_nextModel fun id s₄ _ _ _ => ?_
  refine .bind (safe_addObject trivial) fun ref s₅ _ _ found => ?_
  exact .pure (.object rfl found)

end Building

end SceneScript
