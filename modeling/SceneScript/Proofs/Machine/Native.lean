import SceneScript.Machine.Native.Dispatch
import SceneScript.Proofs.Machine.Building
import SceneScript.Proofs.Machine.Safe
import Mathlib.Tactic.FinCases

/-!
# Members are implemented as described

Every member that the catalog describes has an implementation that takes arguments of the types of
its parameters and gives a result of its own type. One lemma per class and way of access; the
members of a class are its cases.
-/

namespace SceneScript.Native

open Run HostClass

variable {limits : Limits} {s : RunState} {h : Heap} {m : Member} {r : Value} {args : List Value}

abbrev ArgsTyped (h : Heap) (args : List Value) (params : List Ty) : Prop :=
  List.Forall₂ (Value.HasType h) args params

/-! ## Vector3 -/

theorem safe_vec3 {x y z : Value} (hx : x.HasType h .float) (hy : y.HasType h .float)
    (hz : z.HasType h .float) : Safe limits s (vec3 x y z) fun _ _ => True := by
  refine .bind (safe_asFloat32 hx) fun _ _ _ _ _ => ?_
  refine .bind (safe_asFloat32 hy) fun _ _ _ _ _ => ?_
  exact .bind (safe_asFloat32 hz) fun _ _ _ _ _ => .pure trivial

theorem safe_vectorArg (typed : r.HasType s.heap (.object .vector3)) :
    Safe limits s (vectorArg r) fun _ _ => True := by
  unfold vectorArg
  rw [safe_heap_bind]
  exact .bind (safe_asObject typed rfl) fun _ _ _ _ found => safe_total (Heap.vector_ok found)

theorem safe_vectorStatic (mem : m ∈ members .vector3) (kind : m.kind = .staticMethod)
    (typed : ArgsTyped h args m.params) :
    Safe limits s (vectorStatic m.name args) fun v s' => v.HasType s'.heap m.result := by
  fin_cases mem <;> cases kind
  · rcases typed with _ | ⟨hx, _ | ⟨hy, _ | ⟨hz, _ | _⟩⟩⟩
    exact .bind (safe_vec3 hx hy hz) fun _ _ _ _ _ => safe_alloc trivial rfl
  · cases typed
    exact safe_alloc trivial rfl

theorem safe_vectorCall (mem : m ∈ members .vector3) (kind : m.kind = .method)
    (receiver : r.HasType s.heap (.object .vector3)) (typed : ArgsTyped s.heap args m.params) :
    Safe limits s (vectorCall m.name r args) fun v s' => v.HasType s'.heap m.result := by
  refine .bind (safe_asObject receiver rfl) fun ref s₁ _ grown₁ found => ?_
  rw [safe_heap_bind]
  have found₁ := grown₁ _ _ found
  refine .bind (safe_total (Heap.vector_ok found₁)) fun v s₂ _ grown₂ _ => ?_
  have later := grown₁.trans grown₂
  have update (s₃ : RunState) (grown₃ : s₂.heap.Extends s₃.heap) (w : Vec3) :
      Safe limits s₃ (modifyHeap (·.setVector ref w) >>= fun _ => pure r) fun v s' =>
        v.HasType s'.heap (.object .vector3) :=
    .bind (safe_setVector ref w) fun _ _ _ grown _ =>
      .pure (receiver.mono (later.trans (grown₃.trans grown)))
  fin_cases mem <;> cases kind
  -- set, add, sub, scl, len, nor, cpy, dot, crs
  · rcases typed with _ | ⟨hx, _ | ⟨hy, _ | ⟨hz, _ | _⟩⟩⟩
    exact .bind (safe_vec3 hx hy hz) fun w s₃ _ grown₃ _ => update s₃ grown₃ w
  · rcases typed with _ | ⟨hw, _ | _⟩
    exact .bind (safe_vectorArg (hw.mono later)) fun w s₃ _ grown₃ _ => update s₃ grown₃ _
  · rcases typed with _ | ⟨hw, _ | _⟩
    exact .bind (safe_vectorArg (hw.mono later)) fun w s₃ _ grown₃ _ => update s₃ grown₃ _
  · rcases typed with _ | ⟨hx, _ | _⟩
    exact .bind (safe_asFloat32 hx) fun x s₃ _ grown₃ _ => update s₃ grown₃ _
  · cases typed
    exact .pure (.float _)
  · cases typed
    exact update s₂ (.refl _) _
  · cases typed
    exact safe_alloc trivial rfl
  · rcases typed with _ | ⟨hw, _ | _⟩
    exact .bind (safe_vectorArg (hw.mono later)) fun w s₃ _ grown₃ _ => .pure (.float _)
  · rcases typed with _ | ⟨hw, _ | _⟩
    exact .bind (safe_vectorArg (hw.mono later)) fun w s₃ _ grown₃ _ => update s₃ grown₃ _

theorem safe_vectorGet (mem : m ∈ members .vector3) (kind : m.kind.isField = true)
    (receiver : r.HasType s.heap (.object .vector3)) :
    Safe limits s (vectorGet m.name r) fun v s' => v.HasType s'.heap m.result := by
  unfold vectorGet
  rw [safe_heap_bind]
  refine .bind (safe_asObject receiver rfl) fun ref s₁ _ _ found => ?_
  refine .bind (safe_total (Heap.vector_ok found)) fun v s₂ _ _ _ => ?_
  fin_cases mem <;> cases kind <;> exact .pure (.float _)

theorem safe_vectorSet (mem : m ∈ members .vector3) (kind : m.kind = .field)
    (receiver : r.HasType s.heap (.object .vector3)) {x : Value} (typed : x.HasType h m.result) :
    Safe limits s (vectorSet m.name r x) fun _ _ => True := by
  refine .bind (safe_asObject receiver rfl) fun ref s₁ _ grown₁ found => ?_
  rw [safe_heap_bind]
  refine .bind (safe_total (Heap.vector_ok (grown₁ _ _ found))) fun v s₂ _ _ _ => ?_
  fin_cases mem <;> cases kind <;>
    exact .bind (safe_asFloat32 typed) fun _ _ _ _ _ => safe_setVector ref _

/-! ## Color -/

theorem safe_channel {x : Value} (typed : x.HasType h .float) :
    Safe limits s (channel x) fun _ _ => True :=
  .bind (safe_asFloat32 typed) fun _ _ _ _ _ => .guard rfl (.pure trivial)

theorem safe_colorStatic (mem : m ∈ members .color) (kind : m.kind = .staticMethod)
    (typed : ArgsTyped h args m.params) :
    Safe limits s (colorStatic m.name args) fun v s' => v.HasType s'.heap m.result := by
  fin_cases mem <;> cases kind
  -- new, rgb
  · rcases typed with _ | ⟨hr, _ | ⟨hg, _ | ⟨hb, _ | ⟨ha, _ | _⟩⟩⟩⟩
    refine .bind (safe_channel hr) fun _ _ _ _ _ => ?_
    refine .bind (safe_channel hg) fun _ _ _ _ _ => ?_
    refine .bind (safe_channel hb) fun _ _ _ _ _ => ?_
    exact .bind (safe_channel ha) fun _ _ _ _ _ => safe_alloc trivial rfl
  · rcases typed with _ | ⟨hr, _ | ⟨hg, _ | ⟨hb, _ | _⟩⟩⟩
    refine .bind (safe_channel hr) fun _ _ _ _ _ => ?_
    refine .bind (safe_channel hg) fun _ _ _ _ _ => ?_
    exact .bind (safe_channel hb) fun _ _ _ _ _ => safe_alloc trivial rfl

theorem safe_colorConstant (mem : m ∈ members .color) (kind : m.kind = .constant) :
    Safe limits s (colorConstant m.name) fun v s' => v.HasType s'.heap m.result := by
  fin_cases mem <;> cases kind <;> exact safe_alloc trivial rfl

theorem safe_colorGet (mem : m ∈ members .color) (kind : m.kind.isField = true)
    (receiver : r.HasType s.heap (.object .color)) :
    Safe limits s (colorGet m.name r) fun v s' => v.HasType s'.heap m.result := by
  have read (select : Rgba → Float32) : Safe limits s (do
      return Value.float (Number.widen (select (← (← heap).color (← r.asObject)))) : Run Value)
      fun v s' => v.HasType s'.heap .float := by
    rw [safe_heap_bind]
    refine .bind (safe_asObject receiver rfl) fun ref s₁ _ _ found => ?_
    exact .bind (safe_total (Heap.color_ok found)) fun _ _ _ _ _ => .pure (.float _)
  fin_cases mem <;> cases kind <;> exact read _

theorem safe_colorSet (mem : m ∈ members .color) (kind : m.kind = .field)
    (receiver : r.HasType s.heap (.object .color)) {x : Value} (typed : x.HasType h m.result) :
    Safe limits s (colorSet m.name r x) fun _ _ => True := by
  have write (update : Rgba → Float32 → Rgba) (typed : x.HasType h .float) :
      Safe limits s (do
        let x ← channel x
        let ref ← r.asObject
        let c ← (← heap).color ref
        modifyHeap (·.setColor ref (update c x))) fun _ _ => True := by
    refine .bind (safe_channel typed) fun _ s₁ _ grown₁ _ => ?_
    refine .bind (safe_asObject receiver rfl) fun ref s₂ _ grown₂ found => ?_
    rw [safe_heap_bind]
    refine .bind (safe_total (Heap.color_ok (grown₂ _ _ (grown₁ _ _ found)))) fun _ _ _ _ _ => ?_
    exact safe_setColor ref _
  fin_cases mem <;> cases kind <;> exact write _ typed

theorem safe_colorCall (mem : m ∈ members .color) (kind : m.kind = .method)
    (receiver : r.HasType s.heap (.object .color)) (typed : ArgsTyped s.heap args m.params) :
    Safe limits s (colorCall m.name r args) fun v s' => v.HasType s'.heap m.result := by
  refine .bind (safe_asObject receiver rfl) fun ref s₁ _ grown₁ found => ?_
  have found₁ := grown₁ _ _ found
  fin_cases mem <;> cases kind
  -- lerp, cpy
  · rcases typed with _ | ⟨target, _ | ⟨factor, _ | _⟩⟩
    refine safe_heap_bind.2 ?_
    refine .bind (safe_asObject (target.mono grown₁) rfl) fun other s₂ _ grown₂ found₂ => ?_
    refine .bind (safe_total (Heap.color_ok found₂)) fun _ s₃ _ grown₃ _ => ?_
    refine .bind (safe_channel factor) fun _ s₄ _ grown₄ _ => ?_
    rw [safe_heap_bind]
    have later := grown₂.trans (grown₃.trans grown₄)
    refine .bind (safe_total (Heap.color_ok (later _ _ found₁))) fun _ s₅ _ grown₅ _ => ?_
    refine .bind (safe_setColor ref _) fun _ s₆ _ grown₆ _ => ?_
    exact .pure (receiver.mono (grown₁.trans (later.trans (grown₅.trans grown₆))))
  · cases typed
    refine safe_heap_bind.2 ?_
    exact .bind (safe_total (Heap.color_ok found₁)) fun _ _ _ _ _ => safe_alloc trivial rfl

/-! ## Array -/

theorem safe_arrayStatic (mem : m ∈ members .array) (kind : m.kind = .staticMethod)
    (typed : ArgsTyped h args m.params) :
    Safe limits s (arrayStatic m.name args) fun v s' => v.HasType s'.heap m.result := by
  fin_cases mem <;> cases kind
  cases typed
  exact safe_alloc (fun v mem => by simp at mem) rfl

theorem safe_arrayCall (mem : m ∈ members .array) (kind : m.kind = .method)
    (receiver : r.HasType s.heap (.object .array)) (typed : ArgsTyped s.heap args m.params) :
    Safe limits s (arrayCall m.name r args) fun v s' => v.HasType s'.heap m.result := by
  refine .bind (safe_asObject receiver rfl) fun ref s₁ typed₁ grown₁ found => ?_
  refine safe_heap_bind.2 ?_
  have found₁ := grown₁ _ _ found
  refine .bind (safe_read (Heap.array_ok found₁ typed₁.heap)) fun items s₂ typed₂ grown₂ _ => ?_
  have later := grown₁.trans grown₂
  fin_cases mem <;> cases kind
  -- add, size, get
  · rcases typed with _ | ⟨hv, _ | _⟩
    refine safe_limits_bind.2 (.guard rfl (.bind (safe_charge _) fun _ s₃ _ grown₃ _ => ?_))
    refine .bind (safe_push ref (hv.mono (later.trans grown₃))) fun _ _ _ _ _ => ?_
    exact .pure .void
  · cases typed
    exact .pure (.int _)
  · rcases typed with _ | ⟨hi, _ | _⟩
    refine .bind (safe_asInt hi) fun i s₃ typed₃ grown₃ _ => ?_
    refine safe_heap_bind.2 ?_
    have found₃ := grown₃ _ _ (grown₂ _ _ found₁)
    refine .bind (safe_read (Heap.array_ok found₃ typed₃.heap)) fun items s₄ _ grown₄ typed => ?_
    split
    · next v found =>
      split at found
      · exact .pure ((typed v (Array.mem_of_getElem? found)).mono grown₄)
      · cases found
    · exact .fault rfl

/-! ## Values of the language -/

theorem safe_textOf (v : Value) :
    Safe limits s (textOf v) fun v s' => v.HasType s'.heap .string :=
  .bind (safe_display v) fun _ _ _ _ _ => safe_string _

theorem safe_stringCall (mem : m ∈ members .string) (kind : m.kind = .method)
    (receiver : r.HasType s.heap .string) (typed : ArgsTyped h args m.params) :
    Safe limits s (stringCall m.name r args) fun v s' => v.HasType s'.heap m.result := by
  refine .bind (safe_asString receiver) fun t s₁ _ grown₁ _ => ?_
  fin_cases mem <;> cases kind
  -- length, concat, isEmpty, toString
  · cases typed
    exact .pure (.int _)
  · rcases typed with _ | ⟨other, _ | _⟩
    exact .bind (safe_asString other) fun _ _ _ _ _ => safe_string _
  · cases typed
    exact .pure (.bool _)
  · cases typed
    exact .pure (receiver.mono grown₁)

theorem safe_stringStatic (mem : m ∈ members .string) (kind : m.kind = .staticMethod)
    (typed : ArgsTyped h args m.params) :
    Safe limits s (stringStatic m.name args) fun v s' => v.HasType s'.heap m.result := by
  fin_cases mem <;> cases kind
  rcases typed with _ | ⟨_, _ | _⟩
  exact safe_textOf _

theorem safe_integerStatic (mem : m ∈ members .integer) (kind : m.kind = .staticMethod)
    (typed : ArgsTyped h args m.params) :
    Safe limits s (integerStatic m.name args) fun v s' => v.HasType s'.heap m.result := by
  fin_cases mem <;> cases kind
  -- parseInt, max, min
  · rcases typed with _ | ⟨ht, _ | _⟩
    refine .bind (safe_asString ht) fun t _ _ _ _ => ?_
    split
    · exact .pure (.int _)
    · exact .fault rfl
  · rcases typed with _ | ⟨ha, _ | ⟨hb, _ | _⟩⟩
    refine .bind (safe_asInt ha) fun _ _ _ _ _ => ?_
    exact .bind (safe_asInt hb) fun _ _ _ _ _ => .pure (.int _)
  · rcases typed with _ | ⟨ha, _ | ⟨hb, _ | _⟩⟩
    refine .bind (safe_asInt ha) fun _ _ _ _ _ => ?_
    exact .bind (safe_asInt hb) fun _ _ _ _ _ => .pure (.int _)

theorem safe_integerConstant (mem : m ∈ members .integer) (kind : m.kind = .constant) :
    Safe limits s (integerConstant m.name) fun v s' => v.HasType s'.heap m.result := by
  fin_cases mem <;> cases kind <;> exact .pure (.int _)

theorem safe_readNumber (t : String) (as : ReadAs) :
    Safe limits s (readNumber t as) fun _ _ => True := by
  unfold readNumber
  split
  · exact .pure trivial
  · exact .fault rfl

theorem safe_isNaN {x : Value} (typed : x.HasType h .float) :
    Safe limits s (isNaN x) fun v s' => v.HasType s'.heap .bool :=
  .bind (safe_asFloat typed) fun _ _ _ _ _ => .pure (.bool _)

theorem safe_floatStatic (mem : m ∈ members .float) (kind : m.kind = .staticMethod)
    (typed : ArgsTyped h args m.params) :
    Safe limits s (floatStatic m.name args) fun v s' => v.HasType s'.heap m.result := by
  fin_cases mem <;> cases kind
  -- parseFloat, isNaN, max, min
  · rcases typed with _ | ⟨ht, _ | _⟩
    refine .bind (safe_asString ht) fun t _ _ _ _ => ?_
    exact .bind (safe_readNumber t .float) fun _ _ _ _ _ => .pure (.float _)
  · rcases typed with _ | ⟨hx, _ | _⟩
    exact safe_isNaN hx
  · rcases typed with _ | ⟨hx, _ | ⟨hy, _ | _⟩⟩
    refine .bind (safe_asFloat hx) fun _ _ _ _ _ => ?_
    exact .bind (safe_asFloat hy) fun _ _ _ _ _ => .pure (.float _)
  · rcases typed with _ | ⟨hx, _ | ⟨hy, _ | _⟩⟩
    refine .bind (safe_asFloat hx) fun _ _ _ _ _ => ?_
    exact .bind (safe_asFloat hy) fun _ _ _ _ _ => .pure (.float _)

theorem safe_floatConstant (mem : m ∈ members .float) (kind : m.kind = .constant) :
    Safe limits s (floatConstant m.name) fun v s' => v.HasType s'.heap m.result := by
  fin_cases mem <;> cases kind
  exact .pure (.float _)

theorem safe_doubleStatic (mem : m ∈ members .double) (kind : m.kind = .staticMethod)
    (typed : ArgsTyped h args m.params) :
    Safe limits s (doubleStatic m.name args) fun v s' => v.HasType s'.heap m.result := by
  fin_cases mem <;> cases kind
  -- parseDouble, isNaN
  · rcases typed with _ | ⟨ht, _ | _⟩
    refine .bind (safe_asString ht) fun t _ _ _ _ => ?_
    exact .bind (safe_readNumber t .double) fun _ _ _ _ _ => .pure (.float _)
  · rcases typed with _ | ⟨hx, _ | _⟩
    exact safe_isNaN hx

theorem safe_doubleConstant (mem : m ∈ members .double) (kind : m.kind = .constant) :
    Safe limits s (doubleConstant m.name) fun v s' => v.HasType s'.heap m.result := by
  fin_cases mem <;> cases kind
  exact .pure (.float _)

theorem safe_booleanStatic (mem : m ∈ members .boolean) (kind : m.kind = .staticMethod)
    (typed : ArgsTyped h args m.params) :
    Safe limits s (booleanStatic m.name args) fun v s' => v.HasType s'.heap m.result := by
  fin_cases mem <;> cases kind
  rcases typed with _ | ⟨ht, _ | _⟩
  rcases ht.string_inv with rfl | ⟨t, rfl⟩
  · exact .pure (.bool _)
  · exact .bind (safe_asString ht) fun _ _ _ _ _ => .pure (.bool _)

/-! ## ModelBuilder and Model -/

theorem safe_builderCall (mem : m ∈ members .modelBuilder) (kind : m.kind = .method)
    (typed : ArgsTyped s.heap args m.params) :
    Safe limits s (builderCall m.name args) fun v s' => v.HasType s'.heap m.result := by
  fin_cases mem <;> cases kind
  -- box, sphere, cylinder, cone, plane, node, part, partCount, end
  · rcases typed with _ | ⟨hw, _ | ⟨hh, _ | ⟨hd, _ | _⟩⟩⟩
    exact Building.safe_primitive fun _ => Building.safe_box hw hh hd
  · rcases typed with _ | ⟨hr, _ | ⟨hn, _ | _⟩⟩
    exact Building.safe_primitive fun _ => Building.safe_sphere hr hn
  · rcases typed with _ | ⟨hr, _ | ⟨hh, _ | ⟨hn, _ | _⟩⟩⟩
    exact Building.safe_primitive fun _ => Building.safe_cylinder hr hh hn
  · rcases typed with _ | ⟨hr, _ | ⟨hh, _ | ⟨hn, _ | _⟩⟩⟩
    exact Building.safe_primitive fun _ => Building.safe_cone hr hh hn
  · rcases typed with _ | ⟨hw, _ | ⟨hd, _ | _⟩⟩
    exact Building.safe_primitive fun _ => Building.safe_plane hw hd
  · cases typed
    exact Building.safe_newNode
  · rcases typed with _ | ⟨hn, _ | ⟨hp, _ | ⟨hm, _ | _⟩⟩⟩
    refine .bind (safe_asObject hn rfl) fun ref s₁ _ grown₁ found => ?_
    refine .bind (Building.safe_placePart (grown₁ _ _ found) hp (hm.mono grown₁))
      fun _ _ _ _ _ => ?_
    exact .pure .void
  · cases typed
    exact safe_building_bind.2 (.pure (.int _))
  · cases typed
    exact Building.safe_finish

theorem safe_modelCall (mem : m ∈ members .model) (kind : m.kind = .method)
    (receiver : r.HasType s.heap (.object .model)) (typed : ArgsTyped h args m.params) :
    Safe limits s (modelCall m.name r args) fun v s' => v.HasType s'.heap m.result := by
  refine safe_heap_bind.2 (.bind (safe_asObject receiver rfl) fun ref s₁ _ _ found => ?_)
  refine .bind (safe_total (Heap.model_ok found)) fun _ s₂ _ _ _ => ?_
  fin_cases mem <;> cases kind <;> cases typed <;> exact .pure (.int _)

/-! ## Node -/

theorem safe_nodeCall (mem : m ∈ members .node) (kind : m.kind = .method)
    (receiver : r.HasType s.heap (.object .node)) (typed : ArgsTyped s.heap args m.params) :
    Safe limits s (nodeCall m.name r args) fun v s' => v.HasType s'.heap m.result := by
  refine .bind (safe_asObject receiver rfl) fun ref s₁ typed₁ grown₁ found => ?_
  have found₁ := grown₁ _ _ found
  have isNode := Heap.node_ok found₁ typed₁.heap
  fin_cases mem <;> cases kind
  -- addPart, addChild, setTranslation, childCount
  · rcases typed with _ | ⟨hp, _ | ⟨hm, _ | _⟩⟩
    refine .bind (Building.safe_placePart found₁ hp (hm.mono grown₁)) fun _ _ _ _ _ => ?_
    exact .pure .void
  · rcases typed with _ | ⟨hc, _ | _⟩
    refine .bind (Building.safe_attach found₁ (hc.mono grown₁)) fun _ _ _ _ _ => ?_
    exact .pure .void
  · rcases typed with _ | ⟨hx, _ | ⟨hy, _ | ⟨hz, _ | _⟩⟩⟩
    refine safe_heap_bind.2 (.bind (safe_read isNode) fun n s₂ _ grown₂ node => ?_)
    refine .bind (safe_vec3 hx hy hz) fun v s₃ _ grown₃ _ => safe_heap_bind.2 ?_
    have isVector := Heap.vector_ok (grown₃ _ _ (grown₂ _ _ node.translation))
    refine .bind (safe_total isVector) fun _ s₄ _ grown₄ _ => ?_
    refine .bind (safe_setVector n.translation v) fun _ s₅ _ grown₅ _ => ?_
    exact .pure (receiver.mono (grown₁.trans (grown₂.trans (grown₃.trans (grown₄.trans grown₅)))))
  · cases typed
    exact safe_heap_bind.2 (.bind (safe_read isNode) fun _ _ _ _ _ => .pure (.int _))

theorem safe_nodeGet (mem : m ∈ members .node) (kind : m.kind.isField = true)
    (receiver : r.HasType s.heap (.object .node)) :
    Safe limits s (nodeGet m.name r) fun v s' => v.HasType s'.heap m.result := by
  refine .intro fun typed => ?_
  refine safe_heap_bind.2 (.bind (safe_asObject receiver rfl) fun ref s₁ _ grown₁ found => ?_)
  refine .bind (safe_read (Heap.node_ok found typed.heap)) fun n s₂ _ grown₂ node => ?_
  have later := grown₁.trans grown₂
  fin_cases mem <;> cases kind
  -- id, translation, rotation, scale
  · exact .pure (.string _)
  · exact .pure (.object rfl (later _ _ node.translation))
  · exact .pure (.object rfl (later _ _ node.rotation))
  · exact .pure (.object rfl (later _ _ node.scale))

theorem safe_newId {x : Value} (typed : x.HasType h .string) :
    Safe limits s (newId x) fun _ _ => True :=
  .bind (safe_asString typed) fun _ _ _ _ _ =>
    .bind (safe_charge _) fun _ _ _ _ _ => .pure trivial

theorem safe_nodeSet (mem : m ∈ members .node) (kind : m.kind = .field)
    (receiver : r.HasType s.heap (.object .node)) {x : Value} (typed : x.HasType h m.result) :
    Safe limits s (nodeSet m.name r x) fun _ _ => True := by
  fin_cases mem <;> cases kind
  refine .bind (safe_newId typed) fun id s₁ _ grown₁ _ => ?_
  refine .bind (safe_asObject receiver rfl) fun ref s₂ typed₂ grown₂ found => safe_heap_bind.2 ?_
  have isNode := Heap.node_ok (grown₂ _ _ (grown₁ _ _ found)) typed₂.heap
  refine .bind (safe_read isNode) fun _ s₃ _ _ _ => ?_
  exact safe_modifyNode ref fun n node => { node with }

/-! ## Material and ColorAttribute -/

theorem safe_materialStatic (mem : m ∈ members .material) (kind : m.kind = .staticMethod)
    (typed : ArgsTyped s.heap args m.params) :
    Safe limits s (materialStatic m.name args) fun v s' => v.HasType s'.heap m.result := by
  fin_cases mem <;> cases kind
  -- new, of
  · cases typed
    exact safe_alloc trivial rfl
  · rcases typed with _ | ⟨ha, _ | _⟩
    refine safe_heap_bind.2 (.bind (safe_asObject ha rfl) fun ref _ _ _ found => ?_)
    exact .bind (safe_total (Heap.colorAttribute_ok found)) fun _ _ _ _ _ =>
      safe_alloc trivial rfl

theorem safe_materialCall (mem : m ∈ members .material) (kind : m.kind = .method)
    (receiver : r.HasType s.heap (.object .material)) (typed : ArgsTyped s.heap args m.params) :
    Safe limits s (materialCall m.name r args) fun v s' => v.HasType s'.heap m.result := by
  fin_cases mem <;> cases kind
  rcases typed with _ | ⟨ha, _ | _⟩
  refine safe_heap_bind.2 (.bind (safe_asObject ha rfl) fun _ s₁ _ grown₁ found₁ => ?_)
  refine .bind (safe_total (Heap.colorAttribute_ok found₁)) fun _ s₂ _ grown₂ _ => ?_
  refine .bind (safe_asObject receiver rfl) fun ref s₃ _ grown₃ found => safe_heap_bind.2 ?_
  have later := grown₁.trans (grown₂.trans grown₃)
  refine .bind (safe_total (Heap.material_ok (later _ _ found))) fun _ s₄ _ grown₄ _ => ?_
  refine .bind (safe_modifyMaterial ref _) fun _ s₅ _ grown₅ _ => ?_
  exact .pure (receiver.mono (later.trans (grown₄.trans grown₅)))

theorem safe_materialGet (mem : m ∈ members .material) (kind : m.kind.isField = true)
    (receiver : r.HasType s.heap (.object .material)) :
    Safe limits s (materialGet m.name r) fun v s' => v.HasType s'.heap m.result := by
  fin_cases mem <;> cases kind
  refine safe_heap_bind.2 (.bind (safe_asObject receiver rfl) fun ref _ _ _ found => ?_)
  exact .bind (safe_total (Heap.material_ok found)) fun _ _ _ _ _ => .pure (.string _)

theorem safe_materialSet (mem : m ∈ members .material) (kind : m.kind = .field)
    (receiver : r.HasType s.heap (.object .material)) {x : Value} (typed : x.HasType h m.result) :
    Safe limits s (materialSet m.name r x) fun _ _ => True := by
  fin_cases mem <;> cases kind
  refine .bind (safe_newId typed) fun id s₁ _ grown₁ _ => ?_
  refine .bind (safe_asObject receiver rfl) fun ref s₂ _ grown₂ found => safe_heap_bind.2 ?_
  refine .bind (safe_total (Heap.material_ok (grown₂ _ _ (grown₁ _ _ found)))) fun _ s₃ _ _ _ => ?_
  exact safe_modifyMaterial ref _

theorem safe_attributeStatic (mem : m ∈ members .colorAttribute) (kind : m.kind = .staticMethod)
    (typed : ArgsTyped s.heap args m.params) :
    Safe limits s (attributeStatic m.name args) fun v s' => v.HasType s'.heap m.result := by
  have make (channel : Channel) {x : Value} (hx : x.HasType s.heap (.object .color)) :
      Safe limits s (do
        alloc (.colorAttribute ⟨channel, ← (← heap).color (← x.asObject)⟩) : Run Value)
        fun v s' => v.HasType s'.heap (.object .colorAttribute) := by
    refine safe_heap_bind.2 (.bind (safe_asObject hx rfl) fun ref _ _ _ found => ?_)
    exact .bind (safe_total (Heap.color_ok found)) fun _ _ _ _ _ => safe_alloc trivial rfl
  fin_cases mem <;> cases kind
  -- createDiffuse, createSpecular, createEmissive
  · rcases typed with _ | ⟨hc, _ | _⟩
    exact make .diffuse hc
  · rcases typed with _ | ⟨hc, _ | _⟩
    exact make .specular hc
  · rcases typed with _ | ⟨hc, _ | _⟩
    exact make .emissive hc

end SceneScript.Native

/-! ## Members by class -/

namespace SceneScript.HostClass

open Run Native

variable {limits : Limits} {s : RunState} {c : HostClass} {m : Member} {r : Value}
  {args : List Value}

theorem safe_call (implemented : c.isImplemented = true) (mem : m ∈ c.members)
    (kind : m.kind = .method) (receiver : r.HasType s.heap c.instanceType)
    (typed : ArgsTyped s.heap args m.params) :
    Safe limits s (c.call m.name r args) fun v s' => v.HasType s'.heap m.result := by
  cases c with
  | modelBuilder => exact safe_builderCall mem kind typed
  | model => exact safe_modelCall mem kind receiver typed
  | node => exact safe_nodeCall mem kind receiver typed
  | material => exact safe_materialCall mem kind receiver typed
  | color => exact safe_colorCall mem kind receiver typed
  | vector3 => exact safe_vectorCall mem kind receiver typed
  | array => exact safe_arrayCall mem kind receiver typed
  | string => exact safe_stringCall mem kind receiver typed
  | integer | float | double | boolean | object =>
    fin_cases mem <;> cases kind
    cases typed
    exact safe_textOf r
  | colorAttribute => fin_cases mem <;> cases kind
  | math | system | files | environment | directionalLight => cases implemented

theorem safe_callStatic (implemented : c.isImplemented = true) (mem : m ∈ c.members)
    (kind : m.kind = .staticMethod) (typed : ArgsTyped s.heap args m.params) :
    Safe limits s (c.callStatic m.name args) fun v s' => v.HasType s'.heap m.result := by
  cases c with
  | material => exact safe_materialStatic mem kind typed
  | color => exact safe_colorStatic mem kind typed
  | colorAttribute => exact safe_attributeStatic mem kind typed
  | vector3 => exact safe_vectorStatic mem kind typed
  | array => exact safe_arrayStatic mem kind typed
  | string => exact safe_stringStatic mem kind typed
  | integer => exact safe_integerStatic mem kind typed
  | float => exact safe_floatStatic mem kind typed
  | double => exact safe_doubleStatic mem kind typed
  | boolean => exact safe_booleanStatic mem kind typed
  | modelBuilder | model | node | object => fin_cases mem <;> cases kind
  | math | system | files | environment | directionalLight => cases implemented

theorem safe_getField (implemented : c.isImplemented = true) (mem : m ∈ c.members)
    (kind : m.kind.isField = true) (receiver : r.HasType s.heap c.instanceType) :
    Safe limits s (c.getField m.name r) fun v s' => v.HasType s'.heap m.result := by
  cases c with
  | node => exact safe_nodeGet mem kind receiver
  | material => exact safe_materialGet mem kind receiver
  | color => exact safe_colorGet mem kind receiver
  | vector3 => exact safe_vectorGet mem kind receiver
  | modelBuilder | model | colorAttribute | array | string | integer | float | double | boolean
  | object => fin_cases mem <;> cases kind
  | math | system | files | environment | directionalLight => cases implemented

theorem safe_setField {h : Heap} {x : Value} (implemented : c.isImplemented = true)
    (mem : m ∈ c.members) (kind : m.kind = .field) (receiver : r.HasType s.heap c.instanceType)
    (typed : x.HasType h m.result) :
    Safe limits s (c.setField m.name r x) fun _ _ => True := by
  cases c with
  | node => exact safe_nodeSet mem kind receiver typed
  | material => exact safe_materialSet mem kind receiver typed
  | color => exact safe_colorSet mem kind receiver typed
  | vector3 => exact safe_vectorSet mem kind receiver typed
  | modelBuilder | model | colorAttribute | array | string | integer | float | double | boolean
  | object => fin_cases mem <;> cases kind
  | math | system | files | environment | directionalLight => cases implemented

theorem safe_getConstant (implemented : c.isImplemented = true) (mem : m ∈ c.members)
    (kind : m.kind = .constant) :
    Safe limits s (c.getConstant m.name) fun v s' => v.HasType s'.heap m.result := by
  cases c with
  | color => exact safe_colorConstant mem kind
  | integer => exact safe_integerConstant mem kind
  | float => exact safe_floatConstant mem kind
  | double => exact safe_doubleConstant mem kind
  | modelBuilder | model | node | material | vector3 | colorAttribute | array | string | boolean
  | object => fin_cases mem <;> cases kind
  | math | system | files | environment | directionalLight => cases implemented

end SceneScript.HostClass
