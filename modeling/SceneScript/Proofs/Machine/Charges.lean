import Mathlib.Data.List.Perm.Subperm
import SceneScript.Proofs.Machine.Edits
import SceneScript.Proofs.Machine.Changes

/-!
# What the heap costs

The bytes charged cover what is on the heap: a fixed amount for every object that a script has
allocated, and the content of arrays and materials. Every operation pays before it adds anything, so
the bytes charged never fall behind (`RunState.Pays`); the nodes of a model and their own vectors
are not charged for.
-/

namespace SceneScript

open Run

/-! ## Costs -/

def Object.isAllocated (o : Object) : Bool :=
  o.kind ∈ [.vector, .color, .colorAttribute, .material, .array]

theorem Object.node?_eq_none {o : Object} (other : o.kind ≠ .node) : o.node? = none := by
  cases o with
  | node => exact absurd rfl other
  | _ => rfl

def NodeObject.vectors (n : NodeObject) : List Nat :=
  [n.translation, n.rotation, n.scale]

namespace Heap

def nodeVectors (h : Heap) : List Nat :=
  h.objects.toList.flatMap fun
    | .node n => n.vectors
    | _ => []

/-- The objects that scripts have allocated: those of a kind that scripts allocate, the vectors of
nodes apart. -/
def allocated (h : Heap) : List Nat :=
  (List.range h.objects.size).filter fun ref =>
    h.objects[ref]?.any Object.isAllocated && decide (ref ∉ h.nodeVectors)

def contentBytes (h : Heap) : Nat :=
  (h.objects.toList.map Object.contentBytes).sum

def cost (h : Heap) : Nat :=
  objectBytes * h.allocated.length + h.contentBytes

def idBytes (h : Heap) (ref : Nat) : Nat :=
  (h.find Object.node? ref).elim 0 fun n => n.id.utf8ByteSize

variable {h h' : Heap} {ref place : Nat} {o : Object} {f : Object → Object}

theorem mem_nodeVectors :
    ref ∈ h.nodeVectors ↔ ∃ (place : Nat) (n : NodeObject),
      h.objects[place]? = some (.node n) ∧ ref ∈ n.vectors := by
  unfold nodeVectors
  rw [List.mem_flatMap]
  constructor
  · rintro ⟨o, mem, isVector⟩
    cases o with
    | node n =>
      obtain ⟨place, found⟩ := List.getElem?_of_mem mem
      exact ⟨place, n, by rwa [Array.getElem?_toList] at found, isVector⟩
    | _ => cases isVector
  · rintro ⟨place, n, found, isVector⟩
    refine ⟨.node n, List.mem_of_getElem? (i := place) ?_, isVector⟩
    rwa [Array.getElem?_toList]

theorem mem_allocated : ref ∈ h.allocated ↔
    (∃ o, h.objects[ref]? = some o ∧ o.isAllocated = true) ∧ ref ∉ h.nodeVectors := by
  unfold allocated
  rw [List.mem_filter, List.mem_range, Bool.and_eq_true, decide_eq_true_iff, Option.any_eq_true]
  constructor
  · rintro ⟨-, ⟨o, found, isAllocated⟩, apart⟩
    exact ⟨⟨o, found, isAllocated⟩, apart⟩
  · rintro ⟨⟨o, found, isAllocated⟩, apart⟩
    exact ⟨(Array.getElem?_eq_some_iff.1 found).1, ⟨o, found, isAllocated⟩, apart⟩

theorem length_allocated_le (more : List Nat)
    (sub : ∀ ref ∈ h'.allocated, ref ∈ h.allocated ∨ ref ∈ more) :
    h'.allocated.length ≤ h.allocated.length + more.length := by
  have nodup : h'.allocated.Nodup := List.nodup_range.filter _
  have subset : h'.allocated ⊆ h.allocated ++ more := fun ref mem => List.mem_append.2 (sub ref mem)
  rw [← List.length_append]
  exact (nodup.subperm subset).length_le

/-! ## Adding objects -/

theorem nodeVectors_add (mem : ref ∈ h.nodeVectors) : ref ∈ (h.add o).2.nodeVectors := by
  obtain ⟨place, n, found, isVector⟩ := mem_nodeVectors.1 mem
  refine mem_nodeVectors.2 ⟨place, n, ?_, isVector⟩
  have bound := (Array.getElem?_eq_some_iff.1 found).1
  rw [add, Array.getElem?_push, if_neg (Nat.ne_of_lt bound), found]

theorem allocated_add (mem : ref ∈ (h.add o).2.allocated) :
    ref ∈ h.allocated ∨ ref = h.objects.size ∧ o.isAllocated = true := by
  obtain ⟨⟨o', found, isAllocated⟩, apart⟩ := mem_allocated.1 mem
  rw [add, Array.getElem?_push] at found
  split at found
  · next isNew =>
    cases found
    exact .inr ⟨isNew, isAllocated⟩
  · exact .inl (mem_allocated.2 ⟨⟨o', found, isAllocated⟩, fun mem => apart (nodeVectors_add mem)⟩)

theorem contentBytes_add : (h.add o).2.contentBytes = h.contentBytes + o.contentBytes := by
  simp [contentBytes, add]

theorem cost_add_le (empty : o.contentBytes = 0) : (h.add o).2.cost ≤ h.cost + objectBytes := by
  have grown : (h.add o).2.allocated.length ≤ _ := length_allocated_le [h.objects.size]
    fun ref mem => (allocated_add mem).imp id fun isNew => List.mem_singleton.2 isNew.1
  rw [cost, cost, contentBytes_add, empty]
  rw [List.length_singleton] at grown
  have most := Nat.mul_le_mul_left objectBytes grown
  rw [Nat.mul_succ] at most
  omega

theorem cost_addFree (free : o.isAllocated = false) (empty : o.contentBytes = 0) :
    (h.add o).2.cost ≤ h.cost := by
  have same : (h.add o).2.allocated.length ≤ _ := length_allocated_le [] fun ref mem =>
    (allocated_add mem).imp id fun isNew => by
      rw [free] at isNew
      cases isNew.2
  rw [cost, cost, contentBytes_add, empty]
  exact Nat.add_le_add_right (Nat.mul_le_mul_left _ same) _

theorem cost_addNode (count : Nat) : (h.addNode count).cost ≤ h.cost := by
  have isAdded : h.addNode count = ((((h.add (.vector .zero)).2.add (.vector .zero)).2.add
      (.vector .one)).2.add (.node (.fresh count h.objects.size))).2 := rfl
  have isNew : (h.addNode count).objects[h.objects.size + 3]? =
      some (.node (.fresh count h.objects.size)) := by
    rw [addNode, Array.getElem?_push, if_pos (by simp)]
  have same : (h.addNode count).allocated.length ≤ _ := length_allocated_le [] fun ref mem => by
    have apart : ref ∉ [h.objects.size, h.objects.size + 1, h.objects.size + 2] := fun own =>
      (mem_allocated.1 mem).2 (mem_nodeVectors.2
        ⟨h.objects.size + 3, .fresh count h.objects.size, isNew, own⟩)
    simp only [List.mem_cons, List.not_mem_nil, or_false, not_or] at apart
    rw [isAdded] at mem
    obtain mem | isNode := allocated_add mem
    · obtain mem | third := allocated_add mem
      · obtain mem | second := allocated_add mem
        · obtain mem | first := allocated_add mem
          · exact .inl mem
          · exact absurd first.1 apart.1
        · exact absurd (by simpa [add] using second.1) apart.2.1
      · exact absurd (by simpa [add] using third.1) apart.2.2
    · cases isNode.2
  have content : (h.addNode count).contentBytes = h.contentBytes := by
    rw [isAdded]
    simp only [contentBytes_add, Object.contentBytes, Nat.add_zero]
  rw [cost, cost, content]
  exact Nat.add_le_add_right (Nat.mul_le_mul_left _ same) _

/-! ## Changing objects -/

theorem contentBytes_modify_le {bytes : Nat}
    (content : ∀ o, (f o).contentBytes ≤ o.contentBytes + bytes) :
    (h.modify place f).contentBytes ≤ h.contentBytes + bytes := by
  have changed (os : List Object) (place : Nat) :
      ((os.modify place f).map Object.contentBytes).sum ≤
        (os.map Object.contentBytes).sum + bytes := by
    induction os generalizing place with
    | nil => simp
    | cons o os ih =>
      cases place with
      | zero =>
        have ofFirst := content o
        simp only [List.modify_zero_cons, List.map_cons, List.sum_cons]
        omega
      | succ place =>
        have ofRest := ih place
        simp only [List.modify_succ_cons, List.map_cons, List.sum_cons]
        omega
  unfold contentBytes modify
  rw [Array.toList_modify]
  exact changed _ _

theorem cost_modify_le {bytes : Nat} (kind : ∀ o, (f o).isAllocated = true → o.isAllocated = true)
    (node : ∀ n, ∃ n', f (.node n) = .node n' ∧ n'.vectors = n.vectors)
    (content : ∀ o, (f o).contentBytes ≤ o.contentBytes + bytes) :
    (h.modify place f).cost ≤ h.cost + bytes := by
  have same : (h.modify place f).allocated.length ≤ h.allocated.length + _ :=
      length_allocated_le [] fun ref mem => by
    obtain ⟨⟨o, found, isAllocated⟩, apart⟩ := mem_allocated.1 mem
    refine .inl (mem_allocated.2 ⟨?_, fun own => apart ?_⟩)
    · rw [modify, Array.getElem?_modify] at found
      split at found
      · obtain ⟨before, was, rfl⟩ := Option.map_eq_some_iff.1 found
        exact ⟨before, was, kind before isAllocated⟩
      · exact ⟨o, found, isAllocated⟩
    · obtain ⟨ofNode, n, was, isVector⟩ := mem_nodeVectors.1 own
      obtain ⟨n', is, vectors⟩ := node n
      by_cases here : place = ofNode
      · refine mem_nodeVectors.2 ⟨ofNode, n', ?_, vectors ▸ isVector⟩
        rw [modify, Array.getElem?_modify, if_pos here, was, Option.map_some, is]
      · refine mem_nodeVectors.2 ⟨ofNode, n, ?_, isVector⟩
        rw [modify, Array.getElem?_modify, if_neg here, was]
  have content : (h.modify place f).contentBytes ≤ _ := contentBytes_modify_le content
  have allocated := Nat.mul_le_mul_left objectBytes same
  rw [cost, cost]
  rw [List.length_nil, Nat.add_zero] at allocated
  omega

theorem cost_modifyNode {f : NodeObject → NodeObject} (vectors : ∀ n, (f n).vectors = n.vectors) :
    (h.modifyNode place f).cost ≤ h.cost := by
  have least : (h.modifyNode place f).cost ≤ h.cost + 0 := by
    refine cost_modify_le (fun o => ?_) (fun n => ⟨f n, rfl, vectors n⟩) fun o => ?_
    · cases o <;> exact id
    · cases o <;> exact Nat.le_refl _
  exact least

structure Grows (bytes : Nat) (h h' : Heap) : Prop where
  cost : h'.cost ≤ h.cost + bytes
  size : h.objects.size ≤ h'.objects.size
  ids : ∀ ref < h.objects.size, h'.idBytes ref = h.idBytes ref

namespace Grows

variable {bytes more : Nat} {h'' : Heap}

theorem refl (h : Heap) : h.Grows bytes h :=
  ⟨Nat.le_add_right _ _, Nat.le_refl _, fun _ _ => rfl⟩

theorem trans (first : h.Grows bytes h') (second : h'.Grows more h'') :
    h.Grows (bytes + more) h'' where
  cost := by
    have cost := first.cost
    have cost' := second.cost
    omega
  size := Nat.le_trans first.size second.size
  ids ref bound := by
    rw [second.ids ref (Nat.lt_of_lt_of_le bound first.size), first.ids ref bound]

theorem mono (grows : h.Grows bytes h') (le : bytes ≤ more) : h.Grows more h' :=
  { grows with cost := Nat.le_trans grows.cost (Nat.add_le_add_left le _) }

theorem add (cost : (h.add o).2.cost ≤ h.cost + bytes) : h.Grows bytes (h.add o).2 where
  cost := cost
  size := by simp [Heap.add]
  ids ref bound := by rw [idBytes, find_add, if_neg (Nat.ne_of_lt bound), idBytes]

theorem addFree (free : o.isAllocated = false) (empty : o.contentBytes = 0) :
    h.Grows 0 (h.add o).2 :=
  add (cost_addFree free empty)

theorem addNode (count : Nat) : h.Grows 0 (h.addNode count) where
  cost := cost_addNode count
  size := by
    simp only [Heap.addNode, Array.size_push]
    omega
  ids ref bound := by
    rw [idBytes, find_addNode_of_vector fun _ => rfl, if_neg (by omega), idBytes]

theorem modifyNode {f : NodeObject → NodeObject} (vectors : ∀ n, (f n).vectors = n.vectors)
    (id : ∀ n, (f n).id = n.id) : h.Grows 0 (h.modifyNode place f) where
  cost := cost_modifyNode vectors
  size := by simp [Heap.modifyNode, Heap.modify]
  ids ref _ := by
    rw [idBytes, find_modifyNode, idBytes]
    split
    · cases h.find Object.node? ref with
      | none => rfl
      | some n => exact congrArg String.utf8ByteSize (id n)
    · rfl

theorem attach (parent child : Nat) : h.Grows 0 (h.attach parent child) := by
  have ofChild : h.Grows 0 (h.modifyNode child fun n => { n with parent := some parent }) :=
    .modifyNode (fun n => rfl) fun n => rfl
  have ofParent : Grows 0 _ (h.attach parent child) := .modifyNode (fun n => rfl) fun n => rfl
  exact ofChild.trans ofParent

theorem modify (adds : Object.Adds bytes f) : h.Grows bytes (h.modify place f) where
  cost := by
    refine cost_modify_le (fun o isAllocated => ?_) (fun n => ⟨n, adds.node n, rfl⟩) adds.content
    rwa [Object.isAllocated, (adds.minor o).kind] at isAllocated
  size := by simp [Heap.modify]
  ids ref _ := by
    have same (o : Object) : (f o).node? = o.node?.map id := by
      rw [Option.map_id, id]
      cases o with
      | node n => rw [adds.node n]
      | _ => exact Object.node?_eq_none (by rw [(adds.minor _).kind]; rintro ⟨⟩)
    rw [idBytes, find_modify same, Option.map_id, id, ite_self, idBytes]

end Grows

end Heap

/-! ## Paying -/

/-- Bytes that are charged are not given back, and they cover what is added to the heap, as far as
that was not paid before. -/
structure RunState.Pays (paid : Nat) (s s' : RunState) : Prop where
  charged : s.heapBytes ≤ s'.heapBytes
  heap : s.heap.Grows (s'.heapBytes - s.heapBytes + paid) s'.heap

namespace RunState.Pays

variable {paid more : Nat} {s s₁ s' : RunState}

theorem refl (s : RunState) : s.Pays paid s :=
  ⟨Nat.le_refl _, .refl _⟩

theorem trans (first : s.Pays paid s₁) (second : s₁.Pays more s') : s.Pays (paid + more) s' := by
  have charged := first.charged
  have charged' := second.charged
  exact ⟨Nat.le_trans charged charged', (first.heap.trans second.heap).mono (by omega)⟩

theorem mono (pays : s.Pays paid s') (le : paid ≤ more) : s.Pays more s' :=
  ⟨pays.charged, pays.heap.mono (Nat.add_le_add_left le _)⟩

theorem of_same (charged : s.heapBytes ≤ s'.heapBytes) (same : s'.heap = s.heap) :
    s.Pays paid s' :=
  ⟨charged, same ▸ .refl _⟩

theorem of_charged {bytes : Nat} (rest : s₁.Pays (paid + bytes) s')
    (charged : s₁.heapBytes = s.heapBytes + bytes) (same : s₁.heap = s.heap) :
    s.Pays paid s' := by
  have charged' := rest.charged
  refine ⟨by omega, ?_⟩
  rw [← same]
  exact rest.heap.mono (by omega)

end RunState.Pays

namespace Run

variable {α : Type} {limits : Limits} {s : RunState} {run : Run α}

/-- A run that pays for what it adds to the heap, and stays within the limit where it succeeds. -/
def Thrifty (paid : Nat) (limits : Limits) (s : RunState) (run : Run α) : Prop :=
  Ends limits s run
    (fun _ s' => s.Pays paid s' ∧
      (s.heapBytes ≤ limits.maxHeapBytes → s'.heapBytes ≤ limits.maxHeapBytes))
    fun _ => s.Pays paid

theorem thrifty_string {paid : Nat} (t : String) : Thrifty paid limits s (string t) := by
  refine .limits_bind (.guard (.refl s) fun _ => .charge_bind ?_ fun fits => .pure ⟨?_, ?_⟩)
  · exact .of_same (Nat.le_add_right _ _) rfl
  · exact .of_same (Nat.le_add_right _ _) rfl
  · exact fun _ => fits

theorem thrifty_alloc {paid : Nat} {o : Object} (empty : o.contentBytes = 0) :
    Thrifty paid limits s (alloc o) := by
  refine .tick_bind (fun _ => .of_same (Nat.le_refl _) rfl) fun _ => ?_
  refine .charge_bind ?_ fun fits => ?_
  · exact .of_same (Nat.le_add_right _ _) rfl
  · refine .addObject_bind (.pure ⟨⟨Nat.le_add_right _ _, ?_⟩, fun _ => fits⟩)
    have grows := Heap.Grows.add (Heap.cost_add_le (h := s.heap) empty)
    exact grows.mono (by dsimp only; omega)

theorem Plain.thrifty {paid : Nat} (plain : Plain paid run) : Thrifty paid limits s run := by
  induction plain generalizing s with
  | pure a => exact ⟨.refl s, id⟩
  | fault => exact .refl s
  | seq _ _ first rest =>
    refine Ends.bind (first.mono (fun _ _ => id) fun _ _ pays => ?_) ?_
    · exact pays.mono (Nat.le_add_right _ _)
    intro a s' ⟨pays, within⟩
    exact (rest a).mono (fun _ _ ends => ⟨pays.trans ends.1, ends.2 ∘ within⟩) fun _ _ => pays.trans
  | heap _ _ rest => exact rest s.heap
  | building _ rest => exact rest s.building
  | roomy _ rest => exact .guard (.refl s) fun _ => rest
  | charge _ rest =>
    refine .charge_bind (.of_same (Nat.le_add_right _ _) rfl) fun fits => rest.mono ?_ ?_
    · intro a s' ⟨pays, within⟩
      exact ⟨.of_charged pays rfl rfl, fun _ => within fits⟩
    · exact fun _ s' pays => .of_charged pays rfl rfl
  | string t => exact thrifty_string t
  | alloc _ empty => exact thrifty_alloc empty
  | modify ref adds => exact ⟨⟨Nat.le_refl _, (Heap.Grows.modify adds).mono (by omega)⟩, id⟩

theorem thrifty_tick : Thrifty 0 limits s tick := by
  have same (steps : Nat) : s.Pays 0 { s with steps } := .of_same (Nat.le_refl _) rfl
  rw [← bind_pure tick]
  exact .tick_bind (fun _ => same _) fun _ => .pure ⟨same _, id⟩

theorem thrifty_display (v : Value) : Thrifty 0 limits s (display v) := by
  have same (steps : Nat) : s.Pays 0 { s with steps } := .of_same (Nat.le_refl _) rfl
  rw [← bind_pure (display v)]
  refine .display_bind (fun _ => same) fun t steps => .pure ?_
  exact ⟨same steps, id⟩

theorem thrifty_textOf (v : Value) : Thrifty 0 limits s (Native.textOf v) :=
  .display_bind (fun _ _ => .of_same (Nat.le_refl _) rfl) fun t _ =>
    (thrifty_string t).mono (fun _ _ ends => ⟨⟨ends.1.charged, ends.1.heap⟩, ends.2⟩)
      fun _ _ pays => ⟨pays.charged, pays.heap⟩

end Run

namespace Edit

variable {limits : Limits} {onNode : Prop} {s s' : RunState} {deed : Option Deed}

theorem heapBytes (edit : Edit limits onNode s deed s') : s'.heapBytes = s.heapBytes := by
  cases edit <;> rfl

theorem pays (edit : Edit limits onNode s deed s') : s.Pays 0 s' := by
  have grows : s.heap.Grows 0 s'.heap := by
    cases edit with
    | refused | generated | misplaced | abandoned => exact .refl _
    | created => exact .addNode _
    | placed => exact .modifyNode (fun n => rfl) fun n => rfl
    | attached => exact .attach _ _
    | finished => exact .addFree rfl rfl
  exact ⟨Nat.le_of_eq edit.heapBytes.symm, grows.mono (Nat.zero_le _)⟩

end Edit

/-! ## Acts -/

namespace Act

variable {limits : Limits} {s : RunState}

def renamed? : Act → Option Nat
  | call c => c.renamed?
  | _ => none

end Act

theorem Call.thrifty {limits : Limits} {s : RunState} {c : Call} (unnamed : c.renamed? = none) :
    Thrifty 0 limits s c.run := by
  have does := c.does
  generalize c.run = run at does ⊢
  cases does with
  | plain _ plain => exact plain.thrifty
  | text => exact thrifty_textOf _
  | @rename receiver value =>
    refine (ends_rename receiver value).mono ?_ ?_
    · rintro v s' ⟨ref, n, id, rfl, -⟩
      cases unnamed
    · rintro cause s' ⟨-, bytes, rfl⟩
      exact .of_same (Nat.le_add_right _ _) rfl
  | builds builds =>
    refine builds.performs.mono (fun _ _ done => ⟨done.edit.pays, ?_⟩) fun _ _ failed =>
      failed.edit.pays
    rw [done.edit.heapBytes]
    exact id

theorem Call.renamed?_eq_some {c : Call} {ref : Nat} (renames : c.renamed? = some ref) :
    ∃ v, c = .set .node "id" (.object ref) v := by
  unfold renamed? at renames
  split at renames
  · next node v =>
    cases renames
    exact ⟨v, rfl⟩
  · cases renames

/-- How an act that succeeds pays; the id that a node is given is charged in full. -/
inductive Act.Pays (limits : Limits) (s : RunState) : Option Nat → RunState → Prop
  | thrifty {s' : RunState} : s.Pays 0 s' →
      (s.heapBytes ≤ limits.maxHeapBytes → s'.heapBytes ≤ limits.maxHeapBytes) →
      Pays limits s none s'
  | rename {ref : Nat} {n : NodeObject} (id : String) : s.heap.node ref = .ok n →
      s.heapBytes + id.utf8ByteSize ≤ limits.maxHeapBytes → Pays limits s (some ref) { s with
        heap := s.heap.modifyNode ref fun n => { n with id }
        heapBytes := s.heapBytes + id.utf8ByteSize }

theorem Act.pays {limits : Limits} {s : RunState} (a : Act) :
    Ends limits s a.run (fun _ => Act.Pays limits s a.renamed?) fun _ => s.Pays 0 := by
  have ofThrifty {α : Type} {run : Run α} (thrifty : Thrifty 0 limits s run) :
      Ends limits s (run >>= fun _ => pure ()) (fun _ => Act.Pays limits s none)
        fun _ => s.Pays 0 :=
    Ends.bind thrifty fun _ _ ends => .pure (.thrifty ends.1 ends.2)
  cases a with
  | statement | round | expression =>
    exact (thrifty_tick (s := s)).mono (fun _ _ ends => .thrifty ends.1 ends.2) fun _ _ => id
  | builder =>
    have added : Heap.Grows 0 s.heap (s.heap.add .builder).2 := .addFree rfl rfl
    have pays : s.Pays 0 { s with heap := (s.heap.add .builder).2 } :=
      ⟨Nat.le_refl _, added.mono (Nat.zero_le _)⟩
    exact .thrifty pays id
  | display v => exact ofThrifty (thrifty_display v)
  | string t => exact ofThrifty (thrifty_string t)
  | call c =>
    rw [show (call c).renamed? = c.renamed? from rfl]
    cases renames : c.renamed? with
    | none => exact ofThrifty (Call.thrifty renames)
    | some ref =>
      obtain ⟨v, rfl⟩ := Call.renamed?_eq_some renames
      refine Ends.bind ((ends_rename (.object ref) v).mono (fun _ _ => id) ?_) ?_
      · rintro cause s' ⟨-, bytes, rfl⟩
        exact .of_same (Nat.le_add_right _ _) rfl
      · rintro - s' ⟨ref', n, id, is, read, fits, rfl⟩
        cases is
        exact .pure (.rename id read fits)

end SceneScript
