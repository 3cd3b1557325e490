import SceneScript.Proofs.Hierarchy.Walks

/-!
# Finishing a hierarchy

`finishNode` copies the tree below a node. In a forest it is never cut off: the bound on its levels
does not matter (`finishNode_eq`), so that the copy of a node consists of the copies of its children
under the same bound (`finishNode_node`). The copies have no more levels than the forest.
-/

namespace SceneScript

namespace ModelNode

mutual

/-- The levels of a tree, which is how deep a recursion over its children gets. -/
def levels : ModelNode → Nat
  | ⟨_, _, _, children⟩ => 1 + levelsAll children

def levelsAll : List ModelNode → Nat
  | [] => 0
  | n :: rest => max n.levels (levelsAll rest)

end

theorem levelsAll_le {ns : List ModelNode} {bound : Nat} :
    levelsAll ns ≤ bound ↔ ∀ n ∈ ns, n.levels ≤ bound := by
  induction ns with
  | nil => simp [levelsAll]
  | cons n ns ih => rw [levelsAll, Nat.max_le, ih, List.forall_mem_cons]

end ModelNode

namespace Building

variable {h : Heap} {meshes : Array Mesh} {ref levels fuel : Nat} {path : List Nat}
  {n : NodeObject} {m : ModelNode}

/-! ## Failing computations on the heap -/

section

variable {α β : Type} {x : Except FaultCause α} {next : α → Except FaultCause β}
  {cause : FaultCause} {b : β}

theorem bind_eq_ok : x >>= next = .ok b ↔ ∃ a, x = .ok a ∧ next a = .ok b := by
  cases x <;> simp [bind, Except.bind]

theorem bind_ne_error (first : x ≠ .error cause) (rest : ∀ a, next a ≠ .error cause) :
    x >>= next ≠ .error cause := by
  cases x with
  | ok a => exact rest a
  | error cause' =>
    intro failed
    cases failed
    exact first rfl

theorem mapM_ne_error {f : α → Except FaultCause β} {as : List α}
    (each : ∀ a ∈ as, f a ≠ .error cause) : as.mapM f ≠ .error cause := by
  induction as with
  | nil => exact nofun
  | cons a as ih =>
    rw [List.mapM_cons]
    have ofRest := ih fun a' mem => each a' (List.mem_cons_of_mem a mem)
    exact bind_ne_error (each a List.mem_cons_self) fun b => bind_ne_error ofRest fun bs => nofun

theorem mem_of_mapM {f : α → Except FaultCause β} {as : List α} {bs : List β}
    (all : as.mapM f = .ok bs) (mem : b ∈ bs) : ∃ a ∈ as, f a = .ok b := by
  have each := mapM_eq_ok.1 all
  clear all
  induction each with
  | nil => cases mem
  | @cons a b' as bs first _ ih =>
    rcases List.mem_cons.1 mem with rfl | mem
    · exact ⟨a, List.mem_cons_self, first⟩
    · obtain ⟨a', mem', is⟩ := ih mem
      exact ⟨a', List.mem_cons_of_mem a mem', is⟩

end

/-! ## One node -/

def finishWith (h : Heap) (meshes : Array Mesh) (n : NodeObject)
    (children : Except FaultCause (List ModelNode)) : Except FaultCause ModelNode := do
  let transform ← finishTransform h n
  let parts ← n.parts.toList.mapM (finishPart h meshes)
  return ⟨n.id, transform, parts, ← children⟩

theorem finishNode_succ (read : h.node ref = .ok n) : finishNode h meshes (fuel + 1) ref =
    finishWith h meshes n (n.children.toList.mapM (finishNode h meshes fuel)) := by
  rw [finishNode, read]
  rfl

theorem finishWith_eq_ok {children : Except FaultCause (List ModelNode)} :
    finishWith h meshes n children = .ok m ↔ finishTransform h n = .ok m.transform ∧
      n.parts.toList.mapM (finishPart h meshes) = .ok m.parts ∧ children = .ok m.children ∧
      m.name = n.id := by
  unfold finishWith
  simp only [bind_eq_ok]
  constructor
  · rintro ⟨transform, placed, parts, finished, ms, copied, made⟩
    cases made
    exact ⟨placed, finished, copied, rfl⟩
  · rintro ⟨placed, finished, copied, named⟩
    exact ⟨_, placed, _, finished, _, copied, by rw [← named]; cases m; rfl⟩

/-! ## Faults that do not arise -/

section

variable {cause : FaultCause} (mild : cause.isIllTyped = false)

include mild

theorem content_ne_error {α : Type} {needed : ObjectKind} {select : Object → Option α} :
    h.content needed select ref ≠ .error cause := by
  intro failed
  rw [Heap.content_illTyped failed] at mild
  cases mild

theorem finishTransform_ne_error (finite : cause ≠ .infiniteTransform n.id) :
    finishTransform h n ≠ .error cause := by
  unfold finishTransform
  refine bind_ne_error (content_ne_error mild) fun t => bind_ne_error (content_ne_error mild)
    fun r => bind_ne_error (content_ne_error mild) fun v => ?_
  dsimp only
  split
  · rintro ⟨⟩
  · rintro ⟨⟩
    exact finite rfl

theorem finishPart_ne_error {part : Nat × Nat}
    (known : meshes[part.1]? = none → cause ≠ .unknownPart part.1) :
    finishPart h meshes part ≠ .error cause := by
  unfold finishPart
  refine bind_ne_error (content_ne_error mild) fun m => ?_
  dsimp only
  split
  · next missing =>
    rintro ⟨⟩
    exact known missing rfl
  · rintro ⟨⟩

theorem finishWith_ne_error {children : Except FaultCause (List ModelNode)}
    (finite : cause ≠ .infiniteTransform n.id)
    (known : ∀ part ∈ n.parts.toList, meshes[part.1]? = none → cause ≠ .unknownPart part.1)
    (whole : children ≠ .error cause) : finishWith h meshes n children ≠ .error cause := by
  refine bind_ne_error (finishTransform_ne_error mild finite) fun t => ?_
  refine bind_ne_error (mapM_ne_error fun part mem => ?_) fun parts => ?_
  · exact finishPart_ne_error mild (known part mem)
  · exact bind_ne_error whole fun ms => nofun

end

/-! ## The bound on levels -/

section

variable (forest : h.links.IsForest levels) (ascent : h.links.Ascent ref path)

include forest ascent

theorem finishNode_eq (enough : levels < path.length + fuel) :
    finishNode h meshes fuel ref = finishNode h meshes levels ref := by
  -- Two bounds are compared, so that both go down by one from a node to its children.
  have unbounded : ∀ {fuel'}, levels < path.length + fuel' →
      finishNode h meshes fuel ref = finishNode h meshes fuel' ref := by
    revert fuel
    refine forest.descend (P := fun ref path => ∀ {fuel}, levels < path.length + fuel →
      ∀ {fuel'}, levels < path.length + fuel' →
        finishNode h meshes fuel ref = finishNode h meshes fuel' ref)
      (fun ref path ascent ih fuel enough fuel' enough' => ?_) ascent
    obtain ⟨n, read⟩ := Heap.node_of_has ascent.has
    have short := forest.short ascent
    obtain ⟨fuel, rfl⟩ : ∃ rest, fuel = rest + 1 := Nat.exists_eq_add_of_le' (by omega)
    obtain ⟨fuel', rfl⟩ : ∃ rest, fuel' = rest + 1 := Nat.exists_eq_add_of_le' (by omega)
    rw [finishNode_succ read, finishNode_succ read]
    refine congrArg _ (mapM_congr fun child mem => ?_)
    rw [← Heap.children_node read] at mem
    exact ih child mem (by rw [List.length_cons]; omega) (by rw [List.length_cons]; omega)
  exact unbounded (Nat.lt_add_of_pos_left (List.length_pos_of_mem ascent.mem))

theorem finishNode_node (read : h.node ref = .ok n) : finishNode h meshes levels ref =
    finishWith h meshes n (n.children.toList.mapM (finishNode h meshes levels)) := by
  have enough : levels < path.length + (levels + 1) := by omega
  rw [← finishNode_eq forest ascent enough, finishNode_succ read]

theorem finishNode_ne_levelLimit : finishNode h meshes levels ref ≠ .error .levelLimit := by
  refine forest.descend (P := fun ref _ => finishNode h meshes levels ref ≠ .error .levelLimit)
    (fun ref path ascent ih => ?_) ascent
  obtain ⟨n, read⟩ := Heap.node_of_has ascent.has
  rw [finishNode_node forest ascent read]
  rw [Heap.children_node read] at ih
  exact finishWith_ne_error rfl nofun (fun _ _ _ => nofun) (mapM_ne_error ih)

theorem levels_finishNode (finished : finishNode h meshes levels ref = .ok m) :
    path.length + m.levels ≤ levels + 1 := by
  revert m
  refine forest.descend (P := fun ref path => ∀ {m}, finishNode h meshes levels ref = .ok m →
    path.length + m.levels ≤ levels + 1) (fun ref path ascent ih m finished => ?_) ascent
  obtain ⟨n, read⟩ := Heap.node_of_has ascent.has
  rw [finishNode_node forest ascent read] at finished
  obtain ⟨-, -, children, -⟩ := finishWith_eq_ok.1 finished
  have short := forest.short ascent
  have bounded : ModelNode.levelsAll m.children ≤ levels - path.length := by
    refine ModelNode.levelsAll_le.2 fun c mem => ?_
    obtain ⟨child, ofNode, isCopy⟩ := mem_of_mapM children mem
    rw [← Heap.children_node read] at ofNode
    have fits := ih child ofNode isCopy
    rw [List.length_cons] at fits
    omega
  have whole : m.levels = 1 + ModelNode.levelsAll m.children := by cases m; rfl
  omega

end

/-! ## All nodes -/

theorem finishRoots_eq {refs : List Nat} (nodes : ∀ ref ∈ refs, h.links.Has ref) :
    finishRoots h meshes refs = (refs.filter fun ref => (h.links.parent? ref).isNone).mapM
      (finishNode h meshes maxLevels) := by
  induction refs with
  | nil => rfl
  | cons ref rest ih =>
    obtain ⟨n, read⟩ := Heap.node_of_has (nodes ref List.mem_cons_self)
    have ofRest := ih fun ref' mem => nodes ref' (List.mem_cons_of_mem ref mem)
    rw [finishRoots, read, List.filter_cons, Heap.parent?_node read, ofRest]
    simp only [bind, Except.bind]
    split
    · rw [List.mapM_cons]
      rfl
    · rfl

theorem levels_finishRoots (forest : h.links.IsForest maxLevels) {refs : List Nat}
    {roots : List ModelNode} (nodes : ∀ ref ∈ refs, h.links.Has ref)
    (finished : finishRoots h meshes refs = .ok roots) :
    ∀ root ∈ roots, root.levels ≤ maxLevels := by
  intro root mem
  rw [finishRoots_eq nodes] at finished
  obtain ⟨ref, ofRefs, isCopy⟩ := mem_of_mapM finished mem
  obtain ⟨ofRefs, free⟩ := List.mem_filter.1 ofRefs
  have ascent : h.links.Ascent ref [ref] :=
    .root (nodes ref ofRefs) (Option.isNone_iff_eq_none.1 free)
  have fits := levels_finishNode forest ascent isCopy
  rw [List.length_singleton] at fits
  omega

end Building

end SceneScript
