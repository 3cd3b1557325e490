import SceneScript.Proofs.Hierarchy.Forest
import SceneScript.Proofs.Machine.Changes

/-!
# Walks through the hierarchy

In a forest the walks up and down the hierarchy of nodes give the same whatever bound is put on
them, as long as it is at least the number of levels: `levelsAbove` counts the way up, `levelsBelow`
the levels that the tree below takes up, and `finishNode` copies that tree.
-/

namespace SceneScript

/-! ## The hierarchy on a heap -/

def NodeObject.link (n : NodeObject) : Link :=
  ⟨n.parent, n.children.toList⟩

def Object.link? (o : Object) : Option Link :=
  o.node?.map NodeObject.link

namespace Heap

variable {h : Heap} {ref : Nat} {n : NodeObject}

def links (h : Heap) : Links :=
  h.find Object.link?

theorem links_eq (h : Heap) (ref : Nat) :
    h.links ref = (h.find Object.node? ref).map NodeObject.link := by
  unfold links find
  cases h.objects[ref]? <;> rfl

theorem links_node (read : h.node ref = .ok n) : h.links ref = some n.link := by
  rw [links_eq, node_eq_ok.1 read, Option.map_some]

theorem parent?_node (read : h.node ref = .ok n) : h.links.parent? ref = n.parent := by
  rw [Links.parent?, links_node read]
  rfl

theorem children_node (read : h.node ref = .ok n) : h.links.children ref = n.children.toList := by
  rw [Links.children, links_node read]
  rfl

theorem has_node (read : h.node ref = .ok n) : h.links.Has ref := by
  rw [Links.Has, links_node read]
  rfl

theorem node_of_has (has : h.links.Has ref) : ∃ n, h.node ref = .ok n := by
  rw [Links.Has, links_eq, Option.isSome_map] at has
  obtain ⟨n, found⟩ := Option.isSome_iff_exists.1 has
  exact ⟨n, node_eq_ok.2 found⟩

end Heap

namespace Building

variable {h : Heap} {ref child levels fuel : Nat} {path : List Nat}

/-! ## The way up -/

theorem levelsAbove_eq (ascent : h.links.Ascent ref path) (enough : path.length ≤ fuel) :
    levelsAbove h child fuel ref = if child ∈ path then .error .cycle else .ok path.length := by
  induction ascent generalizing fuel with
  | @root ref has free =>
    obtain ⟨n, read⟩ := Heap.node_of_has has
    obtain ⟨fuel, rfl⟩ : ∃ rest, fuel = rest + 1 := Nat.exists_eq_add_of_le' enough
    have noParent : n.parent = none := by rw [← Heap.parent?_node read, free]
    rw [levelsAbove, read]
    by_cases same : ref = child
    · simp [same, bind, Except.bind]
    · simp [same, Ne.symm same, bind, Except.bind, noParent]
  | @step ref parent path found ascent ih =>
    obtain ⟨n, read⟩ := Heap.node_of_has (Links.has_of_parent? found)
    rw [List.length_cons] at enough
    obtain ⟨fuel, rfl⟩ : ∃ rest, fuel = rest + 1 :=
      Nat.exists_eq_add_of_le' (Nat.le_trans (Nat.le_add_left 1 path.length) enough)
    have hasParent : n.parent = some parent := by rw [← Heap.parent?_node read, found]
    have rest := ih (Nat.le_of_succ_le_succ enough)
    rw [levelsAbove, read]
    by_cases same : ref = child
    · simp [same, bind, Except.bind]
    · by_cases above : child ∈ path
      · simp [same, bind, Except.bind, hasParent, rest, above]
      · simp [same, Ne.symm same, bind, Except.bind, hasParent, rest, above, pure, Except.pure,
          Nat.add_comm]

theorem levelsAbove_ok {above : Nat} (counted : levelsAbove h child fuel ref = .ok above) :
    ∃ n, h.node ref = .ok n := by
  cases fuel with
  | zero => cases counted
  | succ fuel =>
    rw [levelsAbove] at counted
    split at counted
    · cases counted
    · cases read : h.node ref with
      | ok n => exact ⟨n, rfl⟩
      | error cause =>
        rw [read] at counted
        cases counted

/-! ## The levels below -/

theorem mapM_eq_ok {α β : Type} {f : α → Except FaultCause β} {as : List α} {bs : List β} :
    as.mapM f = .ok bs ↔ List.Forall₂ (fun a b => f a = .ok b) as bs := by
  induction as generalizing bs with
  | nil => simp [pure, Except.pure, eq_comm]
  | cons a as ih =>
    rw [List.mapM_cons, List.forall₂_cons_left_iff]
    cases f a with
    | error cause => simp [bind, Except.bind]
    | ok b =>
      simp only [bind, Except.bind, ← ih]
      cases as.mapM f <;> simp [pure, Except.pure, eq_comm]

theorem mapM_ok {α β : Type} {f : α → Except FaultCause β} {g : α → β} {as : List α}
    (each : ∀ a ∈ as, f a = .ok (g a)) : as.mapM f = .ok (as.map g) := by
  rw [mapM_eq_ok, List.forall₂_map_right_iff, List.forall₂_same]
  exact each

theorem mapM_congr {α β : Type} {f g : α → Except FaultCause β} {as : List α}
    (each : ∀ a ∈ as, f a = g a) : as.mapM f = as.mapM g := by
  induction as with
  | nil => rfl
  | cons a as ih =>
    rw [List.mapM_cons, List.mapM_cons, each a List.mem_cons_self,
      ih fun a' mem => each a' (List.mem_cons_of_mem a mem)]

theorem foldl_levels_le {ns : List Nat} {start bound : Nat} :
    ns.foldl (fun most n => max most (n + 1)) start ≤ bound ↔
      start ≤ bound ∧ ∀ n ∈ ns, n + 1 ≤ bound := by
  induction ns generalizing start with
  | nil => simp
  | cons n ns ih => rw [List.foldl_cons, ih, Nat.max_le, List.forall_mem_cons, and_assoc]

theorem levelsBelow_eq (forest : h.links.IsForest levels) (ascent : h.links.Ascent ref path) :
    ∃ below, path.length + below ≤ levels ∧
      (∀ fuel, levels < path.length + fuel → levelsBelow h fuel ref = .ok below) ∧
      ∀ x xs, h.links.Ascent x xs → ref ∈ xs → xs.length ≤ path.length + below := by
  refine forest.descend (P := fun ref path => ∃ below, path.length + below ≤ levels ∧
    (∀ fuel, levels < path.length + fuel → levelsBelow h fuel ref = .ok below) ∧
    ∀ x xs, h.links.Ascent x xs → ref ∈ xs → xs.length ≤ path.length + below)
    (fun ref path ascent ih => ?_) ascent
  obtain ⟨n, read⟩ := Heap.node_of_has ascent.has
  rw [Heap.children_node read] at ih
  -- From here on `below` is the number of levels below each child.
  choose! below fits counted reached using ih
  let levelsOf := (n.children.toList.map below).foldl (fun most n => max most (n + 1)) 0
  have most : ∀ child ∈ n.children.toList, below child + 1 ≤ levelsOf := by
    have each := (foldl_levels_le.1 (Nat.le_refl levelsOf)).2
    simpa using each
  refine ⟨levelsOf, ?_, fun fuel enough => ?_, fun x xs ascent' on => ?_⟩
  · have short := forest.short ascent
    have fit : levelsOf ≤ levels - path.length := by
      refine foldl_levels_le.2 ⟨Nat.zero_le _, fun b ofMap => ?_⟩
      obtain ⟨child, mem, rfl⟩ := List.mem_map.1 ofMap
      have fits := fits child mem
      rw [List.length_cons] at fits
      omega
    omega
  · have short := forest.short ascent
    obtain ⟨fuel, rfl⟩ : ∃ rest, fuel = rest + 1 := Nat.exists_eq_add_of_le' (by omega)
    have each : ∀ child ∈ n.children.toList, levelsBelow h fuel child = .ok (below child) :=
      fun child mem => counted child mem fuel (by rw [List.length_cons]; omega)
    rw [levelsBelow, read]
    simp only [bind, Except.bind, mapM_ok each]
    rfl
  · rcases ascent'.through on with rfl | ⟨child, on', found⟩
    · rw [ascent'.unique ascent]
      exact Nat.le_add_right _ _
    · have mem : child ∈ n.children.toList := by
        rw [← Heap.children_node read, forest.agree, found]
      have longer := reached child mem x xs ascent' on'
      have most := most child mem
      rw [List.length_cons] at longer
      omega

/-! ## Attaching -/

theorem isForest_attach {parent above below : Nat} {n : NodeObject}
    (forest : h.links.IsForest maxLevels) (read : h.node child = .ok n) (free : n.parent = none)
    (ofAbove : levelsAbove h child maxLevels parent = .ok above)
    (ofBelow : levelsBelow h maxLevels child = .ok below) (room : above + 1 + below ≤ maxLevels) :
    (h.links.attach parent child).IsForest maxLevels := by
  obtain ⟨p, readParent⟩ := levelsAbove_ok ofAbove
  obtain ⟨path, ascent, short⟩ := forest.rooted parent (Heap.has_node readParent)
  rw [levelsAbove_eq ascent short] at ofAbove
  split at ofAbove
  · cases ofAbove
  · next apart =>
    cases ofAbove
    have noParent : h.links.parent? child = none := by rw [Heap.parent?_node read, free]
    have alone : h.links.Ascent child [child] := .root (Heap.has_node read) noParent
    refine forest.attach noParent (Heap.has_node read) ascent apart fun x xs ascent' on => ?_
    obtain ⟨below', -, counted, reached⟩ := levelsBelow_eq forest alone
    rw [counted maxLevels (by rw [List.length_singleton, Nat.add_comm]; exact Nat.lt_succ_self _)]
      at ofBelow
    cases ofBelow
    have longer := reached x xs ascent' on
    rw [List.length_singleton] at longer
    omega

end Building

end SceneScript
