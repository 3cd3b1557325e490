import Mathlib.Order.Bounds.Basic
import SceneScript.Proofs.Hierarchy.Finishing
import SceneScript.Proofs.Hierarchy.Reached

/-!
# Attaching nodes

In every state that calls lead to, a node can be attached to another one just where the builder is
open, the node has no parent, it is not on the way up from its new parent, and the levels of its tree
fit below that parent (`Leads.attach_legal`). The levels are counted here from the links alone, a
node itself being on the first level of its tree (`Links.HasLevels`).
-/

namespace SceneScript

/-! ## The levels of a tree -/

namespace Links

/-- The nodes of the tree below a node, each with its level. -/
inductive OnLevel (links : Links) (ref : Nat) : Nat → Nat → Prop
  | top : OnLevel links ref 1 ref
  | next {level x y : Nat} : OnLevel links ref level x → y ∈ links.children x →
      OnLevel links ref (level + 1) y

def HasLevels (links : Links) (ref levels : Nat) : Prop :=
  IsGreatest {level | ∃ x, links.OnLevel ref level x} levels

variable {links : Links} {ref child level x : Nat}

theorem OnLevel.of_child (mem : child ∈ links.children ref) (on : links.OnLevel child level x) :
    links.OnLevel ref (level + 1) x := by
  induction on with
  | top => exact .next .top mem
  | next _ mem' ih => exact .next ih mem'

theorem OnLevel.top_or_child (on : links.OnLevel ref level x) : (level = 1 ∧ x = ref) ∨
    ∃ child ∈ links.children ref, ∃ inner, level = inner + 1 ∧ links.OnLevel child inner x := by
  induction on with
  | top => exact .inl ⟨rfl, rfl⟩
  | @next level x y on mem ih =>
    right
    obtain ⟨rfl, rfl⟩ | ⟨child, isChild, inner, rfl, below⟩ := ih
    · exact ⟨y, mem, 1, rfl, .top⟩
    · exact ⟨child, isChild, inner + 1, rfl, .next below mem⟩

end Links

namespace Building

variable {h : Heap} {ref child below fuel : Nat}

theorem foldl_levels_attained (ns : List Nat) (start : Nat) :
    ns.foldl (fun most n => max most (n + 1)) start = start ∨
      ∃ n ∈ ns, ns.foldl (fun most n => max most (n + 1)) start = n + 1 := by
  induction ns generalizing start with
  | nil => exact .inl rfl
  | cons n ns ih =>
    rw [List.foldl_cons]
    obtain same | ⟨n', mem, is⟩ := ih (max start (n + 1))
    · rw [same]
      rcases Nat.le_total start (n + 1) with less | more
      · exact .inr ⟨n, List.mem_cons_self, Nat.max_eq_right less⟩
      · exact .inl (Nat.max_eq_left more)
    · exact .inr ⟨n', List.mem_cons_of_mem n mem, is⟩

theorem result_of_mapM {α β : Type} {f : α → Except FaultCause β} {as : List α} {bs : List β}
    (all : as.mapM f = .ok bs) {a : α} (mem : a ∈ as) : ∃ b ∈ bs, f a = .ok b := by
  have each := mapM_eq_ok.1 all
  obtain ⟨i, bound, rfl⟩ := List.getElem_of_mem mem
  have bound' : i < bs.length := each.length_eq ▸ bound
  exact ⟨bs[i], List.getElem_mem bound', each.get bound bound'⟩

theorem hasLevels_of_levelsBelow (counted : levelsBelow h fuel ref = .ok below) :
    h.links.HasLevels ref (below + 1) := by
  induction fuel generalizing ref below with
  | zero => cases counted
  | succ fuel ih =>
    simp only [levelsBelow, bind_eq_ok] at counted
    obtain ⟨n, read, counts, all, is⟩ := counted
    cases is
    rw [← Heap.children_node read] at all
    have each : ∀ n ∈ counts, n + 1 ≤ counts.foldl (fun most n => max most (n + 1)) 0 :=
      (foldl_levels_le.1 (Nat.le_refl _)).2
    constructor
    · obtain none | ⟨count, mem, most⟩ := foldl_levels_attained counts 0
      · rw [none]
        exact ⟨ref, .top⟩
      · obtain ⟨child, isChild, ofChild⟩ := mem_of_mapM all mem
        obtain ⟨x, on⟩ := (ih ofChild).1
        rw [most]
        exact ⟨x, .of_child isChild on⟩
    · rintro level ⟨x, on⟩
      obtain ⟨rfl, -⟩ | ⟨child, isChild, inner, rfl, on'⟩ := on.top_or_child
      · exact Nat.le_add_left 1 _
      · obtain ⟨count, mem, ofChild⟩ := result_of_mapM all isChild
        have most : inner ≤ count + 1 := (ih ofChild).2 ⟨x, on'⟩
        exact Nat.succ_le_succ (Nat.le_trans most (each count mem))

end Building

/-! ## Legal attachments -/

/-- In this state a value may be attached to a node: it is a node without a parent that is not on
the way up from the other one, and its tree fits below that in the 64 levels there may be. -/
def RunState.MayAttach (s : RunState) (parent : Nat) (v : Value) : Prop :=
  s.building.ended = false ∧ ∃ child n path levels, v = .object child ∧
    s.heap.node child = .ok n ∧ n.parent = none ∧ s.heap.links.Ascent parent path ∧
    child ∉ path ∧ s.heap.links.HasLevels child levels ∧ path.length + levels ≤ 64

namespace Building

open Run

variable {limits : Limits} {s : RunState} {parent child : Nat} {path : List Nat} {v : Value}

theorem ends_attach_legal (ascent : s.heap.links.Ascent parent path)
    (short : path.length ≤ maxLevels) :
    Ends limits s (attach parent v) (fun _ s' => s.MayAttach parent v ∧
      ∃ child, v = .object child ∧ s' = { s with heap := s.heap.attach parent child })
      fun _ s' => s' = s := by
  refine ends_ensureOpen_bind rfl fun isOpen => .lift_bind (fun _ _ => rfl) fun child is => ?_
  cases Value.asObject_ok is
  refine .heap_bind (.lift_bind (fun _ _ => rfl) fun n read => .guard rfl fun free => ?_)
  refine .heap_bind (.lift_bind (fun _ _ => rfl) fun above ofAbove => .heap_bind ?_)
  refine .lift_bind (fun _ _ => rfl) fun below ofBelow => .guard rfl fun room => ?_
  refine .modifyHeap_bind (.modifyHeap ?_)
  have noParent : n.parent = none := by simpa using free
  have levels := hasLevels_of_levelsBelow ofBelow
  rw [levelsAbove_eq ascent short] at ofAbove
  split at ofAbove
  · cases ofAbove
  · next apart =>
    cases ofAbove
    have fits : path.length + 1 + below ≤ maxLevels := Nat.not_lt.1 room
    have legal : s.MayAttach parent (.object child) :=
      ⟨isOpen, child, n, path, below + 1, rfl, read, noParent, ascent, apart, levels, by
        unfold maxLevels at fits
        omega⟩
    exact ⟨legal, child, rfl, rfl⟩

theorem attach_run (forest : s.heap.links.IsForest maxLevels) (legal : s.MayAttach parent v) :
    ∃ child, attach parent v limits s =
      .ok () { s with heap := s.heap.attach parent child } := by
  obtain ⟨isOpen, child, n, path, levels, rfl, read, free, ascent, apart, hasLevels, fits⟩ := legal
  refine ⟨child, ?_⟩
  have above : levelsAbove s.heap child maxLevels parent = .ok path.length := by
    rw [levelsAbove_eq ascent (forest.short ascent), if_neg apart]
  have noParent : s.heap.links.parent? child = none := by rw [Heap.parent?_node read, free]
  have alone : s.heap.links.Ascent child [child] := .root (Heap.has_node read) noParent
  obtain ⟨below, -, counted, -⟩ := levelsBelow_eq forest alone
  have ofBelow := counted maxLevels (Nat.lt_add_of_pos_left Nat.one_pos)
  have same : below + 1 = levels := (hasLevels_of_levelsBelow ofBelow).unique hasLevels
  have room : ¬path.length + 1 + below > maxLevels := by
    unfold maxLevels
    omega
  have isRoot : ¬n.parent.isSome = true := by simp [free]
  rw [attach, bind_apply, ensureOpen_run isOpen]
  change ((liftM (s.heap.node child) : Run NodeObject) >>= _) limits s = _
  rw [read]
  change (if n.parent.isSome = true then _ else _ : Run Unit) limits s = _
  rw [if_neg isRoot]
  change ((liftM (levelsAbove s.heap child maxLevels parent) : Run Nat) >>= _) limits s = _
  rw [above]
  change ((liftM (levelsBelow s.heap maxLevels child) : Run Nat) >>= _) limits s = _
  rw [ofBelow]
  change (if path.length + 1 + below > maxLevels then _ else _ : Run Unit) limits s = _
  rw [if_neg room]
  rfl

end Building

namespace Heap

variable {h : Heap} {parent child ref : Nat} {n : NodeObject}

theorem node_attach_child (read : h.node child = .ok n) (other : child ≠ parent) :
    (h.attach parent child).node child = .ok { n with parent := some parent } := by
  rw [node_eq_ok] at read ⊢
  rw [attach, find_modifyNode, find_modifyNode, if_neg (Ne.symm other), if_pos rfl, read]
  rfl

theorem node_attach_parent (read : h.node parent = .ok n) (other : child ≠ parent) :
    (h.attach parent child).node parent =
      .ok { n with children := n.children.push child } := by
  rw [node_eq_ok] at read ⊢
  rw [attach, find_modifyNode, find_modifyNode, if_pos rfl, if_neg other, read]
  rfl

theorem objects_attach (notParent : ref ≠ parent) (notChild : ref ≠ child) :
    (h.attach parent child).objects[ref]? = h.objects[ref]? := by
  simp only [attach, modifyNode, modify, Array.getElem?_modify, if_neg (Ne.symm notParent),
    if_neg (Ne.symm notChild)]

end Heap

/-- In every state that is reached, attaching a value to a node succeeds just where it may be
attached. Then the value is a node whose parent is the other one, and is the last of its children;
nothing else changes, and nothing at all where attaching fails. -/
theorem Leads.attach_legal {limits : Limits} {n : Nat} {deeds : List Deed} {s : RunState}
    (leads : Leads limits (.start n) deeds s) {parent : Nat} {p : NodeObject}
    (isNode : s.heap.node parent = .ok p) (v : Value) :
    ((∃ s', Building.attach parent v limits s = .ok () s') ↔ s.MayAttach parent v) ∧
    (∀ s', Building.attach parent v limits s = .ok () s' → ∃ child c, v = .object child ∧
      s.heap.node child = .ok c ∧ s' = { s with heap := s'.heap } ∧
      s'.heap.node child = .ok { c with parent := some parent } ∧
      s'.heap.node parent = .ok { p with children := p.children.push child } ∧
      ∀ ref, ref ≠ parent → ref ≠ child → s'.heap.objects[ref]? = s.heap.objects[ref]?) ∧
    ∀ f s', Building.attach parent v limits s = .error f s' → s' = s := by
  have forest := leads.forested.forest
  obtain ⟨path, ascent, short⟩ := forest.rooted parent (Heap.has_node isNode)
  have ends : Run.Ends limits s (Building.attach parent v) _ _ :=
    Building.ends_attach_legal ascent short
  refine ⟨⟨?_, fun legal => ?_⟩, ?_, fun f s' failed => ends.of_error failed⟩
  · rintro ⟨s', ran⟩
    exact (ends.of_ok ran).1
  · obtain ⟨child, ran⟩ := Building.attach_run forest legal
    exact ⟨_, ran⟩
  · intro s' ran
    obtain ⟨⟨-, child, c, path', -, is, read, -, ascent', apart, -⟩, _, is', rfl⟩ := ends.of_ok ran
    obtain rfl : child = _ := Value.object.inj (is.symm.trans is')
    have other : child ≠ parent := fun same => apart (same ▸ ascent'.mem)
    exact ⟨child, c, is, read, rfl, Heap.node_attach_child read other,
      Heap.node_attach_parent isNode other, fun _ => Heap.objects_attach⟩

/-- A node is not attached to its child. -/
theorem Leads.attach_legal_pair :
    Leads {} (.start 0) [.created 4, .created 8, .attached 4 8] .pair ∧
      RunState.pair.heap.node 8 = .ok ⟨"node1", 5, 6, 7, #[], #[], some 4⟩ ∧
      ¬∃ s', Building.attach 8 (.object 4) {} .pair = .ok () s' := by
  refine ⟨Leads.pair, rfl, fun attached => ?_⟩
  obtain ⟨-, child, c, path, levels, is, -, -, ascent, apart, -⟩ :=
    (Leads.attach_legal Leads.pair rfl (.object 4)).1.1 attached
  obtain rfl := Value.object.inj is
  have known : RunState.pair.heap.links.Ascent 8 [8, 4] := .step rfl (.root rfl rfl)
  rw [ascent.unique known] at apart
  exact apart (by decide)

end SceneScript
