import Mathlib.Data.List.Perm.Basic
import SceneScript.Proofs.Hierarchy.Reached

/-!
# What was built

The deeds of the calls so far say which nodes there are, which parts each of them has and which
children, all in the order of the calls (`Leads.built`).
-/

namespace SceneScript

/-! ## Deeds -/

namespace Deed

variable {deeds : List Deed} {node parent child part material x : Nat}

def createdIn (deeds : List Deed) : List Nat :=
  deeds.filterMap fun
    | .created node => some node
    | _ => none

def placedIn (deeds : List Deed) : List (Nat × Nat) :=
  deeds.filterMap fun
    | .placed _ part material => some (part, material)
    | _ => none

def placedOn (node : Nat) (deeds : List Deed) : List (Nat × Nat) :=
  deeds.filterMap fun
    | .placed node' part material => if node' = node then some (part, material) else none
    | _ => none

def attachedTo (parent : Nat) (deeds : List Deed) : List Nat :=
  deeds.filterMap fun
    | .attached parent' child => if parent' = parent then some child else none
    | _ => none

def attachedIn (deeds : List Deed) : List Nat :=
  deeds.filterMap fun
    | .attached _ child => some child
    | _ => none

theorem mem_attachedIn : child ∈ attachedIn deeds ↔ ∃ parent, attached parent child ∈ deeds := by
  rw [attachedIn, List.mem_filterMap]
  constructor
  · rintro ⟨deed, mem, is⟩
    cases deed with
    | attached parent =>
      cases is
      exact ⟨parent, mem⟩
    | _ => cases is
  · rintro ⟨parent, mem⟩
    exact ⟨_, mem, rfl⟩

@[simp] theorem createdIn_append (deeds more : List Deed) :
    createdIn (deeds ++ more) = createdIn deeds ++ createdIn more :=
  List.filterMap_append

@[simp] theorem placedIn_append (deeds more : List Deed) :
    placedIn (deeds ++ more) = placedIn deeds ++ placedIn more :=
  List.filterMap_append

@[simp] theorem placedOn_append (deeds more : List Deed) :
    placedOn node (deeds ++ more) = placedOn node deeds ++ placedOn node more :=
  List.filterMap_append

@[simp] theorem attachedTo_append (deeds more : List Deed) :
    attachedTo parent (deeds ++ more) = attachedTo parent deeds ++ attachedTo parent more :=
  List.filterMap_append

@[simp] theorem createdIn_created : createdIn [created node] = [node] := rfl

@[simp] theorem createdIn_placed : createdIn [placed node part material] = [] := rfl

@[simp] theorem createdIn_attached : createdIn [attached parent child] = [] := rfl

@[simp] theorem placedIn_created : placedIn [created node] = [] := rfl

@[simp] theorem placedIn_placed :
    placedIn [placed node part material] = [(part, material)] := rfl

@[simp] theorem placedIn_attached : placedIn [attached parent child] = [] := rfl

@[simp] theorem placedOn_created : placedOn x [created node] = [] := rfl

@[simp] theorem placedOn_placed : placedOn x [placed node part material] =
    if node = x then [(part, material)] else [] := by
  by_cases same : node = x <;> simp [placedOn, same]

@[simp] theorem placedOn_attached : placedOn x [attached parent child] = [] := rfl

@[simp] theorem attachedTo_created : attachedTo x [created node] = [] := rfl

@[simp] theorem attachedTo_placed : attachedTo x [placed node part material] = [] := rfl

@[simp] theorem attachedTo_attached : attachedTo x [attached parent child] =
    if parent = x then [child] else [] := by
  by_cases same : parent = x <;> simp [attachedTo, same]

theorem mem_placedOn :
    (part, material) ∈ placedOn node deeds ↔ placed node part material ∈ deeds := by
  rw [placedOn, List.mem_filterMap]
  constructor
  · rintro ⟨deed, mem, is⟩
    cases deed with
    | placed node' part' material' =>
      dsimp only at is
      rw [Option.ite_none_right_eq_some] at is
      obtain ⟨rfl, is⟩ := is
      cases is
      exact mem
    | _ => cases is
  · intro mem
    exact ⟨_, mem, if_pos rfl⟩

theorem mem_placedIn :
    (part, material) ∈ placedIn deeds ↔ ∃ node, placed node part material ∈ deeds := by
  rw [placedIn, List.mem_filterMap]
  constructor
  · rintro ⟨deed, mem, is⟩
    cases deed with
    | placed node =>
      cases is
      exact ⟨node, mem⟩
    | _ => cases is
  · rintro ⟨node, mem⟩
    exact ⟨_, mem, rfl⟩

theorem mem_attachedTo : child ∈ attachedTo parent deeds ↔ attached parent child ∈ deeds := by
  rw [attachedTo, List.mem_filterMap]
  constructor
  · rintro ⟨deed, mem, is⟩
    cases deed with
    | attached parent' child' =>
      dsimp only at is
      rw [Option.ite_none_right_eq_some] at is
      obtain ⟨rfl, is⟩ := is
      cases is
      exact mem
    | _ => cases is
  · intro mem
    exact ⟨_, mem, if_pos rfl⟩

theorem flatMap_ite {α : Type} {nodes : List Nat} (nodup : nodes.Nodup) (as : List α) :
    (nodes.flatMap fun node' => if node = node' then as else []) =
      if node ∈ nodes then as else [] := by
  induction nodes with
  | nil => rfl
  | cons first rest ih =>
    obtain ⟨fresh, nodup⟩ := List.nodup_cons.1 nodup
    rw [List.flatMap_cons, ih nodup]
    by_cases same : node = first
    · subst same
      simp [fresh]
    · simp [same]

theorem flatMap_placedOn {nodes : List Nat} (nodup : nodes.Nodup)
    (all : ∀ {node part material}, placed node part material ∈ deeds → node ∈ nodes) :
    (nodes.flatMap fun node => placedOn node deeds).Perm (placedIn deeds) := by
  induction deeds with
  | nil =>
    have none : (nodes.flatMap fun node => placedOn node []) = [] := by simp [placedOn]
    rw [none]
    exact .refl _
  | cons deed rest ih =>
    have ofRest := ih fun mem => all (List.mem_cons_of_mem deed mem)
    cases deed with
    | created | attached => exact ofRest
    | placed node part material =>
      have split : ∀ node', placedOn node' (placed node part material :: rest) =
          (if node = node' then [(part, material)] else []) ++ placedOn node' rest := by
        intro node'
        rw [← List.singleton_append, placedOn_append, placedOn_placed]
      simp only [split]
      -- The part is found once more on its own node only.
      refine (List.flatMap_append_perm nodes _ _).symm.trans ?_
      rw [flatMap_ite nodup, if_pos (all List.mem_cons_self)]
      exact ofRest.cons _

end Deed

/-! ## States -/

namespace Object

def parts? (o : Object) : Option (List (Nat × Nat)) :=
  o.node?.map fun n => n.parts.toList

def vectors? (o : Object) : Option (Nat × Nat × Nat) :=
  o.node?.map fun n => (n.translation, n.rotation, n.scale)

theorem hidden_of_node? {α : Type} {f : NodeObject → α} (o : Object) (plain : o.IsPlain) :
    o.node?.map f = none := by
  cases o with
  | node => exact absurd rfl plain.1
  | _ => rfl

end Object

namespace Heap

variable {h h' : Heap} {ref : Nat} {n : NodeObject}

def parts (h : Heap) (ref : Nat) : List (Nat × Nat) :=
  (h.find Object.parts? ref).getD []

theorem find_node? {α : Type} (f : NodeObject → α) (read : h.node ref = .ok n) :
    h.find (fun o => o.node?.map f) ref = some (f n) := by
  obtain ⟨o, is, selected⟩ := Option.bind_eq_some_iff.1 (node_eq_ok.1 read)
  rw [find, is, Option.bind_some, selected, Option.map_some]

theorem find_parts? (read : h.node ref = .ok n) :
    h.find Object.parts? ref = some n.parts.toList :=
  find_node? (fun n => n.parts.toList) read

theorem parts_node (read : h.node ref = .ok n) : h.parts ref = n.parts.toList := by
  rw [parts, find_parts? read, Option.getD_some]

theorem has_of_mem_parts {part : Nat × Nat} (mem : part ∈ h.parts ref) : h.links.Has ref := by
  unfold parts find at mem
  rw [Links.Has, links, find]
  cases is : h.objects[ref]? with
  | none =>
    rw [is] at mem
    cases mem
  | some o =>
    cases o with
    | node n => rfl
    | _ =>
      rw [is] at mem
      cases mem

theorem kind?_eq_find (h : Heap) (ref : Nat) : h.kind? ref = h.find (fun o => some o.kind) ref := by
  unfold kind? find
  cases h.objects[ref]? <;> rfl

theorem kind?_addNode (h : Heap) (count : Nat) :
    (h.addNode count).kind? h.objects.size = some .vector ∧
      (h.addNode count).kind? (h.objects.size + 1) = some .vector ∧
      (h.addNode count).kind? (h.objects.size + 2) = some .vector := by
  simp [kind?_eq_find, find_addNode, Object.kind]

theorem kind?_material {m : MaterialObject} (read : h.material ref = .ok m) :
    h.kind? ref = some .material := by
  obtain ⟨o, is, selected⟩ := Option.bind_eq_some_iff.1 (material_eq_ok.1 read)
  rw [kind?, is]
  cases o <;> cases selected
  rfl

end Heap

theorem Edit.extends {limits : Limits} {onNode : Prop} {s s' : RunState} {deed : Option Deed}
    (edit : Edit limits onNode s deed s') : s.heap.Extends s'.heap := by
  cases edit with
  | refused | generated | misplaced | abandoned => exact .refl _
  | created =>
    exact ((Heap.extends_add _ _).trans (Heap.extends_add _ _)).trans
      ((Heap.extends_add _ _).trans (Heap.extends_add _ _))
  | placed => exact Heap.extends_modify (fun o => by cases o <;> rfl) _
  | attached =>
    exact (Heap.extends_modify (fun o => by cases o <;> rfl) _).trans
      (Heap.extends_modify (fun o => by cases o <;> rfl) _)
  | finished => exact Heap.extends_add _ _

theorem Change.extends {limits : Limits} {onNode : Prop} {s s' : RunState} {deed : Option Deed}
    (change : Change limits onNode s deed s') : s.heap.Extends s'.heap := by
  cases change with
  | minor minor =>
    intro ref k found
    obtain ⟨o, is, rfl⟩ := Heap.kind?_eq_some found
    obtain ⟨o', is', isMinor⟩ := minor.heap.kept is
    rw [Heap.kind?, is', Option.map_some, isMinor.kind]
  | edit edit => exact edit.extends

/-- The state holds what the deeds have built. -/
structure RunState.Built (deeds : List Deed) (s : RunState) : Prop where
  forested : s.Forested
  created : s.building.nodes.toList = Deed.createdIn deeds
  distinct : (Deed.createdIn deeds).Nodup
  parts : ∀ ref, s.heap.parts ref = Deed.placedOn ref deeds
  children : ∀ ref, s.heap.links.children ref = Deed.attachedTo ref deeds
  placed : ∀ {node part material : Nat}, .placed node part material ∈ deeds →
    part < s.building.meshes.size ∧ s.heap.kind? material = some .material
  vectors : ∀ {ref t r v : Nat}, s.heap.find Object.vectors? ref = some (t, r, v) →
    s.heap.kind? t = some .vector ∧ s.heap.kind? r = some .vector ∧ s.heap.kind? v = some .vector

namespace RunState.Built

variable {limits : Limits} {onNode : Prop} {s s' : RunState} {deeds : List Deed}
  {deed : Option Deed} {n : Nat}

theorem start (n : Nat) : (RunState.start n).Built [] where
  forested := .start n
  created := rfl
  distinct := List.nodup_nil
  parts _ := rfl
  children _ := rfl
  placed := nofun
  vectors := nofun

theorem mem_created (built : s.Built deeds) {ref : Nat} :
    ref ∈ Deed.createdIn deeds ↔ s.heap.links.Has ref := by
  rw [← built.created, built.forested.created]

theorem created_of_placed (built : s.Built deeds) {node part material : Nat}
    (mem : .placed node part material ∈ deeds) : node ∈ Deed.createdIn deeds := by
  have ofNode : (part, material) ∈ s.heap.parts node := by
    rw [built.parts, Deed.mem_placedOn]
    exact mem
  exact built.mem_created.2 (Heap.has_of_mem_parts ofNode)

section

variable (built : s.Built deeds) (change : Change limits onNode s deed s')

include built change

theorem placed_change {node part material : Nat}
    (meshes : s.building.meshes.size ≤ s'.building.meshes.size)
    (mem : .placed node part material ∈ deeds) :
    part < s'.building.meshes.size ∧ s'.heap.kind? material = some .material := by
  obtain ⟨known, kind⟩ := built.placed mem
  exact ⟨Nat.lt_of_lt_of_le known meshes, change.extends _ _ kind⟩

theorem vectors_change {ref t r v : Nat}
    (found : s.heap.find Object.vectors? ref = some (t, r, v)) :
    s'.heap.kind? t = some .vector ∧ s'.heap.kind? r = some .vector ∧
      s'.heap.kind? v = some .vector := by
  obtain ⟨kindT, kindR, kindV⟩ := built.vectors found
  exact ⟨change.extends _ _ kindT, change.extends _ _ kindR, change.extends _ _ kindV⟩

end

theorem quiet (built : s.Built deeds) (change : Change limits onNode s none s')
    (nodes : s'.building.nodes = s.building.nodes)
    (meshes : s.building.meshes.size ≤ s'.building.meshes.size)
    (same : ∀ {α : Type} {f : NodeObject → α}, (∀ n id, f { n with id } = f n) →
      ∀ ref, s'.heap.find (fun o => o.node?.map f) ref = s.heap.find (fun o => o.node?.map f) ref) :
    s'.Built deeds where
  forested := built.forested.change change
  created := by rw [nodes, built.created]
  distinct := built.distinct
  parts ref := by
    rw [← built.parts]
    have found : s'.heap.find Object.parts? ref = s.heap.find Object.parts? ref :=
      same (fun n id => rfl) ref
    rw [Heap.parts, found]
    rfl
  children ref := by
    have links : s'.heap.links ref = s.heap.links ref := same (fun n id => rfl) ref
    rw [← built.children, Links.children, links]
    rfl
  placed mem := built.placed_change change meshes mem
  vectors found := built.vectors_change change ((same (fun n id => rfl) _).symm.trans found)

theorem create (built : s.Built deeds)
    (change : Change limits onNode s (some (.created (s.heap.objects.size + 3))) s')
    (heap : s'.heap = s.heap.addNode s.building.nodes.size)
    (nodes : s'.building.nodes = s.building.nodes.push (s.heap.objects.size + 3))
    (meshes : s'.building.meshes = s.building.meshes) :
    s'.Built (deeds ++ [.created (s.heap.objects.size + 3)]) where
  forested := built.forested.change change
  created := by simp [nodes, built.created]
  distinct := by
    rw [Deed.createdIn_append]
    refine List.nodup_append.2 ⟨built.distinct, List.nodup_singleton _, fun ref mem new isNew => ?_⟩
    rintro rfl
    obtain rfl := List.mem_singleton.1 isNew
    -- An old node lies below the end of the heap, and the new one is put behind it.
    have has := built.mem_created.1 mem
    rw [Links.Has, Heap.links, Heap.find_size_le (Nat.le_add_right _ _)] at has
    cases has
  parts ref := by
    have parts : s'.heap.parts ref = s.heap.parts ref := by
      rw [Heap.parts, heap, Heap.find_addNode_of_vector fun _ => rfl]
      split
      · next new =>
        rw [new, Heap.parts, Heap.find_size_le (Nat.le_add_right _ _)]
        rfl
      · rfl
    simp [parts, built.parts]
  children ref := by
    have fresh : s.heap.links (s.heap.objects.size + 3) = none :=
      Heap.find_size_le (Nat.le_add_right _ _)
    simp [heap, Heap.links_addNode, Links.children_create fresh, built.children]
  placed mem := by
    have old := (List.mem_append.1 mem).resolve_right (by simp)
    exact built.placed_change change (Nat.le_of_eq (by rw [meshes])) old
  vectors {ref t r v} found := by
    rw [heap, Heap.find_addNode_of_vector fun _ => rfl] at found
    split at found
    · cases found
      rw [heap]
      exact Heap.kind?_addNode s.heap _
    · exact built.vectors_change change found

theorem place (built : s.Built deeds) {node part material : Nat} {n : NodeObject} {mesh : Mesh}
    {m : MaterialObject} (change : Change limits onNode s (some (.placed node part material)) s')
    (heap : s'.heap = s.heap.modifyNode node fun n =>
      { n with parts := n.parts.push (part, material) })
    (nodes : s'.building.nodes = s.building.nodes)
    (meshes : s'.building.meshes = s.building.meshes)
    (known : s.building.meshes[part]? = some mesh) (ofMaterial : s.heap.material material = .ok m)
    (read : s.heap.node node = .ok n) : s'.Built (deeds ++ [.placed node part material]) where
  forested := built.forested.change change
  created := by simp [nodes, built.created]
  distinct := by simpa using built.distinct
  parts ref := by
    have acts : s'.heap.find Object.parts? ref = if node = ref then
        (s.heap.find Object.parts? ref).map (· ++ [(part, material)])
        else s.heap.find Object.parts? ref := by
      rw [heap]
      exact Heap.find_modify fun o => by cases o <;> simp [Object.parts?, Object.node?]
    rw [Heap.parts, acts, Deed.placedOn_append, ← built.parts, Heap.parts]
    by_cases here : node = ref
    · subst here
      simp [Heap.find_parts? read]
    · simp [here]
  children ref := by
    have links : s'.heap.links ref = s.heap.links ref := by
      rw [heap]
      exact Heap.find_modifyNode_same fun n => rfl
    have children : s'.heap.links.children ref = s.heap.links.children ref := by
      rw [Links.children, links, Links.children]
    simp [children, built.children]
  placed mem := by
    rcases List.mem_append.1 mem with old | new
    · exact built.placed_change change (Nat.le_of_eq (by rw [meshes])) old
    · cases List.mem_singleton.1 new
      rw [meshes]
      exact ⟨(Array.getElem?_eq_some_iff.1 known).1,
        change.extends _ _ (Heap.kind?_material ofMaterial)⟩
  vectors {ref t r v} found := by
    have same : s'.heap.find Object.vectors? ref = s.heap.find Object.vectors? ref := by
      rw [heap]
      exact Heap.find_modifyNode_same fun n => rfl
    exact built.vectors_change change (same ▸ found)

theorem attach (built : s.Built deeds) {parent child : Nat}
    (change : Change limits onNode s (some (.attached parent child)) s')
    (heap : s'.heap = s.heap.attach parent child) (building : s'.building = s.building)
    (has : s.heap.links.Has parent) : s'.Built (deeds ++ [.attached parent child]) where
  forested := built.forested.change change
  created := by simp [building, built.created]
  distinct := by simpa using built.distinct
  parts ref := by
    have parts : s'.heap.parts ref = s.heap.parts ref := by
      rw [Heap.parts, heap, Heap.find_attach fun _ _ _ => rfl, Heap.parts]
    simp [parts, built.parts]
  children ref := by
    rw [heap, Heap.links_attach, Links.children_attach has, built.children]
    by_cases here : ref = parent
    · simp [here]
    · simp [here, Ne.symm here]
  placed mem := by
    have old := (List.mem_append.1 mem).resolve_right (by simp)
    exact built.placed_change change (Nat.le_of_eq (by rw [building])) old
  vectors {ref t r v} found := by
    rw [heap, Heap.find_attach fun _ _ _ => rfl] at found
    exact built.vectors_change change found

theorem change (built : s.Built deeds) (change : Change limits onNode s deed s') :
    s'.Built (deeds ++ deed.toList) := by
  have quiet (isNone : deed = none) := built.quiet (isNone ▸ change)
  have recorded := change
  cases change with
  | minor minor =>
    rw [Option.toList_none, List.append_nil]
    refine quiet rfl (congrArg Building.nodes minor.building) ?_ fun unnamed ref => ?_
    · rw [minor.building]
    · exact minor.heap.find Object.hidden_of_node? fun n id => congrArg some (unnamed n id)
  | edit edit =>
    cases edit with
    | generated =>
      rw [Option.toList_none, List.append_nil]
      refine quiet rfl rfl ?_ fun _ _ => rfl
      rw [Array.size_push]
      exact Nat.le_succ _
    | refused | misplaced | abandoned =>
      rw [Option.toList_none, List.append_nil]
      exact quiet rfl rfl (Nat.le_refl _) fun _ _ => rfl
    | finished =>
      rw [Option.toList_none, List.append_nil]
      exact quiet rfl rfl (Nat.le_refl _) fun _ ref => Heap.find_addModel rfl
    | created => exact built.create recorded rfl rfl rfl
    | placed _ known ofMaterial _ _ read =>
      exact built.place recorded rfl rfl rfl known ofMaterial read
    | attached _ _ _ ofAbove =>
      obtain ⟨n, read⟩ := Building.levelsAbove_ok ofAbove
      exact built.attach recorded rfl rfl (Heap.has_node read)

end RunState.Built

theorem Leads.built {limits : Limits} {n : Nat} {deeds : List Deed} {s : RunState}
    (leads : Leads limits (.start n) deeds s) : s.Built deeds :=
  leads.induct (P := fun deeds s => s.Built deeds) (.start n)
    fun _ _ _ _ _ built change => built.change change

end SceneScript
