import SceneScript.Proofs.Hierarchy.Finishing
import SceneScript.Proofs.Invocation

/-!
# The hierarchy in every state

Every change keeps the hierarchy of nodes a forest of at most `maxLevels` levels, whose nodes are
those that were created.
-/

namespace SceneScript

/-! ## Changes -/

namespace Heap

theorem links_minor {h h' : Heap} (minor : h.Minor h') : h'.links = h.links := by
  funext ref
  refine minor.find (fun o plain => ?_) fun n id => rfl
  cases o with
  | node => exact absurd rfl plain.1
  | _ => rfl

theorem links_attach (h : Heap) (parent child : Nat) :
    (h.attach parent child).links = h.links.attach parent child := by
  funext ref
  rw [links_eq, attach, find_modifyNode, find_modifyNode, Links.attach, links_eq]
  cases h.find Object.node? ref with
  | none => simp
  | some n =>
    by_cases isChild : child = ref <;> by_cases isParent : parent = ref <;>
      simp [NodeObject.link, isChild, isParent, eq_comm]

theorem links_addNode (h : Heap) (count : Nat) :
    (h.addNode count).links = h.links.create (h.objects.size + 3) := by
  funext ref
  rw [links, find_addNode_of_vector fun _ => rfl]
  rfl

theorem links_addModel (h : Heap) (m : Model) : (h.add (.model m)).2.links = h.links :=
  funext fun _ => find_addModel rfl

theorem find_model_minor {h h' : Heap} (minor : h.Minor h') (ref : Nat) :
    h'.find Object.model? ref = h.find Object.model? ref := by
  refine minor.find (fun o plain => ?_) fun n id => rfl
  cases o with
  | model => exact absurd rfl plain.2
  | _ => rfl

end Heap

theorem Change.models {limits : Limits} {onNode : Prop} {s s' : RunState} {deed : Option Deed}
    (change : Change limits onNode s deed s') :
    (s'.nextModel = s.nextModel ∧
      ∀ ref, s'.heap.find Object.model? ref = s.heap.find Object.model? ref) ∨
    ∃ roots, Building.finishRoots s.heap s.building.meshes s.building.nodes.toList = .ok roots ∧
      s'.nextModel = s.nextModel + 1 ∧ s'.heap = (s.heap.add (.model ⟨s.nextModel, roots⟩)).2 := by
  cases change with
  | minor minor => exact .inl ⟨minor.nextModel, Heap.find_model_minor minor.heap⟩
  | edit edit =>
    cases edit with
    | refused | generated | misplaced | abandoned => exact .inl ⟨rfl, fun _ => rfl⟩
    | created =>
      refine .inl ⟨rfl, fun ref => ?_⟩
      rw [Heap.find_addNode_of_vector fun _ => rfl]
      split
      · next new =>
        rw [new, Heap.find_size_le (Nat.le_add_right _ _)]
        rfl
      · rfl
    | placed => exact .inl ⟨rfl, fun ref => Heap.find_modifyNode_same fun n => rfl⟩
    | attached => exact .inl ⟨rfl, fun ref => Heap.find_attach fun _ _ _ => rfl⟩
    | @finished roots _ made => exact .inr ⟨roots, made, rfl, rfl⟩

/-- The hierarchy is a forest of the created nodes, and so are the models that are already made. -/
structure RunState.Forested (s : RunState) : Prop where
  forest : s.heap.links.IsForest maxLevels
  created : ∀ {ref : Nat}, ref ∈ s.building.nodes.toList ↔ s.heap.links.Has ref
  models : ∀ {ref : Nat} {m : Model}, s.heap.find Object.model? ref = some m →
    ∀ root ∈ m.roots, root.levels ≤ maxLevels

namespace RunState.Forested

variable {limits : Limits} {onNode : Prop} {s s' : RunState} {deed : Option Deed} {n : Nat}

theorem start (n : Nat) : (RunState.start n).Forested where
  forest := Links.isForest_empty maxLevels
  created := ⟨nofun, nofun⟩
  models := nofun

theorem change_links (forested : s.Forested) (change : Change limits onNode s deed s') :
    s'.heap.links.IsForest maxLevels ∧
      ∀ ref, ref ∈ s'.building.nodes.toList ↔ s'.heap.links.Has ref := by
  have same (links : s'.heap.links = s.heap.links) (nodes : s'.building.nodes = s.building.nodes) :
      s'.heap.links.IsForest maxLevels ∧
        ∀ ref, ref ∈ s'.building.nodes.toList ↔ s'.heap.links.Has ref := by
    rw [links, nodes]
    exact ⟨forested.forest, fun ref => forested.created⟩
  cases change with
  | minor minor =>
    exact same (Heap.links_minor minor.heap) (congrArg Building.nodes minor.building)
  | edit edit =>
    cases edit with
    | refused | generated | misplaced | abandoned => exact same rfl rfl
    | created =>
      rw [Heap.links_addNode]
      have fresh : s.heap.links (s.heap.objects.size + 3) = none :=
        Heap.find_size_le (Nat.le_add_right _ _)
      refine ⟨forested.forest.create fresh (by decide), fun ref => ?_⟩
      rw [Links.has_create, ← forested.created]
      simp [or_comm]
    | placed => exact same (funext fun ref => Heap.find_modifyNode_same fun n => rfl) rfl
    | attached _ read free ofAbove ofBelow room =>
      rw [Heap.links_attach]
      refine ⟨Building.isForest_attach forested.forest read free ofAbove ofBelow room,
        fun ref => ?_⟩
      rw [Links.has_attach]
      exact forested.created
    | finished => exact same (Heap.links_addModel _ _) rfl

theorem change (forested : s.Forested) (change : Change limits onNode s deed s') : s'.Forested := by
  obtain ⟨forest, created⟩ := forested.change_links change
  refine ⟨forest, created _, fun {ref m} found => ?_⟩
  obtain ⟨-, same⟩ | ⟨roots, made, -, heap⟩ := change.models
  · rw [same] at found
    exact forested.models found
  · rw [heap, Heap.find_add] at found
    split at found
    · cases found
      have nodes : ∀ ref ∈ s.building.nodes.toList, s.heap.links.Has ref :=
        fun ref mem => forested.created.1 mem
      exact Building.levels_finishRoots forested.forest nodes made
    · exact forested.models found

end RunState.Forested

theorem Leads.forested {limits : Limits} {n : Nat} {deeds : List Deed} {s : RunState}
    (leads : Leads limits (.start n) deeds s) : s.Forested :=
  leads.induct (P := fun _ s => s.Forested) (.start n)
    fun _ _ _ _ _ forested change => forested.change change

/-! ## Two nodes -/

def RunState.pair : RunState where
  heap := ⟨#[.builder,
    .vector .zero, .vector .zero, .vector .one, .node ⟨"node0", 1, 2, 3, #[], #[8], none⟩,
    .vector .zero, .vector .zero, .vector .one, .node ⟨"node1", 5, 6, 7, #[], #[], some 4⟩]⟩
  building := ⟨#[], #[4, 8], 0, 0, false⟩
  steps := 0
  heapBytes := 0
  nextModel := 0

theorem Leads.pair :
    Leads {} (.start 0) [.created 4, .created 8, .attached 4 8] RunState.pair := by
  have onBuilder : Leads {} (.start 0) [] _ := .builder .start rfl
  have one := onBuilder.call (.method .modelBuilder "node" (.object 0) []) (v := .object 4) rfl
  have two := one.call (.method .modelBuilder "node" (.object 0) []) (v := .object 8) rfl
  exact two.call (.method .node "addChild" (.object 4) [.object 8]) (v := .void) rfl

end SceneScript

/-!
## Nodes make up a forest

Whatever is called on builders, nodes and everything else, in whatever order and with whatever
arguments, and whichever calls fail: parents and children agree, no node is a child twice, and the
way up from every node ends after at most `maxLevels` nodes (`Leads.nodes_forest`). So walks through
the hierarchy end by themselves, and finished models have at most `maxLevels` levels.
-/

namespace SceneScript

open Building

/-- Walks from a node, whose way up is the given path, end by themselves. The levels left to them
do not matter once they are as many as the hierarchy can have there. -/
structure Heap.WalksEnd (h : Heap) (ref : Nat) (path : List Nat) : Prop where
  above : ∀ child fuel, path.length ≤ fuel →
    levelsAbove h child fuel ref = if child ∈ path then .error .cycle else .ok path.length
  below : ∃ below, path.length + below ≤ maxLevels ∧
    ∀ fuel, maxLevels < path.length + fuel → levelsBelow h fuel ref = .ok below
  copy : ∀ meshes fuel, maxLevels < path.length + fuel →
    finishNode h meshes fuel ref = finishNode h meshes maxLevels ref
  whole : ∀ meshes, finishNode h meshes maxLevels ref ≠ .error .levelLimit
  fits : ∀ meshes m, finishNode h meshes maxLevels ref = .ok m →
    path.length + m.levels ≤ maxLevels + 1

theorem Heap.walksEnd {h : Heap} {ref : Nat} {path : List Nat}
    (forest : h.links.IsForest maxLevels) (ascent : h.links.Ascent ref path) :
    h.WalksEnd ref path where
  above _ _ enough := levelsAbove_eq ascent enough
  below := by
    obtain ⟨below, fits, counted, -⟩ := levelsBelow_eq forest ascent
    exact ⟨below, fits, counted⟩
  copy _ _ enough := finishNode_eq forest ascent enough
  whole _ := finishNode_ne_levelLimit forest ascent
  fits _ _ finished := levels_finishNode forest ascent finished

theorem Leads.nodes_forest {limits : Limits} {n : Nat} {deeds : List Deed} {s : RunState}
    (leads : Leads limits (.start n) deeds s) :
    (∀ parent child, child ∈ s.heap.links.children parent ↔
      s.heap.links.parent? child = some parent) ∧
    ((List.range s.heap.size).flatMap s.heap.links.children).Nodup ∧
    (∀ ref node, s.heap.node ref = .ok node → ∃ path, s.heap.links.Ascent ref path ∧
      path.Nodup ∧ path.length ≤ maxLevels ∧ s.heap.WalksEnd ref path) ∧
    ∀ ref m, s.heap.model ref = .ok m → ∀ root ∈ m.roots, root.levels ≤ maxLevels := by
  have forested := leads.forested
  have forest := forested.forest
  refine ⟨forest.agree, forest.nodup_flatMap List.nodup_range, fun ref node read => ?_,
    fun ref m found => forested.models (Heap.model_eq_ok.1 found)⟩
  obtain ⟨path, ascent, short⟩ := forest.rooted ref (Heap.has_node read)
  exact ⟨path, ascent, ascent.nodup, short, Heap.walksEnd forest ascent⟩

theorem Leads.nodes_forest_pair :
    Leads {} (.start 0) [.created 4, .created 8, .attached 4 8] .pair ∧
      RunState.pair.heap.WalksEnd 8 [8, 4] := by
  obtain ⟨-, -, walks, -⟩ := Leads.nodes_forest Leads.pair
  obtain ⟨path, ascent, -, -, ends⟩ := walks 8 _ rfl
  have known : RunState.pair.heap.links.Ascent 8 [8, 4] := .step rfl (.root rfl rfl)
  exact ⟨Leads.pair, ascent.unique known ▸ ends⟩

theorem Loaded.levels_invoke {loaded : Loaded} {limits : Limits} {n : Nat} {m : Model}
    (given : (loaded.invoke limits n).result = .ok m) :
    ∀ root ∈ m.roots, root.levels ≤ maxLevels := by
  obtain ⟨deeds, s, leads, -, gives⟩ := loaded.leads_invoke limits n
  obtain ⟨ref, found⟩ := gives m given
  exact leads.forested.models (Heap.model_eq_ok.1 found)

end SceneScript
