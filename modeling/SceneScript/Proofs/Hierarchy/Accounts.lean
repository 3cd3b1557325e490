import SceneScript.Proofs.Hierarchy.Copies
import SceneScript.Proofs.Machine.Edits

/-!
# The accounts of a builder

A builder counts the parts that are placed and the vertices of all its meshes, generated and placed,
ahead of what it counts. `RunState.Tallied` relates its counters to the deeds so far; every change
keeps it (`Tallied.change`), except that a part which is placed on no node is counted all the same.
-/

namespace SceneScript

open Building Run

structure Model.Within (limits : Limits) (m : Model) : Prop where
  nodes : m.nodeCount ≤ limits.maxNodes
  parts : m.partCount ≤ limits.maxParts
  vertices : m.vertexCount ≤ limits.maxVertices

namespace Building

def generatedVertices (b : Building) : Nat :=
  (b.meshes.toList.map Mesh.vertexCount).sum

def placedVertices (b : Building) (parts : List (Nat × Nat)) : Nat :=
  (parts.map fun part => b.meshes[part.1]?.elim 0 Mesh.vertexCount).sum

variable {b : Building} {parts more : List (Nat × Nat)} {mesh : Mesh}

theorem placedVertices_append :
    b.placedVertices (parts ++ more) = b.placedVertices parts + b.placedVertices more := by
  rw [placedVertices, List.map_append, List.sum_append_nat, placedVertices, placedVertices]

theorem placedVertices_congr {b' : Building} (same : b'.meshes = b.meshes) :
    b'.placedVertices parts = b.placedVertices parts := by
  rw [placedVertices, same, placedVertices]

theorem generatedVertices_push {vertices : Nat} :
    generatedVertices { b with meshes := b.meshes.push mesh, vertices } =
      b.generatedVertices + mesh.vertexCount := by
  rw [generatedVertices, Array.toList_push, List.map_append, List.sum_append_nat,
    List.map_singleton, List.sum_singleton, generatedVertices]

theorem placedVertices_push {vertices : Nat} (known : ∀ part ∈ parts, part.1 < b.meshes.size) :
    placedVertices { b with meshes := b.meshes.push mesh, vertices } parts =
      b.placedVertices parts := by
  refine congrArg List.sum (List.map_congr_left fun part mem => ?_)
  rw [Array.getElem?_push, if_neg (Nat.ne_of_lt (known part mem))]

theorem finishNode_ne_unknownPart {h : Heap} {meshes : Array Mesh}
    (known : ∀ ref, ∀ part ∈ h.parts ref, part.1 < meshes.size) {fuel ref : Nat} {part : Int} :
    finishNode h meshes fuel ref ≠ .error (.unknownPart part) := by
  induction fuel generalizing ref with
  | zero => exact nofun
  | succ fuel ih =>
    cases read : h.node ref with
    | error cause =>
      rw [finishNode, read]
      rintro ⟨⟩
      cases Heap.node_illTyped read
    | ok n =>
      rw [finishNode_succ read]
      refine finishWith_ne_error rfl nofun (fun part mem missing => ?_)
        (mapM_ne_error fun c _ => ih)
      rw [← Heap.parts_node read] at mem
      have bound := known ref part mem
      exact absurd (Array.getElem?_eq_none_iff.1 missing) (Nat.not_le.2 bound)

end Building

/-! ## Counters -/

/-- The counters of the builder are within the limits and agree with the deeds, and so do the models
that it has made. -/
structure RunState.Tallied (limits : Limits) (deeds : List Deed) (s : RunState) : Prop where
  meshes : s.building.meshes.size ≤ limits.maxParts
  nodes : s.building.nodes.size ≤ limits.maxNodes
  placements : s.building.placements ≤ limits.maxParts
  vertices : s.building.vertices ≤ limits.maxVertices
  placed : s.building.placements = (Deed.placedIn deeds).length
  counted : s.building.vertices =
    s.building.generatedVertices + s.building.placedVertices (Deed.placedIn deeds)
  models : ∀ {ref : Nat} {m : Model}, s.heap.find Object.model? ref = some m → m.Within limits

namespace RunState.Tallied

variable {limits : Limits} {onNode : Prop} {s s' : RunState} {deeds : List Deed}
  {deed : Option Deed}

theorem start (limits : Limits) (n : Nat) : (RunState.start n).Tallied limits [] where
  meshes := Nat.zero_le _
  nodes := Nat.zero_le _
  placements := Nat.zero_le _
  vertices := Nat.zero_le _
  placed := rfl
  counted := rfl
  models := nofun

theorem within (tallied : s.Tallied limits deeds) (built : s.Built deeds) {roots : List ModelNode}
    (finished : finishRoots s.heap s.building.meshes s.building.nodes.toList = .ok roots) :
    Model.Within limits ⟨s.nextModel, roots⟩ := by
  have isBuilt := Model.isBuilt built finished
  refine ⟨?_, ?_, ?_⟩
  · rw [isBuilt.nodeCount, ← built.created]
    exact tallied.nodes
  · rw [isBuilt.partCount, ← tallied.placed]
    exact tallied.placements
  · have placed : Model.vertexCount ⟨s.nextModel, roots⟩ =
        s.building.placedVertices (Deed.placedIn deeds) := isBuilt.vertexCount
    have counted := tallied.counted
    have vertices := tallied.vertices
    omega

theorem models_change (tallied : s.Tallied limits deeds) (built : s.Built deeds)
    (change : Change limits onNode s deed s') {ref : Nat} {m : Model}
    (found : s'.heap.find Object.model? ref = some m) : m.Within limits := by
  obtain ⟨-, same⟩ | ⟨roots, finished, -, heap⟩ := change.models
  · rw [same] at found
    exact tallied.models found
  · rw [heap, Heap.find_add] at found
    split at found
    · cases found
      exact tallied.within built finished
    · exact tallied.models found

theorem same (tallied : s.Tallied limits deeds) (more : List Deed)
    (unplaced : Deed.placedIn more = []) (meshes : s'.building.meshes = s.building.meshes)
    (nodes : s'.building.nodes.size ≤ limits.maxNodes)
    (vertices : s'.building.vertices = s.building.vertices)
    (placements : s'.building.placements = s.building.placements)
    (models : ∀ {ref : Nat} {m : Model}, s'.heap.find Object.model? ref = some m →
      m.Within limits) : s'.Tallied limits (deeds ++ more) where
  meshes := meshes ▸ tallied.meshes
  nodes := nodes
  placements := placements ▸ tallied.placements
  vertices := vertices ▸ tallied.vertices
  placed := by rw [placements, tallied.placed, Deed.placedIn_append, unplaced, List.append_nil]
  counted := by
    rw [vertices, tallied.counted, Deed.placedIn_append, unplaced, List.append_nil,
      placedVertices_congr meshes, generatedVertices, generatedVertices, meshes]
  models := models

theorem change (fit : Primitive.CountsFit limits.maxDivisions) (tallied : s.Tallied limits deeds)
    (built : s.Built deeds) (aimed : onNode) (change : Change limits onNode s deed s') :
    s'.Tallied limits (deeds ++ deed.toList) := by
  have models {ref : Nat} {m : Model} (found : s'.heap.find Object.model? ref = some m) :
      m.Within limits :=
    tallied.models_change built change found
  have nodes := tallied.nodes
  cases change with
  | minor minor =>
    have building := minor.building
    exact tallied.same [] rfl (by rw [building]) (by rwa [building]) (by rw [building])
      (by rw [building]) models
  | edit edit =>
    cases edit with
    | refused | abandoned | finished => exact tallied.same [] rfl rfl nodes rfl rfl models
    | attached => exact tallied.same [_] rfl rfl nodes rfl rfl models
    | created _ room =>
      refine tallied.same [_] rfl rfl ?_ rfl rfl models
      rw [Array.size_push]
      exact room
    | @generated mesh count sized _ room fits =>
      have known : ∀ part ∈ Deed.placedIn deeds, part.1 < s.building.meshes.size := by
        intro part mem
        obtain ⟨node, placed⟩ := Deed.mem_placedIn.1 mem
        exact (built.placed placed).1
      rw [Option.toList_none, List.append_nil]
      refine { tallied with
        meshes := ?_, nodes := nodes, vertices := fits, counted := ?_, models := models }
      · rw [Array.size_push]
        exact room
      -- The count was predicted before the mesh was generated.
      · rw [placedVertices_push known, generatedVertices_push, ← sized.vertexCount fit,
          Nat.add_right_comm, ← tallied.counted]
    | @placed node part material n mesh m _ known _ room fits =>
      refine { tallied with
        nodes := nodes, placements := room, vertices := fits, placed := ?_, counted := ?_
        models := models }
      · rw [tallied.placed, Option.toList_some, Deed.placedIn_append, Deed.placedIn_placed,
          List.length_append, List.length_singleton]
      · have more : s.building.placedVertices [(part, material)] = mesh.vertexCount := by
          rw [placedVertices, List.map_singleton, List.sum_singleton, known, Option.elim_some]
        rw [tallied.counted, Option.toList_some, Deed.placedIn_append, Deed.placedIn_placed,
          Nat.add_assoc, ← more, ← placedVertices_append]
        rfl
    | misplaced astray => exact absurd aimed astray

end RunState.Tallied

/-! ## Accounts -/

/-- The counters of a builder are within the limits, and they are what the meshes and the parts of
all nodes come to. Every part is a mesh with a material, so that the hierarchy can be converted, and
the models that were made are within the limits too. -/
structure RunState.Accounts (limits : Limits) (s : RunState) : Prop where
  meshes : s.building.meshes.size ≤ limits.maxParts
  nodes : s.building.nodes.size ≤ limits.maxNodes
  placements : s.building.placements ≤ limits.maxParts
  vertices : s.building.vertices ≤ limits.maxVertices
  all : ∀ ref, ref ∈ s.building.nodes.toList ↔ ∃ n, s.heap.node ref = .ok n
  once : s.building.nodes.toList.Nodup
  placed : s.building.placements =
    (s.building.nodes.toList.map fun ref => (s.heap.parts ref).length).sum
  counted : s.building.vertices = s.building.generatedVertices +
    (s.building.nodes.toList.map fun ref => s.building.placedVertices (s.heap.parts ref)).sum
  parts : ∀ ref part material, (part, material) ∈ s.heap.parts ref →
    part < s.building.meshes.size ∧ ∃ m, s.heap.material material = .ok m
  models : ∀ ref m, s.heap.model ref = .ok m → m.Within limits
  converts : ∀ part, finishRoots s.heap s.building.meshes s.building.nodes.toList ≠
    .error (.unknownPart part)

theorem RunState.Tallied.accounts {limits : Limits} {s : RunState} {deeds : List Deed}
    (tallied : s.Tallied limits deeds) (built : s.Built deeds) : s.Accounts limits := by
  -- The parts that hang on the nodes are those placed, in another order.
  have onNodes : (s.building.nodes.toList.flatMap s.heap.parts).Perm (Deed.placedIn deeds) := by
    rw [funext built.parts, built.created]
    exact Deed.flatMap_placedOn built.distinct built.created_of_placed
  have parts (ref part material : Nat) (mem : (part, material) ∈ s.heap.parts ref) :
      part < s.building.meshes.size ∧ ∃ m, s.heap.material material = .ok m := by
    rw [built.parts] at mem
    obtain ⟨known, kind⟩ := built.placed (Deed.mem_placedOn.1 mem)
    exact ⟨known, Heap.material_ok kind⟩
  have converts (part : Int) (fuel ref : Nat) :
      finishNode s.heap s.building.meshes fuel ref ≠ .error (.unknownPart part) :=
    finishNode_ne_unknownPart fun ref placed mem => (parts ref placed.1 placed.2 mem).1
  have nodes : ∀ ref ∈ s.building.nodes.toList, s.heap.links.Has ref :=
    fun ref mem => built.forested.created.1 mem
  exact {
    meshes := tallied.meshes
    nodes := tallied.nodes
    placements := tallied.placements
    vertices := tallied.vertices
    all := fun ref => built.forested.created.trans
      ⟨Heap.node_of_has, fun ⟨n, read⟩ => Heap.has_node read⟩
    once := built.created ▸ built.distinct
    placed := by rw [tallied.placed, ← onNodes.length_eq, List.length_flatMap]
    counted := by
      rw [tallied.counted, placedVertices, ← (onNodes.map _).sum_eq, List.map_flatMap,
        List.flatMap_def, List.sum_flatten, List.map_map]
      rfl
    parts := parts
    models := fun ref m found => tallied.models (Heap.model_eq_ok.1 found)
    converts := fun part => by
      rw [finishRoots_eq nodes]
      exact mapM_ne_error fun ref _ => converts part maxLevels ref }

end SceneScript
