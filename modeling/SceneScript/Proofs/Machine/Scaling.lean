import SceneScript.Proofs.Machine.Calls
import SceneScript.Proofs.Machine.Metered
import SceneScript.Proofs.Machine.Plain

/-!
# Programs under other limits

Every call, and so every run of a program, gives under roomier limits what it gives under tighter
ones (`Program.scales_run`).
-/

namespace SceneScript

open Run

variable {low high : Limits}

theorem Run.Plain.scales {α : Type} {paid : Nat} {run : Run α} (roomier : low.Roomier high)
    (plain : Plain paid run) : Scales low high run run := by
  induction plain with
  | pure a => exact .pure a
  | fault => exact .fault
  | seq _ _ first rest => exact first.bind rest
  | heap same _ rest => exact .heap fun h h' alike => same h h' alike ▸ rest h
  | building _ rest => exact .building rest
  | roomy _ rest =>
    refine .limits (.guard (fun fits => ?_) rest)
    exact Nat.not_le.2 (Nat.lt_of_lt_of_le (Nat.not_le.1 fits) roomier.arrayLen)
  | charge _ rest => exact (Scales.charge roomier _).bind fun _ => rest
  | string s => exact .string roomier s
  | alloc => exact .alloc roomier _
  | modify ref adds =>
    refine .modifyHeap fun h h' alike => alike.modify ref ?_
    intro o o' same
    exact Object.Minor.alike adds.minor same

/-! ## Building -/

namespace Building

variable {h h' : Heap}

theorem levelsAbove_alike (alike : h.Alike h') (child : Nat) :
    levelsAbove h child = levelsAbove h' child := by
  funext levels
  induction levels with
  | zero => rfl
  | succ levels ih =>
    funext ref
    rw [levelsAbove, levelsAbove, alike.node, ih]

theorem levelsBelow_alike (alike : h.Alike h') : levelsBelow h = levelsBelow h' := by
  funext levels
  induction levels with
  | zero => rfl
  | succ levels ih =>
    funext ref
    rw [levelsBelow, levelsBelow, alike.node, ih]

theorem finishPart_alike (alike : h.Alike h') (meshes : Array Mesh) :
    finishPart h meshes = finishPart h' meshes := by
  funext part
  rw [finishPart, finishPart, alike.material]

theorem finishNode_alike (alike : h.Alike h') (meshes : Array Mesh) :
    finishNode h meshes = finishNode h' meshes := by
  funext levels
  induction levels with
  | zero => rfl
  | succ levels ih =>
    funext ref
    rw [finishNode, finishNode, alike.node, ih, finishPart_alike alike]
    simp only [finishTransform, alike.vector]

theorem finishRoots_alike (alike : h.Alike h') (meshes : Array Mesh) (refs : List Nat) :
    finishRoots h meshes refs = finishRoots h' meshes refs := by
  induction refs with
  | nil => rfl
  | cons ref rest ih => rw [finishRoots, finishRoots, alike.node, finishNode_alike alike, ih]

theorem modifyNode_alike (alike : h.Alike h') (ref : Nat) (f : NodeObject → NodeObject) :
    (h.modifyNode ref f).Alike (h'.modifyNode ref f) :=
  alike.modify ref fun _ _ same => by
    cases same with
    | refl => exact .refl _
    | model roots => exact .model roots

theorem scales_ensureOpen : Scales low high ensureOpen ensureOpen := by
  refine .building fun b => ?_
  split
  · exact .fault
  · exact .pure ()

theorem scales_dimension (what : Dimension) (v : Value) :
    Scales low high (dimension what v) (dimension what v) :=
  (Scales.lift v.asFloat).bind fun _ => .guard id (.pure _)

theorem scales_divisions (roomier : low.Roomier high) (v : Value) :
    Scales low high (divisions v) (divisions v) := by
  refine (Scales.lift v.asInt).bind fun n => .limits (.guard (fun fits => ?_) (.pure _))
  have more := roomier.divisions
  omega

theorem scales_reserve (roomier : low.Roomier high) (count : Nat) :
    Scales low high (reserve count) (reserve count) := by
  refine .building fun b => .limits (.guard (fun fits => ?_) (.modifyBuilding _))
  exact Nat.not_lt.2 (Nat.le_trans (Nat.not_lt.1 fits) roomier.vertices)

theorem scales_generate (roomier : low.Roomier high) (name : String) (args : List Value) :
    Scales low high (generate name args) (generate name args) := by
  have reserved (count : Nat) (mesh : Mesh) : Scales low high
      (reserve count >>= fun _ => pure mesh) (reserve count >>= fun _ => pure mesh) :=
    (scales_reserve roomier count).bind fun _ => .pure mesh
  unfold generate
  split
  · exact (scales_dimension _ _).bind fun w => (scales_dimension _ _).bind fun h =>
      (scales_dimension _ _).bind fun d => reserved _ _
  · exact (scales_dimension _ _).bind fun r => (scales_divisions roomier _).bind fun n =>
      reserved _ _
  · exact (scales_dimension _ _).bind fun r => (scales_dimension _ _).bind fun h =>
      (scales_divisions roomier _).bind fun n => reserved _ _
  · exact (scales_dimension _ _).bind fun r => (scales_dimension _ _).bind fun h =>
      (scales_divisions roomier _).bind fun n => reserved _ _
  · exact (scales_dimension _ _).bind fun w => (scales_dimension _ _).bind fun d => reserved _ _
  · exact .fault

theorem scales_primitive (roomier : low.Roomier high) (name : String) (args : List Value) :
    Scales low high (primitive name args) (primitive name args) := by
  refine scales_ensureOpen.bind fun _ => .limits (.building fun b => .guard (fun fits => ?_) ?_)
  · exact Nat.not_le.2 (Nat.lt_of_lt_of_le (Nat.not_le.1 fits) roomier.parts)
  · refine (scales_generate roomier name args).bind fun mesh => .building fun b => ?_
    exact (Scales.modifyBuilding _).bind fun _ => .pure _

theorem scales_newNode (roomier : low.Roomier high) : Scales low high newNode newNode := by
  have added (o : Object) : Scales low high (addObject o) (addObject o) := .addObject (.refl o)
  refine scales_ensureOpen.bind fun _ => .limits (.building fun b => .guard (fun fits => ?_) ?_)
  · exact Nat.not_le.2 (Nat.lt_of_lt_of_le (Nat.not_le.1 fits) roomier.nodes)
  · refine (added _).bind fun translation => (added _).bind fun rotation => ?_
    refine (added _).bind fun scale => (added _).bind fun ref => ?_
    exact (Scales.modifyBuilding _).bind fun _ => .pure _

theorem scales_placePart (roomier : low.Roomier high) (node : Nat) (part material : Value) :
    Scales low high (placePart node part material) (placePart node part material) := by
  refine scales_ensureOpen.bind fun _ => (Scales.lift part.asInt).bind fun id => ?_
  refine .building fun b => ?_
  split
  · refine (Scales.lift _).bind fun ref => .heap fun h h' alike => ?_
    rw [alike.material]
    refine (Scales.lift _).bind fun _ => .limits (.building fun b => .guard (fun fits => ?_) ?_)
    · exact Nat.not_le.2 (Nat.lt_of_lt_of_le (Nat.not_le.1 fits) roomier.parts)
    · refine (scales_reserve roomier _).bind fun _ => (Scales.modifyBuilding _).bind fun _ => ?_
      refine .heap fun h h' alike => ?_
      rw [alike.node]
      exact (Scales.lift _).bind fun _ => .modifyHeap fun _ _ alike => modifyNode_alike alike _ _
  · exact .fault

theorem scales_attach (parent : Nat) (child : Value) :
    Scales low high (attach parent child) (attach parent child) := by
  refine scales_ensureOpen.bind fun _ => (Scales.lift _).bind fun ref => ?_
  refine .heap fun h h' alike => ?_
  rw [alike.node]
  refine (Scales.lift _).bind fun n => .guard id (.heap fun h h' alike => ?_)
  rw [levelsAbove_alike alike]
  refine (Scales.lift _).bind fun above => .heap fun h h' alike => ?_
  rw [levelsBelow_alike alike]
  refine (Scales.lift _).bind fun below => .guard id ?_
  exact (Scales.modifyHeap fun _ _ alike => modifyNode_alike alike _ _).bind fun _ =>
    .modifyHeap fun _ _ alike => modifyNode_alike alike _ _

theorem scales_finish : Scales low high finish finish := by
  refine scales_ensureOpen.bind fun _ => (Scales.modifyBuilding _).bind fun _ => ?_
  refine .building fun b => .heap fun h h' alike => ?_
  rw [finishRoots_alike alike]
  refine (Scales.lift _).bind fun roots => ?_
  -- The models get different ids, so they are compared where both ids are known.
  let count : Run Unit := modify fun s => { s with nextModel := s.nextModel + 1 }
  let store (id : Nat) : Run Value := do return .object (← addObject (.model ⟨id, roots⟩))
  have counts : Scales low high count count :=
    Meter.Scales.modify (m := meter high) (fun _ => rfl) fun _ _ alike =>
      ⟨alike.heap, alike.building, alike.steps, alike.heapBytes⟩
  have stores (id id' : Nat) : Scales low high (store id) (store id') :=
    have alike : (Object.model ⟨id, roots⟩).Alike (.model ⟨id', roots⟩) := .model rfl
    (Scales.addObject alike).bind fun _ => .pure _
  refine Meter.Scales.of_states (fun s s' _ => ?_) .refl
  exact ⟨_, _, counts.bind fun _ => stores s.nextModel s'.nextModel, rfl, rfl⟩

end Building

/-! ## Calls -/

theorem Native.scales_rename (roomier : low.Roomier high) (receiver value : Value) :
    Scales low high
      (do nodeSet "id" receiver value; return Value.void)
      (do nodeSet "id" receiver value; return Value.void) := by
  rw [nodeSet_id]
  refine Scales.bind ?_ fun _ => .pure _
  refine (Scales.lift _).bind fun id => (Scales.charge roomier _).bind fun _ => ?_
  refine (Scales.lift _).bind fun ref => .heap fun h h' alike => ?_
  rw [alike.node]
  exact (Scales.lift _).bind fun _ => .modifyHeap fun _ _ alike =>
    Building.modifyNode_alike alike _ _

theorem Call.Builds.scales (roomier : low.Roomier high) {c : Call} {run : Run Value}
    (builds : c.Builds run) : Scales low high run run := by
  cases builds with
  | generate => exact Building.scales_primitive roomier _ _
  | node => exact Building.scales_newNode roomier
  | part | addPart =>
    exact (Scales.lift _).bind fun node => (Building.scales_placePart roomier node _ _).bind
      fun _ => .pure _
  | finish => exact Building.scales_finish
  | addChild =>
    exact (Scales.lift _).bind fun parent => (Building.scales_attach parent _).bind fun _ => .pure _

theorem Call.scales (roomier : low.Roomier high) (c : Call) : Scales low high c.run c.run := by
  have does := c.does
  generalize c.run = run at does ⊢
  cases does with
  | plain _ plain => exact plain.scales roomier
  | text => exact (Scales.display roomier _).bind fun s => .string roomier s
  | rename => exact Native.scales_rename roomier _ _
  | builds builds => exact builds.scales roomier

theorem Run.Composed.scales {α : Type} {P : Position → Prop} {run : Run α}
    (roomier : low.Roomier high) (composed : Composed P run) : Scales low high run run := by
  induction composed with
  | pure a => exact .pure a
  | fault => exact .fault
  | bind _ _ first rest => exact first.bind rest
  | located _ _ inner => exact inner.located
  | tick => exact .tick
  | display v => exact .display roomier v
  | string s => exact .string roomier s
  | call c => exact c.scales roomier

end SceneScript
