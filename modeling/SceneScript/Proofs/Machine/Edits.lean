import SceneScript.Proofs.Geometry.Meshes
import SceneScript.Proofs.Machine.Calls
import SceneScript.Proofs.Machine.Ends

/-!
# What builders change

`Edit` lists everything that the operations of builders and nodes can do to the state of a run, with
the checks that they have then passed. An operation that fails changes nothing, or closes the
builder, or takes the place of a part; none of them takes a step or charges anything.
-/

namespace SceneScript

open Run

def NodeObject.fresh (count place : Nat) : NodeObject :=
  ⟨s!"node{count}", place, place + 1, place + 2, #[], #[], none⟩

namespace Heap

def addNode (h : Heap) (count : Nat) : Heap :=
  ⟨(((h.objects.push (.vector .zero)).push (.vector .zero)).push (.vector .one)).push
    (.node (.fresh count h.objects.size))⟩

def attach (h : Heap) (parent child : Nat) : Heap :=
  (h.modifyNode child fun n => { n with parent := some parent }).modifyNode parent
    fun n => { n with children := n.children.push child }

theorem content_illTyped {α : Type} {needed : ObjectKind} {select : Object → Option α} {h : Heap}
    {ref : Nat} {cause : FaultCause} (failed : h.content needed select ref = .error cause) :
    cause.isIllTyped = true := by
  unfold content object at failed
  cases found : h.objects[ref]? with
  | none =>
    rw [found] at failed
    cases failed
    rfl
  | some o =>
    rw [found] at failed
    simp only [bind, Except.bind] at failed
    cases selected : select o with
    | some a =>
      rw [selected] at failed
      cases failed
    | none =>
      rw [selected] at failed
      cases failed
      rfl

theorem node_illTyped {h : Heap} {ref : Nat} {cause : FaultCause}
    (failed : h.node ref = .error cause) : cause.isIllTyped = true :=
  content_illTyped failed

end Heap

/-- What an operation of a builder or a node changes, and its deed. A part is counted and not placed
only where what it is placed on is no node. -/
inductive Edit (limits : Limits) (onNode : Prop) : RunState → Option Deed → RunState → Prop
  | refused (s : RunState) : Edit limits onNode s none s
  | generated {s : RunState} {mesh : Mesh} {count : Nat} :
      Primitive.Sized limits.maxDivisions mesh count → s.building.ended = false →
      s.building.meshes.size < limits.maxParts →
      s.building.vertices + count ≤ limits.maxVertices →
      Edit limits onNode s none { s with building := { s.building with
        meshes := s.building.meshes.push mesh, vertices := s.building.vertices + count } }
  | created {s : RunState} : s.building.ended = false →
      s.building.nodes.size < limits.maxNodes →
      Edit limits onNode s (some (.created (s.heap.objects.size + 3))) { s with
        heap := s.heap.addNode s.building.nodes.size
        building := { s.building with
          nodes := s.building.nodes.push (s.heap.objects.size + 3) } }
  | placed {s : RunState} {node part material : Nat} {n : NodeObject} {mesh : Mesh}
      {m : MaterialObject} : s.building.ended = false →
      s.building.meshes[part]? = some mesh → s.heap.material material = .ok m →
      s.building.placements < limits.maxParts →
      s.building.vertices + mesh.vertexCount ≤ limits.maxVertices → s.heap.node node = .ok n →
      Edit limits onNode s (some (.placed node part material)) { s with
        heap := s.heap.modifyNode node fun n => { n with parts := n.parts.push (part, material) }
        building := { s.building with
          vertices := s.building.vertices + mesh.vertexCount
          placements := s.building.placements + 1 } }
  | misplaced {s : RunState} {mesh : Mesh} : ¬onNode → s.building.ended = false →
      mesh ∈ s.building.meshes →
      s.building.placements < limits.maxParts →
      s.building.vertices + mesh.vertexCount ≤ limits.maxVertices →
      Edit limits onNode s none { s with building := { s.building with
        vertices := s.building.vertices + mesh.vertexCount
        placements := s.building.placements + 1 } }
  | attached {s : RunState} {parent child : Nat} {n : NodeObject} {above below : Nat} :
      s.building.ended = false → s.heap.node child = .ok n → n.parent = none →
      Building.levelsAbove s.heap child maxLevels parent = .ok above →
      Building.levelsBelow s.heap maxLevels child = .ok below → above + 1 + below ≤ maxLevels →
      Edit limits onNode s (some (.attached parent child)) { s with
        heap := s.heap.attach parent child }
  | abandoned {s : RunState} {cause : FaultCause} : s.building.ended = false →
      Building.finishRoots s.heap s.building.meshes s.building.nodes.toList = .error cause →
      Edit limits onNode s none { s with building := { s.building with ended := true } }
  | finished {s : RunState} {roots : List ModelNode} : s.building.ended = false →
      Building.finishRoots s.heap s.building.meshes s.building.nodes.toList = .ok roots →
      Edit limits onNode s none { s with
        heap := (s.heap.add (.model ⟨s.nextModel, roots⟩)).2
        building := { s.building with ended := true }
        nextModel := s.nextModel + 1 }

namespace Deed

def create? : Value → Option Deed
  | .object ref => some (.created ref)
  | _ => none

def place? (node : Nat) : Value → Value → Option Deed
  | .int part, .object material => some (.placed node part.toInt.toNat material)
  | _, _ => none

def attach? (parent : Nat) : Value → Option Deed
  | .object child => some (.attached parent child)
  | _ => none

end Deed

/-- What an operation does where it succeeds. Only some operations may add objects to the heap. -/
structure Edit.Done (limits : Limits) (adds : Bool) (s : RunState) (deed : Option Deed)
    (s' : RunState) : Prop where
  edit : Edit limits True s deed s'
  size : adds = true ∨ s'.heap.size = s.heap.size

/-- How an operation fails: never for lack of steps, and a part is misplaced only where what it is
placed on is of the wrong type. -/
structure Edit.Failed (limits : Limits) (onNode : Prop) (s : RunState) (cause : FaultCause)
    (s' : RunState) : Prop where
  stepless : cause.isStepLimit = false
  edit : Edit limits (onNode ∨ cause.isIllTyped = false) s none s'

namespace Edit.Failed

variable {limits : Limits} {onNode : Prop} {s : RunState} {cause : FaultCause}

theorem refused (stepless : cause.isStepLimit = false) : Failed limits onNode s cause s :=
  ⟨stepless, .refused s⟩

theorem lift {α : Type} {x : Except FaultCause α} [stepless : Stepless x] (cause : FaultCause)
    (failed : x = .error cause) : Failed limits onNode s cause s :=
  refused (stepless.stepless failed)

end Edit.Failed

/-! ## Operations -/

namespace Building

variable {limits : Limits} {s : RunState} {α : Type} {ok : α → RunState → Prop}
  {failed : FaultCause → RunState → Prop} {onNode : Prop}

theorem ends_ensureOpen_bind {next : Unit → Run α} (holds : failed .builderEnded s)
    (rest : s.building.ended = false → Ends limits s (next ()) ok failed) :
    Ends limits s (ensureOpen >>= next) ok failed := by
  change Ends limits s ((if s.building.ended = true then _ else _) >>= next) _ _
  exact .ensure_bind holds fun isOpen => rest (Bool.eq_false_iff.2 isOpen)

theorem ensureOpen_run (isOpen : s.building.ended = false) : ensureOpen limits s = .ok () s := by
  change (if s.building.ended = true then _ else (pure () : Run Unit)) limits s = _
  rw [isOpen]
  rfl

def Refused (s : RunState) (cause : FaultCause) (s' : RunState) : Prop :=
  s' = s ∧ cause.isStepLimit = false

theorem Refused.bind {β : Type} {run : Run β} {next : β → Run α} {between : β → RunState → Prop}
    (first : Ends limits s run between (Refused s))
    (holds : ∀ {cause}, cause.isStepLimit = false → failed cause s)
    (rest : ∀ b s', between b s' → Ends limits s' (next b) ok failed) :
    Ends limits s (run >>= next) ok failed := by
  refine Ends.bind (first.mono (fun _ _ => id) ?_) rest
  rintro cause s' ⟨rfl, stepless⟩
  exact holds stepless

theorem Refused.lift {β : Type} {x : Except FaultCause β} [stepless : Stepless x]
    (cause : FaultCause) (fails : x = .error cause) : Refused s cause s :=
  ⟨rfl, stepless.stepless fails⟩

theorem ends_lift_bind {β : Type} {x : Except FaultCause β} [Stepless x] {next : β → Run α}
    (holds : ∀ {cause}, cause.isStepLimit = false → failed cause s)
    (rest : ∀ b, x = .ok b → Ends limits s (next b) ok failed) :
    Ends limits s (liftM x >>= next) ok failed :=
  .lift_bind (fun _ fails => holds (Stepless.stepless fails)) rest

theorem ends_dimension (what : Dimension) (v : Value) :
    Ends limits s (dimension what v) (fun _ => (· = s)) fun cause s' =>
      s' = s ∧ (v.asFloat = .error cause ∨ ∃ x, cause = .invalidSize what x) :=
  .lift_bind (fun _ fails => ⟨rfl, .inl fails⟩) fun x _ =>
    .guard ⟨rfl, .inr ⟨x, rfl⟩⟩ fun _ => .pure rfl

theorem ends_divisions (v : Value) :
    Ends limits s (divisions v) (fun d s' => s' = s ∧ ∃ n : Nat, 3 ≤ n ∧
      n ≤ limits.maxDivisions ∧ d = .ofNat n) fun cause s' =>
      s' = s ∧ (v.asInt = .error cause ∨ ∃ n, cause = .invalidDivisions n limits.maxDivisions) := by
  refine .lift_bind (fun _ fails => ⟨rfl, .inl fails⟩) fun n _ => .limits_bind ?_
  refine .guard ⟨rfl, .inr ⟨n, rfl⟩⟩ fun within => ?_
  exact .pure ⟨rfl, n.toInt.toNat, by omega, by omega, rfl⟩

theorem ends_dimension_bind {what : Dimension} {v : Value} {next : Float32 → Run α}
    (holds : ∀ {cause}, cause.isStepLimit = false → failed cause s)
    (rest : ∀ x, Ends limits s (next x) ok failed) :
    Ends limits s (dimension what v >>= next) ok failed := by
  have sized : Ends limits s (dimension what v) (fun _ => (· = s)) (Refused s) := by
    refine (ends_dimension what v).mono (fun _ _ => id) ?_
    rintro cause s' ⟨rfl, fails | ⟨x, rfl⟩⟩
    · exact .lift cause fails
    · exact ⟨rfl, rfl⟩
  exact Refused.bind sized holds fun x _ is => is ▸ rest x

theorem ends_divisions_bind {v : Value} {next : UInt32 → Run α}
    (holds : ∀ {cause}, cause.isStepLimit = false → failed cause s)
    (rest : ∀ n : Nat, 3 ≤ n → n ≤ limits.maxDivisions →
      Ends limits s (next (.ofNat n)) ok failed) :
    Ends limits s (divisions v >>= next) ok failed := by
  have counted : Ends limits s (divisions v) (fun d s' => s' = s ∧ ∃ n : Nat, 3 ≤ n ∧
      n ≤ limits.maxDivisions ∧ d = .ofNat n) (Refused s) := by
    refine (ends_divisions v).mono (fun _ _ => id) ?_
    rintro cause s' ⟨rfl, fails | ⟨n, rfl⟩⟩
    · exact .lift cause fails
    · exact ⟨rfl, rfl⟩
  refine Refused.bind counted holds ?_
  rintro _ s' ⟨rfl, n, least, most, rfl⟩
  exact rest n least most

theorem ends_reserve_bind {count : Nat} {next : Unit → Run α}
    (holds : ∀ {cause}, cause.isStepLimit = false → failed cause s)
    (rest : s.building.vertices + count ≤ limits.maxVertices → Ends limits
      { s with building := { s.building with vertices := s.building.vertices + count } }
      (next ()) ok failed) :
    Ends limits s (reserve count >>= next) ok failed := by
  let more : RunState :=
    { s with building := { s.building with vertices := s.building.vertices + count } }
  have reserved : Ends limits s (reserve count)
      (fun _ s' => s' = more ∧ s.building.vertices + count ≤ limits.maxVertices) (Refused s) :=
    .building_bind (.limits_bind (.guard ⟨rfl, rfl⟩ fun fits =>
      .modifyBuilding ⟨rfl, Nat.not_lt.1 fits⟩))
  refine Refused.bind reserved holds ?_
  rintro _ s' ⟨rfl, fits⟩
  exact rest fits

theorem ends_generate_bind {name : String} {args : List Value} {next : Mesh → Run α}
    (holds : ∀ {cause}, cause.isStepLimit = false → failed cause s)
    (rest : ∀ mesh count, Primitive.Sized limits.maxDivisions mesh count →
      s.building.vertices + count ≤ limits.maxVertices → Ends limits
        { s with building := { s.building with vertices := s.building.vertices + count } }
        (next mesh) ok failed) :
    Ends limits s (generate name args >>= next) ok failed := by
  let more (count : Nat) : RunState :=
    { s with building := { s.building with vertices := s.building.vertices + count } }
  let After (mesh : Mesh) (s' : RunState) : Prop :=
    ∃ count, s' = more count ∧ Primitive.Sized limits.maxDivisions mesh count ∧
      s.building.vertices + count ≤ limits.maxVertices
  have refused {cause : FaultCause} (stepless : cause.isStepLimit = false) : Refused s cause s :=
    ⟨rfl, stepless⟩
  have reserved {count : Nat} {mesh : Mesh}
      (sized : Primitive.Sized limits.maxDivisions mesh count) :
      Ends limits s (reserve count >>= fun _ => pure mesh) After (Refused s) :=
    ends_reserve_bind refused fun fits => .pure ⟨count, rfl, sized, fits⟩
  -- One case for each kind of primitive, and one for a name that is none.
  have generated : Ends limits s (generate name args) After (Refused s) := by
    unfold generate
    split
    · exact ends_dimension_bind refused fun w => ends_dimension_bind refused fun h =>
        ends_dimension_bind refused fun d => reserved (.box w h d _)
    · exact ends_dimension_bind refused fun r => ends_divisions_bind refused fun n least most =>
        reserved (.sphere r _ least most)
    · exact ends_dimension_bind refused fun r => ends_dimension_bind refused fun h =>
        ends_divisions_bind refused fun n least most => reserved (.cylinder r h _ least most)
    · exact ends_dimension_bind refused fun r => ends_dimension_bind refused fun h =>
        ends_divisions_bind refused fun n least most => reserved (.cone r h _ least most)
    · exact ends_dimension_bind refused fun w => ends_dimension_bind refused fun d =>
        reserved (.plane w d _)
    · exact .fault ⟨rfl, rfl⟩
  refine Refused.bind generated holds ?_
  rintro mesh s' ⟨count, rfl, sized, fits⟩
  exact rest mesh count sized fits

theorem ends_primitive (name : String) (args : List Value)
    (holds : ∀ {cause}, cause.isStepLimit = false → failed cause s) :
    Ends limits s (primitive name args) (fun _ => Edit.Done limits false s none) failed := by
  refine ends_ensureOpen_bind (holds rfl) fun isOpen => .limits_bind (.building_bind ?_)
  refine .guard (holds rfl) fun room => ?_
  refine ends_generate_bind holds fun mesh count sized fits => ?_
  refine .building_bind (.modifyBuilding_bind (.pure ?_))
  exact ⟨.generated sized isOpen (Nat.not_le.1 room) fits, .inr rfl⟩

theorem ends_newNode (holds : ∀ {cause}, cause.isStepLimit = false → failed cause s) :
    Ends limits s newNode (fun v => Edit.Done limits true s (Deed.create? v)) failed := by
  refine ends_ensureOpen_bind (holds rfl) fun isOpen => .limits_bind (.building_bind ?_)
  refine .guard (holds rfl) fun room => .addObject_bind (.addObject_bind ?_)
  refine .addObject_bind (.addObject_bind (.modifyBuilding_bind (.pure ?_)))
  simp only [Heap.add, Array.size_push]
  exact ⟨.created isOpen (Nat.not_le.1 room), .inl rfl⟩

theorem mesh?_eq_some {b : Building} {id : Int} {mesh : Mesh} (found : mesh? b id = some mesh) :
    b.meshes[id.toNat]? = some mesh := by
  unfold mesh? at found
  split at found
  · exact found
  · cases found

theorem ends_placePart {node : Nat} {part material : Value}
    (holds : ∀ {cause}, cause.isStepLimit = false → failed cause s)
    (misplaces : ∀ {cause s'}, s.heap.node node = .error cause →
      (∀ {onNode : Prop}, ¬onNode → Edit limits onNode s none s') → failed cause s') :
    Ends limits s (placePart node part material)
      (fun _ => Edit.Done limits false s (Deed.place? node part material)) failed := by
  refine ends_ensureOpen_bind (holds rfl) fun isOpen => ends_lift_bind holds fun id is => ?_
  cases Value.asInt_ok is
  refine .building_bind ?_
  split
  · next mesh found =>
    refine ends_lift_bind holds fun ref is => .heap_bind ?_
    refine ends_lift_bind holds fun m ofMaterial => ?_
    cases Value.asObject_ok is
    refine .limits_bind (.building_bind (.guard (holds rfl) fun room => ?_))
    refine ends_reserve_bind holds fun fits => .modifyBuilding_bind (.heap_bind ?_)
    have placeable := mesh?_eq_some found
    -- The place for the part is taken before the node is read, and kept where that fails.
    refine .lift_bind (fun cause noNode => ?_) fun n ofNode => ?_
    · refine misplaces noNode fun notOnNode => ?_
      exact .misplaced notOnNode isOpen (Array.mem_of_getElem? placeable) (Nat.not_le.1 room) fits
    · exact ⟨.placed isOpen placeable ofMaterial (Nat.not_le.1 room) fits ofNode,
        .inr Array.size_modify⟩
  · exact .fault (holds rfl)

theorem ends_attach {parent : Nat} {child : Value}
    (holds : ∀ {cause}, cause.isStepLimit = false → failed cause s) :
    Ends limits s (attach parent child)
      (fun _ => Edit.Done limits false s (Deed.attach? parent child)) failed := by
  refine ends_ensureOpen_bind (holds rfl) fun isOpen => ends_lift_bind holds fun ref is => ?_
  cases Value.asObject_ok is
  refine .heap_bind (ends_lift_bind holds fun n ofChild => .guard (holds rfl) fun free => ?_)
  refine .heap_bind (ends_lift_bind holds fun above ofAbove => .heap_bind ?_)
  refine ends_lift_bind holds fun below ofBelow => .guard (holds rfl) fun room => ?_
  refine .modifyHeap_bind (.modifyHeap ?_)
  refine ⟨.attached isOpen ofChild (by simpa using free) ofAbove ofBelow (Nat.not_lt.1 room), ?_⟩
  exact .inr (Array.size_modify.trans Array.size_modify)

theorem ends_finish (holds : ∀ {cause}, cause.isStepLimit = false → failed cause s)
    (abandons : ∀ {cause}, cause.isStepLimit = false → s.building.ended = false →
      finishRoots s.heap s.building.meshes s.building.nodes.toList = .error cause →
      failed cause { s with building := { s.building with ended := true } }) :
    Ends limits s finish (fun _ => Edit.Done limits true s none) failed := by
  refine ends_ensureOpen_bind (holds rfl) fun isOpen => .modifyBuilding_bind (.building_bind ?_)
  refine .heap_bind (.lift_bind (fun cause fails => ?_) fun roots made => ?_)
  · exact abandons (Stepless.stepless fails) isOpen fails
  · exact ⟨.finished isOpen made, .inl rfl⟩

def Performs (limits : Limits) (adds : Bool) (onNode : Prop) (s : RunState) (run : Run α)
    (deed : α → Option Deed) : Prop :=
  Ends limits s run (fun a => Edit.Done limits adds s (deed a)) (Edit.Failed limits onNode s)

theorem performs_primitive (name : String) (args : List Value) :
    Performs limits false onNode s (primitive name args) fun _ => none :=
  ends_primitive name args .refused

theorem performs_newNode : Performs limits true onNode s newNode Deed.create? :=
  ends_newNode .refused

theorem performs_placePart {node : Nat} {part material : Value} :
    Performs limits false (∃ n, s.heap.node node = .ok n) s (placePart node part material)
      fun _ => Deed.place? node part material := by
  refine ends_placePart .refused fun noNode misplaced => ⟨Stepless.stepless noNode, ?_⟩
  refine misplaced (not_or.2 ⟨?_, ?_⟩)
  · rintro ⟨n, ofNode⟩
    cases noNode.symm.trans ofNode
  · rw [Heap.node_illTyped noNode]
    exact nofun

theorem performs_attach {parent : Nat} {child : Value} :
    Performs limits false onNode s (attach parent child) fun _ => Deed.attach? parent child :=
  ends_attach .refused

theorem performs_finish : Performs limits true onNode s finish fun _ => none :=
  ends_finish .refused fun stepless isOpen fails => ⟨stepless, .abandoned isOpen fails⟩

theorem Performs.give {adds : Bool} {run : Run Unit} {deed : Option Deed}
    {deed' : Value → Option Deed} {v : Value}
    (performs : Performs limits adds onNode s run fun _ => deed) (same : deed = deed' v) :
    Performs limits adds onNode s (run >>= fun _ => pure v) deed' :=
  Ends.bind performs fun _ _ done => .pure (same ▸ done)

end Building

/-! ## Calls -/

open Building

def Call.OnNode (h : Heap) : Call → Prop
  | .method .modelBuilder "part" _ [.object node, _, _]
  | .method .node "addPart" (.object node) [_, _] => ∃ n, h.node node = .ok n
  | _ => True

theorem Call.Builds.performs {limits : Limits} {s : RunState} {c : Call} {run : Run Value}
    (builds : c.Builds run) : Performs limits c.isFree (c.OnNode s.heap) s run c.deed? := by
  cases builds with
  | generate plain =>
    rw [plain.charged]
    exact (performs_primitive _ _).mono (fun v _ done => plain.deed v ▸ done) fun _ _ => id
  | node =>
    refine performs_newNode.mono (fun v _ done => ?_) fun _ _ => id
    cases v <;> exact done
  | @part receiver node part material =>
    refine .lift_bind .lift fun ref is => ?_
    cases Value.asObject_ok is
    exact performs_placePart.give (by cases part <;> cases material <;> rfl)
  | finish => exact performs_finish
  | @addPart receiver part material =>
    refine .lift_bind .lift fun ref is => ?_
    cases Value.asObject_ok is
    exact performs_placePart.give (by cases part <;> cases material <;> rfl)
  | @addChild receiver child =>
    refine .lift_bind .lift fun ref is => ?_
    cases Value.asObject_ok is
    exact performs_attach.give (by cases child <;> rfl)

end SceneScript

/-!
## Acts

All that changes the state of a run is done by acts: a run begins statements, rounds of loops and
expressions, uses members, shows values and makes strings of them. A run ends with the first act
that fails, but the state is defined after any sequence of acts, failing ones included.
-/

namespace SceneScript

open Run

inductive Act where
  /-- Begins a statement. -/
  | statement (i : Instr)
  /-- Begins a round of a loop, with the value of its variable. -/
  | round (i : Int)
  /-- Begins an expression. -/
  | expression (e : Code)
  | builder
  | call (c : Call)
  | display (v : Value)
  | string (s : String)

def Run.last {α : Type} (run : Run α) (limits : Limits) (s : RunState) : RunState :=
  match run limits s with
  | .ok _ s' => s'
  | .error _ s' => s'

theorem Run.last_of_ok {α : Type} {limits : Limits} {s s' : RunState} {run : Run α} {a : α}
    (ran : run limits s = .ok a s') : run.last limits s = s' := by
  rw [Run.last, ran]

theorem Run.Ends.last {α : Type} {limits : Limits} {s : RunState} {run : Run α}
    {P : RunState → Prop} (ends : Ends limits s run (fun _ => P) fun _ => P) :
    P (run.last limits s) := by
  unfold Run.last
  cases ran : run limits s with
  | ok a s' => exact ends.of_ok ran
  | error f s' => exact ends.of_error ran

namespace Act

def run : Act → Run Unit
  | statement _ | round _ | expression _ => tick
  | builder => do let _ ← newBuilder
  | call c => do let _ ← c.run
  | display v => do let _ ← Run.display v
  | string s => do let _ ← Run.string s

/-- Carries out acts up to the first one that fails. -/
def runAll : List Act → Run Unit
  | [] => return
  | a :: rest => do
    a.run
    runAll rest

def leave (limits : Limits) (s : RunState) (acts : List Act) : RunState :=
  acts.foldl (fun s a => a.run.last limits s) s

section

variable {limits : Limits} {s s' : RunState}

theorem runAll_cons {a : Act} {rest : List Act} (ran : runAll (a :: rest) limits s = .ok () s') :
    ∃ s₁, a.run limits s = .ok () s₁ ∧ runAll rest limits s₁ = .ok () s' := by
  rw [runAll, bind_apply] at ran
  cases first : a.run limits s with
  | ok _ s₁ =>
    rw [first] at ran
    exact ⟨s₁, rfl, ran⟩
  | error f s₁ =>
    rw [first] at ran
    cases ran

end

theorem runAll_append (acts more : List Act) :
    runAll (acts ++ more) = runAll acts >>= fun _ => runAll more := by
  induction acts with
  | nil => exact (pure_bind () fun _ => runAll more).symm
  | cons a rest ih => simp only [List.cons_append, runAll, ih, bind_assoc]

end Act

end SceneScript
