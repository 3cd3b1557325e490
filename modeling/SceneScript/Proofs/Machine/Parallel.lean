import SceneScript.Proofs.Machine.Scaling

/-!
# Runs from states that are alike

Two runs of a program whose states differ in nothing but the ids of models end alike: with the same
value or with the same fault, and in states that are alike again (`Program.parallel_run`). Every
fault is located at a position of the program, or nowhere. Each operation is looked at once; the
rules below carry the statement through sequences.
-/

namespace SceneScript

/-! ## Text -/

namespace Text

variable {h h' : Heap}

theorem writeOne_alike (alike : h.Alike h') (item : Option (Value → Writer Unit)) :
    writeOne h item = writeOne h' item := by
  funext v
  unfold writeOne
  cases v with
  | object ref =>
    cases found : h.objects[ref]? with
    | none => simp only [found, alike.none found]
    | some o =>
      obtain ⟨o', found', same⟩ := alike.object found
      simp only [found, found']
      cases same with
      | refl => rfl
      | model => rfl
  | _ => rfl

theorem writeNested_alike (alike : h.Alike h') (depth : Nat) :
    writeNested h depth = writeNested h' depth := by
  induction depth with
  | zero => exact writeOne_alike alike none
  | succ depth ih => rw [writeNested, writeNested, ih, writeOne_alike alike]

theorem write_alike (alike : h.Alike h') : write h = write h' := by
  funext v
  rw [write, write, writeNested_alike alike]

end Text

theorem Fault.locate_within {P : Position → Prop} {f : Fault} {p : Position}
    (within : ∀ q ∈ f.position, P q) (place : P p) : ∀ q ∈ (f.locate p).position, P q := by
  obtain ⟨cause, position⟩ := f
  cases position with
  | none => simpa [locate] using place
  | some q => simpa [locate] using within

namespace Run

variable {α β : Type} {P : Position → Prop} {l : Limits}

/-- Both runs succeed with the same value or fail with the same fault, which is located at a
position with `P` if at all, and leave states that are alike. -/
inductive EndAlike (P : Position → Prop) :
    EStateM.Result Fault RunState α → EStateM.Result Fault RunState α → Prop
  | ok {a : α} {t t' : RunState} : t.Alike t' → EndAlike P (.ok a t) (.ok a t')
  | error {f : Fault} {t t' : RunState} : (∀ p ∈ f.position, P p) → t.Alike t' →
      EndAlike P (.error f t) (.error f t')

theorem EndAlike.cases {r r' : EStateM.Result Fault RunState α} (ends : EndAlike P r r') :
    (∃ a t t', r = .ok a t ∧ r' = .ok a t' ∧ t.Alike t') ∨
      ∃ f t t', r = .error f t ∧ r' = .error f t' ∧ (∀ p ∈ f.position, P p) ∧ t.Alike t' := by
  cases ends with
  | ok alike => exact .inl ⟨_, _, _, rfl, rfl, alike⟩
  | error place alike => exact .inr ⟨_, _, _, rfl, rfl, place, alike⟩

def Parallel (P : Position → Prop) (l : Limits) (run run' : Run α) : Prop :=
  ∀ s s', s.Alike s' → EndAlike P (run l s) (run' l s')

namespace Parallel

variable {run run' : Run α} {next next' : α → Run β}

theorem pure (a : α) : Parallel P l (pure a) (pure a) :=
  fun _ _ alike => .ok alike

theorem fault (cause : FaultCause) :
    Parallel P l (fault cause : Run α) (Run.fault cause) :=
  fun _ _ alike => .error nofun alike

theorem bind (first : Parallel P l run run')
    (rest : ∀ a, Parallel P l (next a) (next' a)) :
    Parallel P l (run >>= next) (run' >>= next') := by
  intro s s' alike
  change EndAlike P (EStateM.bind (run l) (fun a => next a l) s)
    (EStateM.bind (run' l) (fun a => next' a l) s')
  unfold EStateM.bind
  obtain ⟨a, t, t', ran, ran', alike⟩ | ⟨f, t, t', ran, ran', place, alike⟩ :=
    (first s s' alike).cases
  · rw [ran, ran']
    exact rest a t t' alike
  · rw [ran, ran']
    exact .error place alike

theorem lift (x : Except FaultCause α) : Parallel P l (liftM x : Run α) (liftM x) := by
  cases x with
  | ok a => exact .pure a
  | error cause => exact .fault cause

theorem located {p : Position} (place : P p) (inner : Parallel P l run run') :
    Parallel P l (located p run) (Run.located p run') := by
  intro s s' alike
  unfold Run.located
  obtain ⟨a, t, t', ran, ran', alike⟩ | ⟨f, t, t', ran, ran', within, alike⟩ :=
    (inner s s' alike).cases
  · rw [ran, ran']
    exact .ok alike
  · rw [ran, ran']
    exact .error (Fault.locate_within within place) alike

theorem limits {next next' : Limits → Run α}
    (rest : Parallel P l (next l) (next' l)) :
    Parallel P l (Run.limits >>= next) (Run.limits >>= next') :=
  rest

theorem guard {cond : Prop} [Decidable cond] {cause : FaultCause} {next next' : Unit → Run α}
    (rest : Parallel P l (next ()) (next' ())) :
    Parallel P l (if cond then Run.fault cause >>= next else next ())
      (if cond then Run.fault cause >>= next' else next' ()) := by
  split
  · exact (fault (α := Unit) cause).bind fun _ => rest
  · exact rest

theorem heap {next next' : Heap → Run α}
    (rest : ∀ h h', h.Alike h' → Parallel P l (next h) (next' h')) :
    Parallel P l (heap >>= next) (Run.heap >>= next') :=
  fun s s' alike => rest s.heap s'.heap alike.heap s s' alike

theorem building {next next' : Building → Run α}
    (rest : ∀ b, Parallel P l (next b) (next' b)) :
    Parallel P l (building >>= next) (Run.building >>= next') := by
  intro s s' alike
  have rest := rest s.building s s' alike
  change EndAlike P (next s.building l s) (next' s'.building l s')
  rwa [← alike.building]

theorem modifyHeap {f : Heap → Heap} (maps : ∀ h h', h.Alike h' → (f h).Alike (f h')) :
    Parallel P l (modifyHeap f) (Run.modifyHeap f) :=
  fun _ _ alike => .ok ⟨maps _ _ alike.heap, alike.building, alike.steps, alike.heapBytes⟩

theorem modifyBuilding (f : Building → Building) :
    Parallel P l (modifyBuilding f) (Run.modifyBuilding f) :=
  fun _ _ alike => .ok ⟨alike.heap, congrArg f alike.building, alike.steps, alike.heapBytes⟩

theorem addObject {o o' : Object} (new : o.Alike o') :
    Parallel P l (addObject o) (Run.addObject o') := by
  intro s s' alike
  have ref : (s.heap.add o).1 = (s'.heap.add o').1 := alike.heap.size
  change EndAlike P (.ok (s.heap.add o).1 { s with heap := (s.heap.add o).2 })
    (.ok (s'.heap.add o').1 { s' with heap := (s'.heap.add o').2 })
  rw [ref]
  exact .ok ⟨alike.heap.add new, alike.building, alike.steps, alike.heapBytes⟩

theorem tick : Parallel P l tick Run.tick := by
  intro s s' alike
  have after : RunState.Alike { s with steps := s.steps + 1 } { s' with steps := s'.steps + 1 } :=
    ⟨alike.heap, alike.building, congrArg Nat.succ alike.steps, alike.heapBytes⟩
  simp only [tick_run, ← alike.steps] at after ⊢
  split
  · exact .error nofun after
  · exact .ok after

theorem charge (bytes : Nat) : Parallel P l (charge bytes) (Run.charge bytes) := by
  intro s s' alike
  let spent (s : RunState) : RunState := { s with heapBytes := s.heapBytes + bytes }
  have run (s : RunState) : Run.charge bytes l s =
      if s.heapBytes + bytes > l.maxHeapBytes then
        .error ⟨.heapLimit l.maxHeapBytes, none⟩ (spent s)
      else .ok () (spent s) := by
    change (if (spent s).heapBytes > l.maxHeapBytes then
      Run.fault (.heapLimit l.maxHeapBytes) else Pure.pure () : Run Unit) l (spent s) = _
    split <;> rfl
  have after : (spent s).Alike (spent s') :=
    ⟨alike.heap, alike.building, alike.steps, congrArg (· + bytes) alike.heapBytes⟩
  rw [run, run, alike.heapBytes]
  split
  · exact .error nofun after
  · exact .ok after

theorem string (t : String) : Parallel P l (string t) (Run.string t) :=
  .limits (.guard ((charge _).bind fun _ => .pure _))

theorem alloc (o : Object) : Parallel P l (alloc o) (Run.alloc o) :=
  tick.bind fun _ => (charge _).bind fun _ => (addObject (.refl o)).bind fun _ => .pure _

theorem display (v : Value) : Parallel P l (display v) (Run.display v) := by
  intro s s' alike
  rw [display_run, display_run, Text.write_alike alike.heap, alike.steps]
  cases Text.write s'.heap v (textBounds l) ⟨"", s'.steps⟩ with
  | ok u sink => exact .ok ⟨alike.heap, alike.building, rfl, alike.heapBytes⟩
  | error cause sink => exact .error nofun ⟨alike.heap, alike.building, rfl, alike.heapBytes⟩

end Parallel

theorem Plain.parallel {paid : Nat} {run : Run α} (plain : Plain paid run) :
    Parallel P l run run := by
  induction plain with
  | pure a => exact .pure a
  | fault cause => exact .fault cause
  | seq _ _ first rest => exact first.bind rest
  | heap same _ rest => exact .heap fun h h' alike => same h h' alike ▸ rest h
  | building _ rest => exact .building rest
  | roomy _ rest => exact .limits (.guard rest)
  | charge _ rest => exact (Parallel.charge _).bind fun _ => rest
  | string s => exact .string s
  | alloc => exact .alloc _
  | modify ref adds =>
    refine .modifyHeap fun h h' alike => alike.modify ref ?_
    intro o o' same
    exact Object.Minor.alike adds.minor same

end Run

/-! ## Building -/

namespace Building

open Run

variable {P : Position → Prop} {limits : Limits}

theorem parallel_ensureOpen : Parallel P limits ensureOpen ensureOpen := by
  refine .building fun b => ?_
  split
  · exact .fault _
  · exact .pure ()

theorem parallel_dimension (what : Dimension) (v : Value) :
    Parallel P limits (dimension what v) (dimension what v) :=
  (Parallel.lift v.asFloat).bind fun _ => .guard (.pure _)

theorem parallel_divisions (v : Value) : Parallel P limits (divisions v) (divisions v) :=
  (Parallel.lift v.asInt).bind fun _ => .limits (.guard (.pure _))

theorem parallel_reserve (count : Nat) : Parallel P limits (reserve count) (reserve count) :=
  .building fun _ => .limits (.guard (.modifyBuilding _))

theorem parallel_generate (name : String) (args : List Value) :
    Parallel P limits (generate name args) (generate name args) := by
  have reserved (count : Nat) (mesh : Mesh) : Parallel P limits
      (reserve count >>= fun _ => pure mesh) (reserve count >>= fun _ => pure mesh) :=
    (parallel_reserve count).bind fun _ => .pure mesh
  unfold generate
  split
  · exact (parallel_dimension _ _).bind fun w => (parallel_dimension _ _).bind fun h =>
      (parallel_dimension _ _).bind fun d => reserved _ _
  · exact (parallel_dimension _ _).bind fun r => (parallel_divisions _).bind fun n => reserved _ _
  · exact (parallel_dimension _ _).bind fun r => (parallel_dimension _ _).bind fun h =>
      (parallel_divisions _).bind fun n => reserved _ _
  · exact (parallel_dimension _ _).bind fun r => (parallel_dimension _ _).bind fun h =>
      (parallel_divisions _).bind fun n => reserved _ _
  · exact (parallel_dimension _ _).bind fun w => (parallel_dimension _ _).bind fun d =>
      reserved _ _
  · exact .fault _

theorem parallel_primitive (name : String) (args : List Value) :
    Parallel P limits (primitive name args) (primitive name args) := by
  refine parallel_ensureOpen.bind fun _ => .limits (.building fun b => .guard ?_)
  refine (parallel_generate name args).bind fun mesh => .building fun b => ?_
  exact (Parallel.modifyBuilding _).bind fun _ => .pure _

theorem parallel_newNode : Parallel P limits newNode newNode := by
  have added (o : Object) : Parallel P limits (addObject o) (addObject o) := .addObject (.refl o)
  refine parallel_ensureOpen.bind fun _ => .limits (.building fun b => .guard ?_)
  refine (added _).bind fun translation => (added _).bind fun rotation => ?_
  refine (added _).bind fun scale => (added _).bind fun ref => ?_
  exact (Parallel.modifyBuilding _).bind fun _ => .pure _

theorem parallel_placePart (node : Nat) (part material : Value) :
    Parallel P limits (placePart node part material) (placePart node part material) := by
  refine parallel_ensureOpen.bind fun _ => (Parallel.lift part.asInt).bind fun id => ?_
  refine .building fun b => ?_
  split
  · refine (Parallel.lift _).bind fun ref => .heap fun h h' alike => ?_
    rw [alike.material]
    refine (Parallel.lift _).bind fun _ => .limits (.building fun b => .guard ?_)
    refine (parallel_reserve _).bind fun _ => (Parallel.modifyBuilding _).bind fun _ => ?_
    refine .heap fun h h' alike => ?_
    rw [alike.node]
    exact (Parallel.lift _).bind fun _ => .modifyHeap fun _ _ alike => modifyNode_alike alike _ _
  · exact .fault _

theorem parallel_attach (parent : Nat) (child : Value) :
    Parallel P limits (attach parent child) (attach parent child) := by
  refine parallel_ensureOpen.bind fun _ => (Parallel.lift _).bind fun ref => ?_
  refine .heap fun h h' alike => ?_
  rw [alike.node]
  refine (Parallel.lift _).bind fun n => .guard (.heap fun h h' alike => ?_)
  rw [levelsAbove_alike alike]
  refine (Parallel.lift _).bind fun above => .heap fun h h' alike => ?_
  rw [levelsBelow_alike alike]
  refine (Parallel.lift _).bind fun below => .guard ?_
  exact (Parallel.modifyHeap fun _ _ alike => modifyNode_alike alike _ _).bind fun _ =>
    .modifyHeap fun _ _ alike => modifyNode_alike alike _ _

theorem parallel_finish : Parallel P limits finish finish := by
  refine parallel_ensureOpen.bind fun _ => (Parallel.modifyBuilding _).bind fun _ => ?_
  refine .building fun b => .heap fun h h' alike => ?_
  rw [finishRoots_alike alike]
  refine (Parallel.lift _).bind fun roots => fun s s' alike => ?_
  -- The models get different ids, but the same place in the heap.
  let store (id : Nat) : Run Value := do return .object (← addObject (.model ⟨id, roots⟩))
  have stores : Parallel P limits (store s.nextModel) (store s'.nextModel) :=
    have models : (Object.model ⟨s.nextModel, roots⟩).Alike (.model ⟨s'.nextModel, roots⟩) :=
      .model rfl
    (Parallel.addObject models).bind fun _ => .pure _
  exact stores { s with nextModel := s.nextModel + 1 } { s' with nextModel := s'.nextModel + 1 }
    ⟨alike.heap, alike.building, alike.steps, alike.heapBytes⟩

end Building

/-! ## Calls and programs -/

section

open Run

variable {P : Position → Prop} {limits : Limits}

theorem Native.parallel_rename (receiver value : Value) : Parallel P limits
    (do nodeSet "id" receiver value; return Value.void)
    (do nodeSet "id" receiver value; return Value.void) := by
  rw [nodeSet_id]
  refine Parallel.bind ?_ fun _ => .pure _
  refine (Parallel.lift _).bind fun id => (Parallel.charge _).bind fun _ => ?_
  refine (Parallel.lift _).bind fun ref => .heap fun h h' alike => ?_
  rw [alike.node]
  exact (Parallel.lift _).bind fun _ => .modifyHeap fun _ _ alike =>
    Building.modifyNode_alike alike _ _

theorem Call.Builds.parallel {c : Call} {run : Run Value} (builds : c.Builds run) :
    Parallel P limits run run := by
  cases builds with
  | generate => exact Building.parallel_primitive _ _
  | node => exact Building.parallel_newNode
  | part | addPart =>
    exact (Parallel.lift _).bind fun node => (Building.parallel_placePart node _ _).bind
      fun _ => .pure _
  | finish => exact Building.parallel_finish
  | addChild =>
    exact (Parallel.lift _).bind fun parent => (Building.parallel_attach parent _).bind
      fun _ => .pure _

theorem Call.parallel (c : Call) : Parallel P limits c.run c.run := by
  have does := c.does
  generalize c.run = run at does ⊢
  cases does with
  | plain _ plain => exact plain.parallel
  | text => exact (Parallel.display _).bind fun s => .string s
  | rename => exact Native.parallel_rename _ _
  | builds builds => exact builds.parallel

theorem Run.Composed.parallel {α : Type} {run : Run α} (composed : Composed P run) :
    Parallel P limits run run := by
  induction composed with
  | pure a => exact .pure a
  | fault cause => exact .fault cause
  | bind _ _ first rest => exact first.bind rest
  | located place _ inner => exact inner.located place
  | tick => exact .tick
  | display v => exact .display v
  | string s => exact .string s
  | call c => exact c.parallel

theorem Program.parallel_run (classes : List HostClass) (program : Program)
    (within : ∀ p ∈ instrPositions program.body, P p) (param : Value) :
    Parallel P limits (program.run classes param) (program.run classes param) :=
  (program.composed_run classes within param).parallel

end

end SceneScript
