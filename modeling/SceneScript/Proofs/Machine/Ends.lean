import SceneScript.Proofs.Machine.Metered
import SceneScript.Proofs.Machine.Plain
import SceneScript.Proofs.Machine.Safe

/-!
# How runs end

`Run.Ends` says in which states a run may succeed and fail. A plain run, whether it succeeds or
fails, leaves the builder alone and changes the heap in minor ways only (`Run.Plain.ends`).
-/

namespace SceneScript

namespace Value

theorem asInt_ok {v : Value} {n : Int64} (is : v.asInt = .ok n) : v = .int n := by
  cases v <;> cases is
  rfl

theorem asObject_ok {v : Value} {ref : Nat} (is : v.asObject = .ok ref) : v = .object ref := by
  cases v <;> cases is
  rfl

end Value

/-! ## Minor changes -/

/-- Nothing was taken off, every object changed in minor ways only, and no node or model is new. -/
structure Heap.Minor (h h' : Heap) : Prop where
  kept : ∀ {ref : Nat} {o : Object}, h.objects[ref]? = some o →
    ∃ o', h'.objects[ref]? = some o' ∧ o.Minor o'
  new : ∀ {ref : Nat} {o : Object}, h'.objects[ref]? = some o → h.objects[ref]? = none → o.IsPlain

theorem Object.Minor.refl (o : Object) : o.Minor o := by
  cases o with
  | node n => exact ⟨n.id, rfl⟩
  | _ => rfl

theorem Object.Minor.trans {o₁ o₂ o₃ : Object} (first : o₁.Minor o₂) (second : o₂.Minor o₃) :
    o₁.Minor o₃ := by
  cases o₁ with
  | node n =>
    obtain ⟨id, rfl⟩ := first
    exact second
  | model m =>
    cases first
    exact second
  | _ =>
    have kind : o₂.kind = _ := first
    cases o₂ with
    | node | model => cases kind
    | _ => exact Eq.trans (show o₃.kind = _ from second) kind

theorem Object.Minor.kind {o o' : Object} (minor : o.Minor o') : o'.kind = o.kind := by
  cases o with
  | node n =>
    obtain ⟨id, rfl⟩ := minor
    rfl
  | model m =>
    cases minor
    rfl
  | _ => exact minor

namespace Heap.Minor

variable {h h' h'' : Heap} {ref : Nat}

theorem refl (h : Heap) : h.Minor h :=
  ⟨fun found => ⟨_, found, .refl _⟩, fun found missing => nomatch missing ▸ found⟩

theorem trans (first : h.Minor h') (second : h'.Minor h'') : h.Minor h'' where
  kept found := by
    obtain ⟨o', found', minor⟩ := first.kept found
    obtain ⟨o'', found'', minor'⟩ := second.kept found'
    exact ⟨o'', found'', minor.trans minor'⟩
  new {ref o} found missing := by
    cases between : h'.objects[ref]? with
    | none => exact second.new found between
    | some o' =>
      have plain := first.new between missing
      obtain ⟨o'', found'', minor⟩ := second.kept between
      rw [found] at found''
      cases found''
      rwa [Object.IsPlain, minor.kind]

theorem add {o : Object} (plain : o.IsPlain) : h.Minor (h.add o).2 where
  kept {ref o'} found := by
    have bound : ref < h.objects.size := (Array.getElem?_eq_some_iff.1 found).1
    refine ⟨o', ?_, .refl o'⟩
    rw [Heap.add, Array.getElem?_push, if_neg (Nat.ne_of_lt bound), found]
  new {ref o'} found missing := by
    rw [Heap.add, Array.getElem?_push] at found
    split at found
    · cases found
      exact plain
    · rw [missing] at found
      cases found

theorem modify {f : Object → Object} (minor : ∀ o : Object, o.Minor (f o)) (place : Nat) :
    h.Minor (h.modify place f) where
  kept {ref o} found := by
    rw [Heap.modify, Array.getElem?_modify, found]
    split
    · exact ⟨f o, rfl, minor o⟩
    · exact ⟨o, rfl, .refl o⟩
  new {ref o} found missing := by
    rw [Heap.modify, Array.getElem?_modify, missing] at found
    split at found <;> cases found

end Heap.Minor

structure RunState.Minor (s s' : RunState) : Prop where
  heap : s.heap.Minor s'.heap
  building : s'.building = s.building
  nextModel : s'.nextModel = s.nextModel

namespace RunState.Minor

theorem refl (s : RunState) : s.Minor s :=
  ⟨.refl _, rfl, rfl⟩

theorem trans {s₁ s₂ s₃ : RunState} (first : s₁.Minor s₂) (second : s₂.Minor s₃) : s₁.Minor s₃ :=
  ⟨first.heap.trans second.heap, second.building.trans first.building,
    second.nextModel.trans first.nextModel⟩

end RunState.Minor

def RunState.Counts (s s' : RunState) : Prop :=
  ∃ steps heapBytes, s' = { s with steps, heapBytes }

theorem RunState.Counts.refl (s : RunState) : s.Counts s :=
  ⟨s.steps, s.heapBytes, rfl⟩

theorem RunState.Counts.trans {s₁ s₂ s₃ : RunState} (first : s₁.Counts s₂)
    (second : s₂.Counts s₃) : s₁.Counts s₃ := by
  obtain ⟨steps₂, heapBytes₂, rfl⟩ := first
  obtain ⟨steps, heapBytes, rfl⟩ := second
  exact ⟨steps, heapBytes, rfl⟩

theorem RunState.Minor.of_counts {s s' : RunState} (counts : s.Counts s') : s.Minor s' := by
  obtain ⟨steps, heapBytes, rfl⟩ := counts
  exact ⟨.refl _, rfl, rfl⟩

namespace Run

variable {α β : Type} {limits : Limits} {s : RunState} {run : Run α}
  {ok : α → RunState → Prop} {failed : FaultCause → RunState → Prop}

/-- Where a run succeeds its result and state are of the first kind, where it fails the cause and
its state are of the second. -/
def Ends (limits : Limits) (s : RunState) (run : Run α) (ok : α → RunState → Prop)
    (failed : FaultCause → RunState → Prop) : Prop :=
  match run limits s with
  | .ok a s' => ok a s'
  | .error f s' => failed f.cause s'

namespace Ends

theorem of_ok (ends : Ends limits s run ok failed) {a : α} {s' : RunState}
    (ran : run limits s = .ok a s') : ok a s' := by
  rwa [Ends, ran] at ends

theorem of_error (ends : Ends limits s run ok failed) {f : Fault} {s' : RunState}
    (ran : run limits s = .error f s') : failed f.cause s' := by
  rwa [Ends, ran] at ends

theorem intro (ofOk : ∀ a s', run limits s = .ok a s' → ok a s')
    (ofError : ∀ f s', run limits s = .error f s' → failed f.cause s') :
    Ends limits s run ok failed := by
  unfold Ends
  cases ran : run limits s with
  | ok a s' => exact ofOk a s' ran
  | error f s' => exact ofError f s' ran

theorem pure {a : α} (holds : ok a s) : Ends limits s (pure a) ok failed :=
  holds

theorem fault {cause : FaultCause} (holds : failed cause s) :
    Ends limits s (Run.fault cause) ok failed :=
  holds

theorem bind {next : α → Run β} {post : β → RunState → Prop} (first : Ends limits s run ok failed)
    (rest : ∀ a s', ok a s' → Ends limits s' (next a) post failed) :
    Ends limits s (run >>= next) post failed := by
  unfold Ends at first ⊢
  rw [bind_apply]
  cases ran : run limits s with
  | ok a s' =>
    rw [ran] at first
    exact rest a s' first
  | error f s' =>
    rw [ran] at first
    exact first

theorem mono {weaker : α → RunState → Prop} {weaker' : FaultCause → RunState → Prop}
    (ends : Ends limits s run ok failed) (weakenOk : ∀ a s', ok a s' → weaker a s')
    (weakenFailed : ∀ cause s', failed cause s' → weaker' cause s') :
    Ends limits s run weaker weaker' :=
  .intro (fun a s' ran => weakenOk a s' (ends.of_ok ran))
    fun f s' ran => weakenFailed f.cause s' (ends.of_error ran)

theorem located {p : Position} (ends : Ends limits s run ok failed) :
    Ends limits s (Run.located p run) ok failed := by
  unfold Ends Run.located at *
  cases ran : run limits s with
  | ok a s' => rwa [ran] at ends
  | error f s' => rwa [ran] at ends

theorem lift_bind {x : Except FaultCause β} {next : β → Run α}
    (holds : ∀ cause, x = .error cause → failed cause s)
    (rest : ∀ b, x = .ok b → Ends limits s (next b) ok failed) :
    Ends limits s (liftM x >>= next) ok failed := by
  cases x with
  | ok b => exact rest b rfl
  | error cause => exact holds cause rfl

theorem guard {cond : Prop} [Decidable cond] {cause : FaultCause} {next : Unit → Run α}
    (holds : failed cause s) (rest : ¬cond → Ends limits s (next ()) ok failed) :
    Ends limits s (if cond then Run.fault cause >>= next else next ()) ok failed := by
  split
  · exact holds
  · next passed => exact rest passed

theorem ensure_bind {cond : Prop} [Decidable cond] {cause : FaultCause} {next : Unit → Run α}
    (holds : failed cause s) (rest : ¬cond → Ends limits s (next ()) ok failed) :
    Ends limits s ((if cond then Run.fault cause else Pure.pure ()) >>= next) ok failed := by
  split
  · exact holds
  · next passed => exact rest passed

/-! The operations that only look at the state or change it in a known way. -/

theorem limits_bind {next : Limits → Run α} (rest : Ends limits s (next limits) ok failed) :
    Ends limits s (Run.limits >>= next) ok failed :=
  rest

theorem heap_bind {next : Heap → Run α} (rest : Ends limits s (next s.heap) ok failed) :
    Ends limits s (Run.heap >>= next) ok failed :=
  rest

theorem building_bind {next : Building → Run α} (rest : Ends limits s (next s.building) ok failed) :
    Ends limits s (Run.building >>= next) ok failed :=
  rest

theorem modifyHeap {f : Heap → Heap} {ok : Unit → RunState → Prop}
    (holds : ok () { s with heap := f s.heap }) : Ends limits s (Run.modifyHeap f) ok failed :=
  holds

theorem modifyBuilding {f : Building → Building} {ok : Unit → RunState → Prop}
    (holds : ok () { s with building := f s.building }) :
    Ends limits s (Run.modifyBuilding f) ok failed :=
  holds

theorem modifyHeap_bind {f : Heap → Heap} {next : Unit → Run α}
    (rest : Ends limits { s with heap := f s.heap } (next ()) ok failed) :
    Ends limits s (Run.modifyHeap f >>= next) ok failed :=
  rest

theorem modifyBuilding_bind {f : Building → Building} {next : Unit → Run α}
    (rest : Ends limits { s with building := f s.building } (next ()) ok failed) :
    Ends limits s (Run.modifyBuilding f >>= next) ok failed :=
  rest

theorem addObject_bind {o : Object} {next : Nat → Run α}
    (rest : Ends limits { s with heap := (s.heap.add o).2 } (next s.heap.objects.size) ok failed) :
    Ends limits s (addObject o >>= next) ok failed :=
  rest

end Ends

/-! ## Plain runs -/

theorem charge_run (bytes : Nat) (limits : Limits) (s : RunState) : charge bytes limits s =
    if s.heapBytes + bytes > limits.maxHeapBytes then
      .error ⟨.heapLimit limits.maxHeapBytes, none⟩ { s with heapBytes := s.heapBytes + bytes }
    else .ok () { s with heapBytes := s.heapBytes + bytes } := by
  change (if s.heapBytes + bytes > limits.maxHeapBytes then fault (.heapLimit limits.maxHeapBytes)
    else pure () : Run Unit) limits { s with heapBytes := s.heapBytes + bytes } = _
  split <;> rfl

theorem Ends.charge_bind {bytes : Nat} {next : Unit → Run α}
    (holds : failed (.heapLimit limits.maxHeapBytes) { s with heapBytes := s.heapBytes + bytes })
    (rest : s.heapBytes + bytes ≤ limits.maxHeapBytes →
      Ends limits { s with heapBytes := s.heapBytes + bytes } (next ()) ok failed) :
    Ends limits s (charge bytes >>= next) ok failed := by
  unfold Ends at rest ⊢
  rw [bind_apply, charge_run]
  by_cases beyond : s.heapBytes + bytes > limits.maxHeapBytes
  · rwa [if_pos beyond]
  · rw [if_neg beyond]
    exact rest (Nat.not_lt.1 beyond)

theorem Ends.tick_bind {next : Unit → Run α}
    (holds : limits.maxSteps ≤ s.steps →
      failed (.stepLimit limits.maxSteps) { s with steps := s.steps + 1 })
    (rest : s.steps < limits.maxSteps →
      Ends limits { s with steps := s.steps + 1 } (next ()) ok failed) :
    Ends limits s (tick >>= next) ok failed := by
  unfold Ends at rest ⊢
  rw [bind_apply, tick_run]
  dsimp only
  by_cases beyond : s.steps + 1 > limits.maxSteps
  · rw [if_pos beyond]
    exact holds (Nat.le_of_lt_succ beyond)
  · rw [if_neg beyond]
    exact rest (Nat.not_lt.1 beyond)

theorem ends_tick : Ends limits s tick (fun _ => s.Counts) fun _ => s.Counts := by
  rw [← bind_pure tick]
  have counts : s.Counts { s with steps := s.steps + 1 } := ⟨s.steps + 1, s.heapBytes, rfl⟩
  exact .tick_bind (fun _ => counts) fun _ => .pure counts

theorem Ends.display_bind {v : Value} {next : String → Run α}
    (holds : ∀ cause steps, failed cause { s with steps })
    (rest : ∀ t steps, Ends limits { s with steps } (next t) ok failed) :
    Ends limits s (display v >>= next) ok failed := by
  unfold Ends
  rw [bind_apply, display_run]
  cases Text.write s.heap v (textBounds limits) ⟨"", s.steps⟩ with
  | ok _ sink => exact rest sink.text sink.steps
  | error cause sink => exact holds cause sink.steps

theorem ends_display (v : Value) :
    Ends limits s (display v) (fun _ => s.Counts) fun _ => s.Counts := by
  rw [← bind_pure (display v)]
  exact .display_bind (fun _ steps => ⟨steps, s.heapBytes, rfl⟩)
    fun _ steps => .pure ⟨steps, s.heapBytes, rfl⟩

theorem ends_string (t : String) :
    Ends limits s (string t) (fun _ => s.Counts) fun _ => s.Counts := by
  have charged : s.Counts { s with heapBytes := s.heapBytes + t.utf8ByteSize } :=
    ⟨s.steps, _, rfl⟩
  exact .limits_bind (.guard (.refl s) fun _ => .charge_bind charged fun _ => .pure charged)

theorem ends_alloc {o : Object} (plain : o.IsPlain) :
    Ends limits s (alloc o) (fun _ => s.Minor) fun _ => s.Minor := by
  have counted (steps heapBytes : Nat) : s.Minor { s with steps, heapBytes } := ⟨.refl _, rfl, rfl⟩
  refine .tick_bind (fun _ => counted _ _) fun _ => .charge_bind (counted _ _) fun _ => ?_
  refine .addObject_bind (.pure ?_)
  exact ⟨.add plain, rfl, rfl⟩

theorem Plain.ends {paid : Nat} (plain : Plain paid run) :
    Ends limits s run (fun _ => s.Minor) fun _ => s.Minor := by
  induction plain generalizing s with
  | pure a => exact .refl s
  | fault => exact .refl s
  | seq _ _ first rest =>
    exact first.bind fun a s' minor =>
      (rest a).mono (fun _ _ => minor.trans) fun _ _ => minor.trans
  | heap _ _ rest => exact rest s.heap
  | building _ rest => exact rest s.building
  | roomy _ rest => exact .guard (.refl s) fun _ => rest
  | charge _ rest =>
    have charged (heapBytes : Nat) : s.Minor { s with heapBytes } := ⟨.refl _, rfl, rfl⟩
    exact .charge_bind (charged _) fun _ => rest.mono (fun _ _ => (charged _).trans)
      fun _ _ => (charged _).trans
  | string t => exact (ends_string t).mono (fun _ _ => .of_counts) fun _ _ => .of_counts
  | alloc plain => exact ends_alloc plain
  | modify ref adds => exact ⟨.modify adds.minor ref, rfl, rfl⟩

theorem ends_textOf (v : Value) :
    Ends limits s (Native.textOf v) (fun _ => s.Counts) fun _ => s.Counts :=
  (ends_display v).bind fun _ _ counts => (ends_string _).mono (fun _ _ => counts.trans)
    fun _ _ => counts.trans

theorem ends_rename (receiver value : Value) :
    Ends limits s
      (do Native.nodeSet "id" receiver value; return Value.void)
      (fun _ s' => ∃ ref n id, receiver = .object ref ∧ s.heap.node ref = .ok n ∧
        s.heapBytes + id.utf8ByteSize ≤ limits.maxHeapBytes ∧ s' = { s with
          heap := s.heap.modifyNode ref fun n => { n with id := id }
          heapBytes := s.heapBytes + id.utf8ByteSize })
      fun cause s' => cause.isStepLimit = false ∧
        ∃ bytes, s' = { s with heapBytes := s.heapBytes + bytes } := by
  have stepless {β : Type} {x : Except FaultCause β} [Stepless x] (bytes : Nat) (cause : FaultCause)
      (failed : x = .error cause) : cause.isStepLimit = false ∧ ∃ bytes',
        { s with heapBytes := s.heapBytes + bytes } =
          { s with heapBytes := s.heapBytes + bytes' } :=
    ⟨Stepless.stepless failed, bytes, rfl⟩
  simp only [Native.nodeSet_id, bind_assoc]
  refine .lift_bind (stepless 0) fun id _ => .charge_bind ⟨rfl, _, rfl⟩ fun fits => ?_
  refine .lift_bind (stepless _) fun ref is => .heap_bind (.lift_bind (stepless _) fun n read => ?_)
  cases Value.asObject_ok is
  exact .modifyHeap_bind (.pure ⟨ref, n, id, rfl, read, fits, rfl⟩)

end Run

end SceneScript
