import SceneScript.Proofs.Machine.Calls
import SceneScript.Proofs.Machine.Steps

/-!
# How calls that build nothing conclude

Such a call gives a value that it was given, reads off the heap or makes, adds one object at the end
of the heap, or changes one object in place. `Effect` lists all of this together with the objects
that may be changed. Where a call fails only the counters have moved (`Concludes`): all that can
fail comes before anything is changed.
-/

namespace SceneScript

open Run

/-! ## Counters -/

def RunState.Spends (s s' : RunState) : Prop :=
  ∃ steps heapBytes, s' = { s with steps, heapBytes } ∧ s.steps ≤ steps ∧ s.heapBytes ≤ heapBytes

namespace RunState.Spends

variable {s s₁ s' : RunState}

theorem refl (s : RunState) : s.Spends s :=
  ⟨s.steps, s.heapBytes, rfl, Nat.le_refl _, Nat.le_refl _⟩

theorem trans (first : s.Spends s₁) (second : s₁.Spends s') : s.Spends s' := by
  obtain ⟨steps₁, heapBytes₁, rfl, moreSteps₁, moreBytes₁⟩ := first
  obtain ⟨steps, heapBytes, rfl, moreSteps, moreBytes⟩ := second
  exact ⟨steps, heapBytes, rfl, Nat.le_trans moreSteps₁ moreSteps,
    Nat.le_trans moreBytes₁ moreBytes⟩

theorem steps (s : RunState) {n : Nat} (more : s.steps ≤ n) : s.Spends { s with steps := n } :=
  ⟨n, s.heapBytes, rfl, more, Nat.le_refl _⟩

theorem bytes (s : RunState) (n : Nat) : s.Spends { s with heapBytes := s.heapBytes + n } :=
  ⟨s.steps, _, rfl, Nat.le_refl _, Nat.le_add_right _ _⟩

end RunState.Spends

/-! ## Effects -/

/-- Where the text of the value comes from that a call gives: there is none, the call was given the
value, it made a string that is short enough, or it read the value off the heap. -/
inductive Value.Comes (limits : Limits) (given : List Value) (h : Heap) : Value → Prop
  | textless {v : Value} : v.textBytes = 0 → Comes limits given h v
  | given {v : Value} : v ∈ given → Comes limits given h v
  | made {t : String} : t.utf8ByteSize ≤ limits.maxStringLen → Comes limits given h (.string t)
  | element {ref : Nat} {items : Array Value} {v : Value} : h.array ref = .ok items → v ∈ items →
      Comes limits given h v
  | nodeId {ref : Nat} {n : NodeObject} : h.node ref = .ok n → Comes limits given h (.string n.id)
  | materialId {ref : Nat} {m : MaterialObject} : h.material ref = .ok m →
      Comes limits given h (.string m.id)

/-- One object is changed in place: the numbers of a vector or a colour, the surface or the id of a
material, the id of a node, or an array that has room gets one more element. -/
inductive Heap.Amends (limits : Limits) (given : List Value) (ref : Nat) (h : Heap) : Heap → Prop
  | vector (v : Vec3) : Amends limits given ref h (h.setVector ref v)
  | color (c : Rgba) : Amends limits given ref h (h.setColor ref c)
  | surface (a : ColorAttribute) : Amends limits given ref h (h.modifyMaterial ref (·.apply a))
  | materialId {id : String} : .string id ∈ given →
      Amends limits given ref h (h.modifyMaterial ref fun m => { m with id := id })
  | nodeId {id : String} : .string id ∈ given →
      Amends limits given ref h (h.modifyNode ref fun n => { n with id := id })
  | push {v : Value} {items : Array Value} : v ∈ given → h.array ref = .ok items →
      items.size < limits.maxArrayLen → Amends limits given ref h (h.push ref v)

/-- What a call that builds nothing gives and does where it succeeds. It may only change the objects
that `may` names. -/
inductive Effect (limits : Limits) (given : List Value) (may : Nat → Prop) (s : RunState) :
    Value → RunState → Prop
  | found {v : Value} {s' : RunState} : s.Spends s' → v.Comes limits given s.heap →
      Effect limits given may s v s'
  | added {o : Object} {s' : RunState} : s.Spends s' → o.IsPlain → o.contentBytes = 0 →
      Effect limits given may s (.object s.heap.size) { s' with heap := (s.heap.add o).2 }
  | amended {ref : Nat} {v : Value} {h : Heap} {s' : RunState} : s.Spends s' → may ref →
      s.heap.Amends limits given ref h → v ∈ given ∨ v = .void →
      Effect limits given may s v { s' with heap := h }

namespace Run

variable {α β : Type} {limits : Limits} {given : List Value} {may : Nat → Prop} {s : RunState}

/-- A run with such an effect, which only moves counters where it fails. What it gives stands for a
value. -/
def Concludes (limits : Limits) (given : List Value) (may : Nat → Prop) (s : RunState)
    (value : α → Value) (run : Run α) : Prop :=
  Ends limits s run (fun a => Effect limits given may s (value a)) fun _ => s.Spends

def Looks (limits : Limits) (s : RunState) (run : Run α) : Prop :=
  Ends limits s run (fun _ s' => s' = s) fun _ s' => s' = s

namespace Looks

variable {run : Run α} {next : α → Run β}

theorem pure (a : α) : Looks limits s (pure a) :=
  Ends.pure rfl

theorem fault (cause : FaultCause) : Looks limits s (fault cause : Run α) :=
  Ends.fault rfl

theorem lift (x : Except FaultCause α) : Looks limits s (liftM x : Run α) := by
  cases x with
  | ok a => exact pure a
  | error cause => exact fault cause

theorem ends_bind {ok : β → RunState → Prop} {failed : FaultCause → RunState → Prop}
    (looks : Looks limits s run) (holds : ∀ cause, failed cause s)
    (rest : ∀ a, Ends limits s (next a) ok failed) : Ends limits s (run >>= next) ok failed := by
  refine Ends.bind (looks.mono (fun _ _ => id) ?_) ?_
  · rintro cause s' rfl
    exact holds cause
  · rintro a s' rfl
    exact rest a

theorem bind (looks : Looks limits s run) (rest : ∀ a, Looks limits s (next a)) :
    Looks limits s (run >>= next) :=
  looks.ends_bind (fun _ => rfl) rest

theorem heap_bind {next : Heap → Run α} (rest : Looks limits s (next s.heap)) :
    Looks limits s (heap >>= next) :=
  rest

end Looks

theorem write_beyond {b : Text.Bounds} {sink : Text.Sink} (h : Heap) (v : Value)
    (beyond : b.maxSteps < sink.steps + 1) :
    Text.write h v b sink = .error b.outOfSteps { sink with steps := sink.steps + 1 } := by
  have failed : Text.step b sink = .error b.outOfSteps { sink with steps := sink.steps + 1 } := by
    change (if sink.steps + 1 > b.maxSteps then throw b.outOfSteps else Pure.pure () :
      Text.Writer Unit) b { sink with steps := sink.steps + 1 } = _
    rw [if_pos beyond]
    rfl
  rw [Text.write, Text.maxDepth, Text.writeNested]
  unfold Text.writeOne
  change EStateM.bind (Text.step b) _ sink = _
  rw [EStateM.bind, failed]

theorem ends_display_spends (v : Value) :
    Ends limits s (display v) (fun _ => s.Spends) fun _ => s.Spends := by
  by_cases within : s.steps ≤ limits.maxSteps
  · have takes := takes_display within v
    unfold Takes Ends at takes
    unfold Ends
    rw [display_run] at takes ⊢
    cases wrote : Text.write s.heap v (textBounds limits) ⟨"", s.steps⟩ with
    | ok _ sink =>
      rw [wrote] at takes
      have taken : sink.steps = s.steps + Text.values s.heap v := takes.2.1
      exact .steps s (taken ▸ Nat.le_add_right _ _)
    | error cause sink =>
      rw [wrote] at takes
      exact .steps s takes.grown
  · have failed : Text.write s.heap v (textBounds limits) ⟨"", s.steps⟩ =
        .error (.stepLimit limits.maxSteps) ⟨"", s.steps + 1⟩ :=
      write_beyond s.heap v (Nat.lt_succ_of_lt (Nat.not_le.1 within))
    unfold Ends
    rw [display_run, failed]
    exact .steps s (Nat.le_succ _)

/-! ## Rules -/

theorem effect_after {s₁ s' : RunState} {v : Value} (spends : s.Spends s₁)
    (effect : Effect limits given may s₁ v s') : Effect limits given may s v s' := by
  obtain ⟨steps, heapBytes, is, -⟩ := id spends
  have same : s₁.heap = s.heap := by rw [is]
  cases effect with
  | found more comes => exact .found (spends.trans more) (same ▸ comes)
  | added more plain empty =>
    rw [same]
    exact .added (spends.trans more) plain empty
  | amended more named amends gives =>
    exact .amended (spends.trans more) named (same ▸ amends) gives

namespace Concludes

variable {value : α → Value} {run : Run α} {next : β → Run α}

theorem pure {a : α} (comes : (value a).Comes limits given s.heap) :
    Concludes limits given may s value (pure a) :=
  Ends.pure (.found (.refl s) comes)

theorem textless {a : α} (none : (value a).textBytes = 0) :
    Concludes limits given may s value (Pure.pure a) :=
  pure (.textless none)

theorem fault (cause : FaultCause) :
    Concludes limits given may s value (Run.fault cause : Run α) :=
  Ends.fault (.refl s)

theorem lift {x : Except FaultCause β}
    (rest : ∀ b, x = .ok b → Concludes limits given may s value (next b)) :
    Concludes limits given may s value (liftM x >>= next) :=
  Ends.lift_bind (fun _ _ => .refl s) rest

theorem looks {first : Run β} (looks : Looks limits s first)
    (rest : ∀ b, Concludes limits given may s value (next b)) :
    Concludes limits given may s value (first >>= next) :=
  looks.ends_bind (fun _ => .refl s) rest

theorem heap {next : Heap → Run α} (rest : Concludes limits given may s value (next s.heap)) :
    Concludes limits given may s value (Run.heap >>= next) :=
  rest

theorem building {next : Building → Run α}
    (rest : Concludes limits given may s value (next s.building)) :
    Concludes limits given may s value (Run.building >>= next) :=
  rest

theorem after {s₁ : RunState} (spends : s.Spends s₁)
    (concludes : Concludes limits given may s₁ value run) :
    Ends limits s₁ run (fun a => Effect limits given may s (value a)) fun _ => s.Spends :=
  Ends.mono concludes (fun _ _ effect => effect_after spends effect) fun _ _ => spends.trans

theorem charge {bytes : Nat} {next : Unit → Run α}
    (rest : Concludes limits given may { s with heapBytes := s.heapBytes + bytes } value
      (next ())) : Concludes limits given may s value (Run.charge bytes >>= next) :=
  Ends.charge_bind (.bytes s bytes) fun _ => rest.after (.bytes s bytes)

theorem string (t : String) : Concludes limits given may s id (Run.string t) := by
  refine Ends.limits_bind (.guard (.refl s) fun fits => .charge_bind (.bytes s _) fun _ => ?_)
  exact .pure (.found (.bytes s _) (.made (Nat.not_lt.1 fits)))

theorem alloc {o : Object} (plain : o.IsPlain) (empty : o.contentBytes = 0) :
    Concludes limits given may s id (Run.alloc o) := by
  have ticked : s.Spends { s with steps := s.steps + 1 } := .steps s (Nat.le_succ _)
  have charged := ticked.trans (.bytes _ objectBytes)
  refine Ends.tick_bind (fun _ => ticked) fun _ => .charge_bind charged fun _ => ?_
  exact .addObject_bind (.pure (.added charged plain empty))

theorem textOf (v : Value) : Concludes limits given may s id (Native.textOf v) := by
  refine Ends.bind (ends_display_spends v) fun t s₁ spends => ?_
  exact (string t).after spends

theorem modify {ref : Nat} {f : Heap → Heap} {a : α} (named : may ref)
    (amends : s.heap.Amends limits given ref (f s.heap))
    (gives : value a ∈ given ∨ value a = .void) :
    Concludes limits given may s value (modifyHeap f >>= fun _ => Pure.pure a) :=
  Ends.modifyHeap_bind (.pure (.amended (.refl s) named amends gives))

theorem set {ref : Nat} {f : Heap → Heap} (named : may ref)
    (amends : s.heap.Amends limits given ref (f s.heap)) :
    Concludes limits given may s (fun _ => .void) (modifyHeap f) :=
  Ends.modifyHeap (.amended (.refl s) named amends (.inr rfl))

theorem void {run : Run Unit} (sets : Concludes limits given may s (fun _ => .void) run) :
    Concludes limits given may s id (run >>= fun _ => Pure.pure .void) :=
  Ends.bind sets fun _ _ effect => .pure effect

end Concludes

end Run

end SceneScript
