import Mathlib.Algebra.BigOperators.Group.List.Basic
import SceneScript.Proofs.Machine.Edits

/-!
# Steps

Each statement, each round of a loop, each expression, each object that a script allocates and each
value that is written takes one step. `Tally` counts them act by act, and an act that succeeds has
taken as many steps as it tallies (`Act.takes`). An act that fails leaves the limit on steps behind
only by running out of them, and then by one.
-/

namespace SceneScript

open Run

/-- How many steps a run has taken where it fails: beyond the limit only for lack of steps. -/
inductive Halts (limit before : Nat) : FaultCause → Nat → Prop
  | spent : before ≤ limit → Halts limit before (.stepLimit limit) (limit + 1)
  | other {cause : FaultCause} {after : Nat} : cause.isStepLimit = false → before ≤ after →
      after ≤ limit → Halts limit before cause after

namespace Halts

variable {limit before between after : Nat} {cause : FaultCause}

theorem beyond (within : before ≤ limit) (beyond : limit ≤ before) :
    Halts limit before (.stepLimit limit) (before + 1) := by
  cases Nat.le_antisymm within beyond
  exact .spent within

theorem refused (within : before ≤ limit) (stepless : cause.isStepLimit = false) :
    Halts limit before cause before :=
  .other stepless (Nat.le_refl _) within

theorem earlier (halts : Halts limit between cause after) (grown : before ≤ between) :
    Halts limit before cause after := by
  cases halts with
  | spent within => exact .spent (Nat.le_trans grown within)
  | other mild grown' within => exact .other mild (Nat.le_trans grown grown') within

theorem grown (halts : Halts limit before cause after) : before ≤ after := by
  cases halts with
  | spent within => exact Nat.le_succ_of_le within
  | other _ grown => exact grown

theorem le_succ (halts : Halts limit before cause after) : after ≤ limit + 1 := by
  cases halts with
  | spent => exact Nat.le_refl _
  | other _ _ within => exact Nat.le_succ_of_le within

theorem eq_succ_iff (halts : Halts limit before cause after) :
    after = limit + 1 ↔ cause = .stepLimit limit := by
  cases halts with
  | spent => exact iff_of_true rfl rfl
  | other mild _ within =>
    refine iff_of_false (by omega) ?_
    rintro rfl
    cases mild

end Halts

/-! ## Texts -/

namespace Text

/-- The values that the text of a value shows, itself included. The items of an array are counted by
`item`. -/
def valuesOne (h : Heap) (item : Option (Value → Nat)) : Value → Nat
  | .object ref => match h.objects[ref]?, item with
    | some (.array items), some item => 1 + (items.toList.map item).sum
    | _, _ => 1
  | _ => 1

def valuesNested (h : Heap) : Nat → Value → Nat
  | 0 => valuesOne h none
  | depth + 1 => valuesOne h (some (valuesNested h depth))

def values (h : Heap) (v : Value) : Nat :=
  valuesNested h maxDepth v

def Taken (b : Bounds) (n : Nat) (sink : Sink) : EStateM.Result FaultCause Sink Unit → Prop
  | .ok _ sink' => sink'.steps = sink.steps + n ∧ sink'.steps ≤ b.maxSteps
  | .error cause sink' => Halts b.maxSteps sink.steps cause sink'.steps

def Takes (b : Bounds) (n : Nat) (writer : Writer Unit) : Prop :=
  ∀ sink, sink.steps ≤ b.maxSteps → Taken b n sink (writer b sink)

variable {b : Bounds} {m n : Nat} {item : Value → Writer Unit} {count : Value → Nat} {h : Heap}

theorem Takes.bind {writer : Writer Unit} {next : Unit → Writer Unit} (first : Takes b m writer)
    (rest : ∀ a, Takes b n (next a)) : Takes b (m + n) (writer >>= next) := by
  intro sink within
  have ofFirst := first sink within
  change Taken b (m + n) sink (EStateM.bind (writer b) (fun a => next a b) sink)
  unfold EStateM.bind
  cases wrote : writer b sink with
  | error cause sink' =>
    rw [wrote] at ofFirst
    exact ofFirst
  | ok a sink₁ =>
    rw [wrote] at ofFirst
    obtain ⟨taken, within₁⟩ := ofFirst
    have ofRest := rest a sink₁ within₁
    dsimp only
    cases wrote' : next a b sink₁ with
    | ok _ sink' =>
      rw [wrote'] at ofRest
      exact ⟨by rw [ofRest.1, taken, Nat.add_assoc], ofRest.2⟩
    | error cause sink' =>
      rw [wrote'] at ofRest
      exact ofRest.earlier (taken ▸ Nat.le_add_right _ _)

theorem takes_pure : Takes b 0 (pure ()) :=
  fun _ within => ⟨rfl, within⟩

theorem takes_step (spent : b.outOfSteps = .stepLimit b.maxSteps) : Takes b 1 step := by
  intro sink within
  change Taken b 1 sink ((if sink.steps + 1 > b.maxSteps then throw b.outOfSteps else pure () :
    Writer Unit) b { sink with steps := sink.steps + 1 })
  split
  · next beyond =>
    change Halts b.maxSteps sink.steps b.outOfSteps (sink.steps + 1)
    rw [spent]
    exact .beyond within (Nat.le_of_lt_succ beyond)
  · next fits => exact ⟨rfl, Nat.not_lt.1 fits⟩

theorem takes_add (t : String) : Takes b 0 (add t) := by
  intro sink within
  let append : Writer Unit := modify fun s => { s with text := s.text ++ t }
  let size := sink.text.utf8ByteSize + t.utf8ByteSize
  change Taken b 0 sink ((if size > b.maxLen then throw (.stringLimit size b.maxLen) >>= fun _ =>
    append else append : Writer Unit) b sink)
  split
  · exact .refused within rfl
  · exact ⟨rfl, within⟩

theorem takes_writeTail (each : ∀ v, Takes b (count v) (item v)) (vs : List Value) :
    Takes b (vs.map count).sum (writeTail item vs) := by
  induction vs with
  | nil => exact takes_pure
  | cons v rest ih =>
    have whole := (takes_add ", ").bind fun _ => (each v).bind fun _ => ih
    rwa [Nat.zero_add] at whole

theorem takes_writeItems (each : ∀ v, Takes b (count v) (item v)) (vs : List Value) :
    Takes b (vs.map count).sum (writeItems item vs) := by
  cases vs with
  | nil => exact takes_pure
  | cons v rest => exact (each v).bind fun _ => takes_writeTail each rest

theorem takes_writeOne (spent : b.outOfSteps = .stepLimit b.maxSteps)
    {item : Option (Value → Writer Unit)} {count : Option (Value → Nat)}
    (each : Option.Rel (fun count item => ∀ v, Takes b (count v) (item v)) count item) (v : Value) :
    Takes b (valuesOne h count v) (writeOne h item v) := by
  have line (t : String) : Takes b 1 (step >>= fun _ => add t) :=
    (takes_step spent).bind fun _ => takes_add t
  unfold writeOne valuesOne
  cases v with
  | object ref =>
    dsimp only
    cases h.objects[ref]? with
    | none => exact line _
    | some o =>
      cases o with
      | array items =>
        cases each with
        | none => exact line _
        | some each =>
          have inside := (takes_add "[").bind fun _ =>
            (takes_writeItems each items.toList).bind fun _ => takes_add "]"
          rw [Nat.zero_add, Nat.add_zero] at inside
          exact (takes_step spent).bind fun _ => inside
      | _ => exact line _
  | _ => exact line _

theorem takes_writeNested (spent : b.outOfSteps = .stepLimit b.maxSteps) (depth : Nat) (v : Value) :
    Takes b (valuesNested h depth v) (writeNested h depth v) := by
  induction depth generalizing v with
  | zero => exact takes_writeOne spent .none v
  | succ depth ih => exact takes_writeOne spent (.some ih) v

theorem takes_write (limits : Limits) (h : Heap) (v : Value) :
    Takes (textBounds limits) (values h v) (write h v) :=
  takes_writeNested rfl maxDepth v

/-- An array, its two items, and the item of the array in it. -/
example : values ⟨#[.array #[.int 1, .object 1], .array #[.null]]⟩ (.object 0) = 4 := rfl

end Text

/-! ## Runs -/

structure RunState.Allocates (s s' : RunState) : Prop where
  grown : s.heap.size ≤ s'.heap.size
  steps : s'.steps = s.steps + (s'.heap.size - s.heap.size)

namespace RunState.Allocates

variable {s s₁ s' : RunState}

theorem of_same (size : s'.heap.size = s.heap.size) (steps : s'.steps = s.steps) :
    s.Allocates s' :=
  ⟨Nat.le_of_eq size.symm, by rw [size, steps, Nat.sub_self, Nat.add_zero]⟩

theorem trans (first : s.Allocates s₁) (second : s₁.Allocates s') : s.Allocates s' := by
  obtain ⟨grown, steps⟩ := first
  obtain ⟨grown', steps'⟩ := second
  exact ⟨Nat.le_trans grown grown', by omega⟩

theorem forward (allocates : s.Allocates s') : s.steps ≤ s'.steps :=
  allocates.steps ▸ Nat.le_add_right _ _

end RunState.Allocates

namespace Run

variable {α : Type} {limits : Limits} {s : RunState} {run : Run α}

def Takes (limits : Limits) (s : RunState) (n : Nat) (run : Run α) : Prop :=
  Ends limits s run
    (fun _ s' => s'.heap = s.heap ∧ s'.steps = s.steps + n ∧ s'.steps ≤ limits.maxSteps)
    fun cause s' => Halts limits.maxSteps s.steps cause s'.steps

section

variable (within : s.steps ≤ limits.maxSteps)

include within

theorem takes_tick : Takes limits s 1 tick := by
  rw [← bind_pure tick]
  exact .tick_bind (fun beyond => .beyond within beyond) fun room => .pure ⟨rfl, rfl, room⟩

theorem takes_string (t : String) : Takes limits s 0 (string t) :=
  .limits_bind (.guard (.refused within rfl) fun _ =>
    .charge_bind (.refused within rfl) fun _ => .pure ⟨rfl, rfl, within⟩)

theorem takes_display (v : Value) : Takes limits s (Text.values s.heap v) (display v) := by
  have written := Text.takes_write limits s.heap v ⟨"", s.steps⟩ within
  unfold Takes Ends
  rw [display_run]
  cases wrote : Text.write s.heap v (textBounds limits) ⟨"", s.steps⟩ with
  | ok _ sink =>
    rw [wrote] at written
    exact ⟨rfl, written⟩
  | error cause sink =>
    rw [wrote] at written
    exact written

theorem takes_textOf (v : Value) : Takes limits s (Text.values s.heap v) (Native.textOf v) := by
  refine Ends.bind (takes_display within v) fun t s' ⟨same, shown, within'⟩ => ?_
  refine (takes_string within' t).mono (fun _ _ ⟨same', taken, most⟩ => ?_) fun _ _ halts => ?_
  · exact ⟨same'.trans same, taken.trans shown, most⟩
  · exact halts.earlier (shown ▸ Nat.le_add_right _ _)

theorem Plain.allocates {paid : Nat} (plain : Plain paid run) : Ends limits s run
    (fun _ s' => s.Allocates s' ∧ s'.steps ≤ limits.maxSteps)
    fun cause s' => Halts limits.maxSteps s.steps cause s'.steps := by
  induction plain generalizing s with
  | pure a => exact ⟨.of_same rfl rfl, within⟩
  | fault cause stepless => exact .refused within stepless
  | seq _ _ first rest =>
    refine (first within).bind fun a s₁ ⟨allocates, within₁⟩ => ?_
    refine (rest a within₁).mono (fun _ _ ends => ⟨allocates.trans ends.1, ends.2⟩) ?_
    exact fun _ _ halts => halts.earlier allocates.forward
  | heap _ _ rest => exact rest s.heap within
  | building _ rest => exact rest s.building within
  | roomy _ rest => exact .guard (.refused within rfl) fun _ => rest within
  | @charge _ _ bytes _ _ rest =>
    let charged : RunState := { s with heapBytes := s.heapBytes + bytes }
    refine .charge_bind (.refused within rfl) fun _ => ?_
    refine (rest (s := charged) within).mono (fun _ _ ends => ?_) fun _ _ => id
    exact ⟨⟨ends.1.grown, ends.1.steps⟩, ends.2⟩
  | string t =>
    exact .limits_bind (.guard (.refused within rfl) fun _ =>
      .charge_bind (.refused within rfl) fun _ => .pure ⟨.of_same rfl rfl, within⟩)
  | @alloc _ o =>
    refine .tick_bind (fun beyond => .beyond within beyond) fun room => ?_
    refine .charge_bind (.other rfl (Nat.le_succ _) room) fun _ => .addObject_bind (.pure ?_)
    have size : (s.heap.add o).2.size = s.heap.size + 1 := Array.size_push _
    exact ⟨⟨by dsimp only; omega, by dsimp only; omega⟩, room⟩
  | modify => exact ⟨.of_same Array.size_modify rfl, within⟩

end

end Run

end SceneScript
