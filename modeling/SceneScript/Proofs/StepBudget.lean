import SceneScript.Proofs.Machine.Steps
import SceneScript.Proofs.Machine.Traces

/-!
# The step budget

A run ends with at most one step more than its limit allows, and with that one step exactly if it
has run out of steps. Everything that it did up to any of its states has been charged
(`Loaded.step_budget`).
-/

namespace SceneScript

open Run

/-! ## Work -/

structure Tally where
  statements : Nat := 0
  rounds : Nat := 0
  expressions : Nat := 0
  /-- The objects that were added to the heap for the script. -/
  allocations : Nat := 0
  /-- The values written in texts. -/
  values : Nat := 0

namespace Tally

def total (t : Tally) : Nat :=
  t.statements + t.rounds + t.expressions + t.allocations + t.values

def add (t u : Tally) : Tally where
  statements := t.statements + u.statements
  rounds := t.rounds + u.rounds
  expressions := t.expressions + u.expressions
  allocations := t.allocations + u.allocations
  values := t.values + u.values

theorem total_add (t u : Tally) : (t.add u).total = t.total + u.total := by
  simp only [total, add]
  omega

end Tally

def Call.tally (c : Call) (s s' : RunState) : Tally where
  allocations := if c.isFree then 0 else s'.heap.size - s.heap.size
  values := c.text?.elim 0 (Text.values s.heap)

namespace Act

def tally (limits : Limits) (s : RunState) : Act → Tally
  | statement _ => { statements := 1 }
  | round _ => { rounds := 1 }
  | expression _ => { expressions := 1 }
  | call c => c.tally s (c.run.last limits s)
  | display v => { values := Text.values s.heap v }
  | builder | string _ => {}

def tallyAll (limits : Limits) : RunState → List Act → Tally
  | _, [] => {}
  | s, a :: rest => (a.tally limits s).add (tallyAll limits (a.run.last limits s) rest)

end Act

/-! ## Acts -/

theorem Edit.steps {limits : Limits} {onNode : Prop} {s s' : RunState} {deed : Option Deed}
    (edit : Edit limits onNode s deed s') : s'.steps = s.steps := by
  cases edit <;> rfl

theorem Call.Builds.text {c : Call} {run : Run Value} (builds : c.Builds run) :
    c.text? = none := by
  cases builds with
  | generate plain => exact plain.text
  | _ => rfl

section

variable {limits : Limits} {s : RunState} (within : s.steps ≤ limits.maxSteps)

include within

theorem Call.takes (c : Call) : Ends limits s c.run
    (fun _ s' => s'.steps = s.steps + (c.tally s s').total ∧ s'.steps ≤ limits.maxSteps)
    fun cause s' => Halts limits.maxSteps s.steps cause s'.steps := by
  have does := c.does
  unfold tally Tally.total
  generalize c.run = run at does ⊢
  cases does with
  | plain is plain =>
    rw [is.charged, is.text]
    refine (plain.allocates within).mono (fun _ _ ⟨allocates, most⟩ => ⟨?_, most⟩) fun _ _ => id
    simpa using allocates.steps
  | text _ text _ charged =>
    rw [charged, text]
    refine (takes_textOf within _).mono (fun _ _ ⟨same, taken, most⟩ => ⟨?_, most⟩) fun _ _ => id
    rw [same, taken]
    simp
  | @rename receiver value =>
    refine (ends_rename receiver value).mono ?_ ?_
    · rintro v s' ⟨ref, n, id, rfl, -, -, rfl⟩
      refine ⟨?_, within⟩
      have size : (s.heap.modifyNode ref fun n => { n with id }).size = s.heap.size :=
        Array.size_modify
      simp [text?, size]
    · rintro cause s' ⟨stepless, bytes, rfl⟩
      exact .refused within stepless
  | builds builds =>
    rw [builds.text]
    refine builds.performs.mono (fun _ _ done => ?_) fun cause _ failed => ?_
    · have steps := done.edit.steps
      refine ⟨?_, steps ▸ within⟩
      obtain free | size := done.size
      · simpa [free] using steps
      · simpa [size] using steps
    · rw [failed.edit.steps]
      exact .refused within failed.stepless

theorem Act.takes (a : Act) : Ends limits s a.run
    (fun _ s' => s'.steps = s.steps + (a.tally limits s).total ∧ s'.steps ≤ limits.maxSteps)
    fun cause s' => Halts limits.maxSteps s.steps cause s'.steps := by
  have ofTakes {α : Type} {run : Run α} {n : Nat} (takes : Takes limits s n run) :
      Ends limits s (run >>= fun _ => pure ())
        (fun _ s' => s'.steps = s.steps + n ∧ s'.steps ≤ limits.maxSteps)
        fun cause s' => Halts limits.maxSteps s.steps cause s'.steps :=
    Ends.bind takes fun _ _ taken => .pure taken.2
  cases a with
  | statement | round | expression =>
    exact (takes_tick within).mono (fun _ _ taken => taken.2) fun _ _ => id
  | builder => exact ⟨rfl, within⟩
  | display v =>
    have values : Tally.total { values := Text.values s.heap v } = Text.values s.heap v := by
      simp [Tally.total]
    rw [tally, values]
    exact ofTakes (takes_display within v)
  | string t => exact ofTakes (takes_string within t)
  | call c =>
    refine Ends.bind (.intro (fun v s' ran => ?_) fun f s' failed => ?_) fun _ _ => .pure
    · rw [tally, last_of_ok ran]
      exact (c.takes within).of_ok ran
    · exact (c.takes within).of_error failed

theorem Act.takes_runAll (acts : List Act) : Ends limits s (runAll acts)
    (fun _ s' => s'.steps = s.steps + (tallyAll limits s acts).total ∧ s'.steps ≤ limits.maxSteps)
    fun cause s' => Halts limits.maxSteps s.steps cause s'.steps := by
  induction acts generalizing s with
  | nil => exact ⟨rfl, within⟩
  | cons a rest ih =>
    refine .intro (fun _ s' ran => ?_) fun f s' failed => ?_
    · obtain ⟨s₁, first, ran⟩ := runAll_cons ran
      obtain ⟨taken, within₁⟩ := (a.takes within).of_ok first
      obtain ⟨taken', within'⟩ := (ih within₁).of_ok ran
      refine ⟨?_, within'⟩
      rw [tallyAll, last_of_ok first, Tally.total_add, taken', taken, Nat.add_assoc]
    · have halts : Ends limits s (runAll (a :: rest)) (fun _ _ => True) fun cause s' =>
          Halts limits.maxSteps s.steps cause s'.steps := by
        refine Ends.bind (a.takes within) fun _ s₁ ⟨taken, within₁⟩ => ?_
        refine (ih within₁).mono (fun _ _ _ => trivial) fun _ _ halts => halts.earlier ?_
        exact taken ▸ Nat.le_add_right _ _
      exact halts.of_error failed

end

/-! ## Programs -/

theorem Act.takes_start (limits : Limits) (n : Nat) (acts : List Act) :
    Ends limits (.start n) (runAll acts)
      (fun _ s => s.steps = (tallyAll limits (.start n) acts).total ∧ s.steps ≤ limits.maxSteps)
      fun cause s => Halts limits.maxSteps 0 cause s.steps :=
  (takes_runAll (Nat.zero_le limits.maxSteps : (RunState.start n).steps ≤ _) acts).mono
    (fun _ _ ⟨taken, within⟩ => ⟨taken.trans (Nat.zero_add _), within⟩) fun _ _ => id

namespace Loaded

variable {loaded : Loaded} {limits : Limits} {n : Nat} {acts : List Act} {s : RunState}

theorem takes_body (loaded : Loaded) (limits : Limits) (n : Nat) :
    Ends limits (.start n) loaded.body (fun _ s => s.steps ≤ limits.maxSteps)
      fun cause s => Halts limits.maxSteps 0 cause s.steps := by
  have takes := Act.takes_start limits n (loaded.trace limits (.start n))
  have follows := loaded.follows_body limits (.start n)
  refine .intro (fun v s ran => ?_) fun f s failed => ?_
  · rw [ran] at follows
    exact (takes.of_ok follows).2
  · rw [failed] at follows
    obtain ⟨f', failed', same⟩ | ⟨acted, stepless⟩ := follows
    · exact same ▸ takes.of_error failed'
    · exact .other stepless (Nat.zero_le _) (takes.of_ok acted).2

theorem steps_of_passes (passes : loaded.Passes limits n acts s) :
    (Act.tallyAll limits (.start n) acts).total = s.steps ∧ s.steps ≤ limits.maxSteps := by
  obtain ⟨taken, within⟩ := (Act.takes_start limits n acts).of_ok passes.2
  exact ⟨taken.symm, within⟩

theorem steps_le_last (passes : loaded.Passes limits n acts s) :
    s.steps ≤ (loaded.body.last limits (.start n)).steps := by
  obtain ⟨⟨more, whole⟩, ran⟩ := passes
  have within := (Act.takes_start limits n acts).of_ok ran
  have forward : Ends limits s (Act.runAll more) (fun _ s' => s.steps ≤ s'.steps)
      fun _ s' => s.steps ≤ s'.steps :=
    (Act.takes_runAll within.2 more).mono (fun _ _ taken => taken.1 ▸ Nat.le_add_right _ _)
      fun _ _ halts => halts.grown
  have same : (Act.runAll (acts ++ more)).last limits (.start n) =
      (Act.runAll more).last limits s := by
    rw [Act.runAll_append, last, bind_apply, ran]
    rfl
  rw [← loaded.follows_body.last, ← whole, same]
  exact forward.last

theorem steps_invoke (loaded : Loaded) (limits : Limits) (n : Nat) :
    (loaded.invoke limits n).steps = (loaded.body.last limits (.start n)).steps := by
  obtain ⟨f, s, ran, is⟩ | ⟨ref, s, m, ran, -, is⟩ | ⟨v, s, f, ran, -, is⟩ :=
    invoke_cases loaded limits n
  all_goals rw [is, Run.last, ran]

theorem step_budget (loaded : Loaded) (limits : Limits) (n : Nat) :
    (loaded.invoke limits n).steps ≤ limits.maxSteps + 1 ∧
    ((loaded.invoke limits n).steps = limits.maxSteps + 1 ↔
      ∃ f, (loaded.invoke limits n).result = .error f ∧ f.cause = .stepLimit limits.maxSteps) ∧
    (∀ acts s, loaded.Passes limits n acts s →
      (Act.tallyAll limits (.start n) acts).total = s.steps ∧
      s.steps ≤ (loaded.invoke limits n).steps ∧ s.steps ≤ limits.maxSteps) ∧
    ∀ m, (loaded.invoke limits n).result = .ok m →
      (Act.tallyAll limits (.start n) (loaded.trace limits (.start n))).total =
        (loaded.invoke limits n).steps ∧
      (loaded.invoke limits n).steps ≤ limits.maxSteps := by
  have ends := loaded.takes_body limits n
  have passes := loaded.follows_body limits (.start n)
  refine ⟨?_, ?_, fun acts s passes => ?_, fun m given => ?_⟩
  · rw [steps_invoke]
    exact (ends.mono (fun _ _ => Nat.le_succ_of_le) fun _ _ halts => halts.le_succ).last
  -- Once the body has ended, what is left takes no step and passes no limit of steps.
  · obtain ⟨f, s, ran, is⟩ | ⟨ref, s, m, ran, -, is⟩ | ⟨v, s, f, ran, stepless, is⟩ :=
      invoke_cases loaded limits n
    · rw [is, (ends.of_error ran).eq_succ_iff]
      exact ⟨fun spent => ⟨f, rfl, spent⟩, fun ⟨_, same, spent⟩ => Except.error.inj same ▸ spent⟩
    · have within := ends.of_ok ran
      rw [is]
      exact iff_of_false (by dsimp only; omega) fun ⟨_, same, _⟩ => nomatch same
    · have within := ends.of_ok ran
      rw [is]
      refine iff_of_false (by dsimp only; omega) fun ⟨_, same, spent⟩ => ?_
      rw [Except.error.inj same, spent] at stepless
      cases stepless
  · obtain ⟨total, within⟩ := steps_of_passes passes
    exact ⟨total, (steps_invoke loaded limits n).symm ▸ steps_le_last passes, within⟩
  · obtain ⟨ref, s, ran, -, is⟩ := invoke_ok given
    rw [ran] at passes
    rw [is]
    exact steps_of_passes ⟨List.prefix_rfl, passes⟩

end Loaded

end SceneScript
