import SceneScript.Proofs.Machine.Metered
import SceneScript.Proofs.Machine.Soundness

/-!
# Rounds of loops

A loop evaluates its bounds and carries out rounds, either all of them (`Exec.iterate_next_iff`) or
as many as come before one that returns or fails (`Exec.iterate_breaks_iff`).
-/

namespace SceneScript

open Run

variable {limits : Limits} {classes : List HostClass} {locals locals' : Array Value}
  {s s' : RunState}

/-! ## Rounds -/

namespace Exec

/-- A number of rounds that are carried out to their ends, one behind the other, the first one for
the given number. -/
inductive Rounds (round : Int → Exec Flow) (limits : Limits) :
    Int → Nat → Array Value → RunState → Array Value → RunState → Prop
  | none {i locals s} : Rounds round limits i 0 locals s locals s
  | more {i n locals s locals₁ s₁ locals₂ s₂} :
      round i locals limits s = .ok (.next, locals₁) s₁ →
      Rounds round limits (i + 1) n locals₁ s₁ locals₂ s₂ →
      Rounds round limits i (n + 1) locals s locals₂ s₂

def Breaks (round : Int → Exec Flow) (limits : Limits) (i : Int) (n : Nat) (locals : Array Value)
    (s : RunState) (outcome : EStateM.Result Fault RunState (Flow × Array Value)) : Prop :=
  ∃ k < n, ∃ locals₁ s₁, Rounds round limits i k locals s locals₁ s₁ ∧
    round (i + k) locals₁ limits s₁ = outcome

variable {round : Int → Exec Flow} {i : Int} {n : Nat}

theorem Breaks.of_next {outcome : EStateM.Result Fault RunState (Flow × Array Value)}
    {locals₁ : Array Value} {s₁ : RunState}
    (ran : round i locals limits s = .ok (.next, locals₁) s₁)
    (ends : ∀ locals' s', outcome ≠ .ok (.next, locals') s') :
    Breaks round limits i (n + 1) locals s outcome ↔
      Breaks round limits (i + 1) n locals₁ s₁ outcome := by
  constructor
  · rintro ⟨k, lt, locals₂, s₂, rounds, broke⟩
    cases rounds with
    | none =>
      rw [Int.natCast_zero, Int.add_zero] at broke
      exact absurd (broke.symm.trans ran) (ends _ _)
    | @more _ k _ _ _ _ _ _ first rest =>
      cases ran.symm.trans first
      refine ⟨k, Nat.lt_of_succ_lt_succ lt, locals₂, s₂, rest, ?_⟩
      rwa [Int.natCast_succ, ← Int.add_assoc, Int.add_right_comm] at broke
  · rintro ⟨k, lt, locals₂, s₂, rounds, broke⟩
    refine ⟨k + 1, Nat.succ_lt_succ lt, locals₂, s₂, .more ran rounds, ?_⟩
    rwa [Int.natCast_succ, ← Int.add_assoc, Int.add_right_comm]

theorem Breaks.of_other {outcome outcome' : EStateM.Result Fault RunState (Flow × Array Value)}
    (ran : round i locals limits s = outcome)
    (ends : ∀ locals' s', outcome ≠ .ok (.next, locals') s') :
    Breaks round limits i (n + 1) locals s outcome' ↔ outcome = outcome' := by
  constructor
  · rintro ⟨k, lt, locals₁, s₁, rounds, broke⟩
    cases rounds with
    | none =>
      rw [Int.natCast_zero, Int.add_zero] at broke
      exact ran.symm.trans broke
    | more first _ => exact absurd (ran.symm.trans first) (ends _ _)
  · rintro rfl
    refine ⟨0, Nat.succ_pos n, locals, s, .none, ?_⟩
    rwa [Int.natCast_zero, Int.add_zero]

theorem iterate_next {body : Int → Exec Flow} {rounds : Nat} {i : Int}
    {locals' : Array Value}
    (ran : iterate body (rounds + 1) i locals limits s = .ok (.next, locals') s') :
    ∃ locals₁ s₁, body i locals limits s = .ok (.next, locals₁) s₁ ∧
      iterate body rounds (i + 1) locals₁ limits s₁ = .ok (.next, locals') s' := by
  obtain ⟨⟨flow, locals₁⟩, s₁, ofRound, ofRest⟩ := Meter.Scales.bind_ok ran
  cases flow with
  | next => exact ⟨locals₁, s₁, ofRound, ofRest⟩
  | give v => cases ofRest

theorem iterate_next_iff : Exec.iterate round n i locals limits s = .ok (.next, locals') s' ↔
    Rounds round limits i n locals s locals' s' := by
  induction n generalizing i locals s with
  | zero =>
    constructor
    · intro ran
      cases ran
      exact .none
    · rintro ⟨⟩
      rfl
  | succ n ih =>
    constructor
    · intro ran
      obtain ⟨locals₁, s₁, ofRound, ofRest⟩ := iterate_next ran
      exact .more ofRound (ih.1 ofRest)
    · rintro (_ | ⟨first, rest⟩)
      exact (Meter.Scales.bind_of_ok first).trans (ih.2 rest)

theorem iterate_breaks_iff {outcome : EStateM.Result Fault RunState (Flow × Array Value)}
    (ends : ∀ locals' s', outcome ≠ .ok (.next, locals') s') :
    Exec.iterate round n i locals limits s = outcome ↔
      Breaks round limits i n locals s outcome := by
  induction n generalizing i locals s with
  | zero =>
    constructor
    · intro ran
      exact absurd ran.symm (ends _ _)
    · rintro ⟨k, lt, -⟩
      cases lt
  | succ n ih =>
    rcases ran : round i locals limits s with ⟨⟨_ | v, locals₁⟩, s₁⟩ | ⟨f, s₁⟩
    · have goesOn : Exec.iterate round (n + 1) i locals limits s =
          Exec.iterate round n (i + 1) locals₁ limits s₁ := Meter.Scales.bind_of_ok ran
      rw [goesOn, Breaks.of_next ran ends]
      exact ih
    · have gives : Exec.iterate round (n + 1) i locals limits s = .ok (.give v, locals₁) s₁ :=
        Meter.Scales.bind_of_ok ran
      rw [gives, Breaks.of_other ran (by simp)]
    · have fails : Exec.iterate round (n + 1) i locals limits s = .error f s₁ :=
        Meter.Scales.bind_of_error ran
      rw [fails, Breaks.of_other ran (by simp)]

end Exec

/-! ## Loops -/

section

variable {p : Position} {slot : Nat} {first last : Code} {body : List Instr} {a b : Int64}
  {s₁ s₂ s₃ : RunState}

theorem Exec.located_congr {exec exec' : Exec α} {locals' : Array Value}
    (same : exec locals limits s = exec' locals' limits s') :
    Exec.located p exec locals limits s = Exec.located p exec' locals' limits s' := by
  unfold Exec.located Run.located
  rw [same]

theorem Instr.exec_loop_of_bounds (ticked : tick limits s = .ok () s₁)
    (from_ : first.eval classes locals limits s₁ = .ok (.int a) s₂)
    (to_ : last.eval classes locals limits s₂ = .ok (.int b) s₃) :
    (Instr.loop p slot first last body).exec classes locals limits s =
      Exec.located p (Exec.iterate (Exec.round classes slot body) (b.toInt - a.toInt).toNat a.toInt)
        locals limits s₃ := by
  have taken : (liftM tick : Exec Unit) locals limits s = .ok ((), locals) s₁ :=
    Meter.Scales.bind_of_ok ticked
  have ofFirst : Exec.eval classes first locals limits s₁ = .ok (.int a, locals) s₂ :=
    Meter.Scales.bind_of_ok from_
  have ofLast : Exec.eval classes last locals limits s₂ = .ok (.int b, locals) s₃ :=
    Meter.Scales.bind_of_ok to_
  rw [Instr.exec_loop]
  refine Exec.located_congr (.trans (Meter.Scales.bind_of_ok taken) ?_)
  refine .trans (Meter.Scales.bind_of_ok ofFirst) ?_
  exact Meter.Scales.bind_of_ok ofLast

theorem Exec.round_of_tick {i : Int} (within : slot < locals.size)
    (ticked : tick limits s = .ok () s₁) :
    Exec.round classes slot body i locals limits s =
      execAll classes body (locals.setIfInBounds slot (.int (Int64.ofInt i))) limits s₁ := by
  have taken : (liftM tick : Exec Unit) locals limits s = .ok ((), locals) s₁ :=
    Meter.Scales.bind_of_ok ticked
  have stored : Exec.store slot (.int (Int64.ofInt i)) locals limits s₁ =
      .ok ((), locals.setIfInBounds slot (.int (Int64.ofInt i))) s₁ := by
    change (if slot < locals.size then _ else _ : Exec Unit) locals limits s₁ = _
    rw [if_pos within]
    rfl
  exact .trans (Meter.Scales.bind_of_ok taken) (Meter.Scales.bind_of_ok stored)

end

end SceneScript
