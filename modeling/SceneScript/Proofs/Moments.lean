import SceneScript.Proofs.HeapBudget
import SceneScript.Proofs.Machine.Rounds
import SceneScript.Proofs.StepBudget

/-!
# Moments of a run

Every statement that a run carries out and every expression that it evaluates is an act of its
trace, and the acts before it lead to the state in which it begins (`Loaded.Executes.meets`,
`Loaded.Sound.meets_evaluated`). So traces leave nothing out, and the budgets hold wherever a
statement or an expression begins (`Loaded.Sound.within_budgets`).
-/

namespace SceneScript

open Run

variable {limits : Limits} {classes : List HostClass} {locals : Array Value} {a : Act}
  {s s' s₁ : RunState}

def Trace.Meets (limits : Limits) (t : Trace) (s : RunState) (a : Act) (s' : RunState) : Prop :=
  ∃ before, before ++ [a] <+: t limits s ∧ Act.runAll before limits s = .ok () s'

namespace Trace.Meets

variable {α : Type} {t : Trace} {run : Run α} {next : α → Trace} {r : α} {b : Act}

theorem left (meets : t.Meets limits s a s') : (t.andThen run next).Meets limits s a s' := by
  obtain ⟨before, leads, ran⟩ := meets
  exact ⟨before, leads.trans (List.prefix_append _ _), ran⟩

theorem right (follows : run.Follows t) (ran : run limits s = .ok r s₁)
    (meets : (next r).Meets limits s₁ a s') : (t.andThen run next).Meets limits s a s' := by
  obtain ⟨before, leads, acted⟩ := meets
  have ends := follows limits s
  rw [ran] at ends
  refine ⟨t limits s ++ before, ?_, ?_⟩
  · rw [Trace.andThen, ran, List.append_assoc]
    exact (List.prefix_append_right_inj _).2 leads
  · rw [Act.runAll_append, bind_apply, ends]
    exact acted

theorem after (quiet : run.Follows Trace.none) (ran : run limits s = .ok r s₁)
    (meets : (next r).Meets limits s₁ a s') : (Trace.after run next).Meets limits s a s' :=
  right quiet ran meets

theorem first : (step a t).Meets limits s a s :=
  left ⟨[], List.prefix_rfl, rfl⟩

theorem later (isTick : b.run = tick) (ticked : tick limits s = .ok () s₁)
    (meets : t.Meets limits s₁ a s') : (step b t).Meets limits s a s' :=
  right (.tick isTick) ticked meets

end Trace.Meets

open Trace

/-! ## Expressions -/

theorem evalAll_cons_ok {e : Code} {rest : List Code} {vs : List Value}
    (ran : evalAll classes locals (e :: rest) limits s = .ok vs s') :
    ∃ v vs' s₁, e.eval classes locals limits s = .ok v s₁ ∧
      evalAll classes locals rest limits s₁ = .ok vs' s' ∧ vs = v :: vs' := by
  rw [evalAll] at ran
  obtain ⟨v, s₁, ofFirst, ran⟩ := Meter.Scales.bind_ok ran
  obtain ⟨vs', s₂, ofRest, ran⟩ := Meter.Scales.bind_ok ran
  cases ran
  exact ⟨v, vs', s₁, ofFirst, ofRest, rfl⟩

section

variable {part x y : Code} {goesOn : List Value → Prop}

theorem ComesTo.none (comes : ComesTo limits classes locals [] goesOn s part s') : False := by
  obtain ⟨before, after, _, _, split, -⟩ := comes
  cases before <;> cases split

theorem ComesTo.one (comes : ComesTo limits classes locals [x] goesOn s part s') :
    part = x ∧ tick limits s = .ok () s' := by
  obtain ⟨before, after, vs, s₁, split, ticked, ran, -⟩ := comes
  cases before with
  | nil =>
    cases split
    cases ran
    exact ⟨rfl, ticked⟩
  | cons _ more => cases more <;> cases split

theorem ComesTo.two (comes : ComesTo limits classes locals [x, y] goesOn s part s') :
    ∃ s₁, tick limits s = .ok () s₁ ∧ (part = x ∧ s' = s₁ ∨
      part = y ∧ ∃ v, x.eval classes locals limits s₁ = .ok v s' ∧ goesOn [v]) := by
  obtain ⟨before, after, vs, s₁, split, ticked, ran, goes⟩ := comes
  refine ⟨s₁, ticked, ?_⟩
  match before with
  | [] =>
    cases split
    cases ran
    exact .inl ⟨rfl, rfl⟩
  | [_] =>
    cases split
    obtain ⟨v, vs', s₂, ofFirst, ofRest, rfl⟩ := evalAll_cons_ok ran
    cases ofRest
    exact .inr ⟨rfl, v, ofFirst, goes⟩
  | _ :: _ :: more => cases more <;> cases split

theorem Code.trace_operands (classes : List HostClass) (locals : Array Value) (p : Position)
    (op : Source.BinaryOp) (left right : Code) :
    ∃ next : Value → Trace, (Code.binary p op left right).trace classes locals =
      step (.expression (.binary p op left right))
        ((left.trace classes locals).andThen (left.eval classes locals) next) ∧
      ∀ v, (Code.binary p op left right).GoesOn [v] → next v = right.trace classes locals := by
  by_cases logical : op ∈ [.and, .or]
  · exact ⟨_, Code.trace_logic logical, fun v goes => if_pos ((Code.goesOn_logic logical).1 goes)⟩
  · exact ⟨_, Code.trace_binary logical, fun _ _ => rfl⟩

theorem meets_traceAll {before after : List Code} {vs : List Value}
    (ran : evalAll classes locals before limits s = .ok vs s₁)
    (meets : (part.trace classes locals).Meets limits s₁ a s') :
    (traceAll classes locals (before ++ part :: after)).Meets limits s a s' := by
  induction before generalizing s vs with
  | nil =>
    cases ran
    rw [List.nil_append, traceAll]
    exact .left meets
  | cons e before ih =>
    obtain ⟨v, vs', s₂, ofFirst, ofRest, -⟩ := evalAll_cons_ok ran
    rw [List.cons_append, traceAll]
    exact .right e.follows_eval ofFirst (ih ofRest)

theorem Code.meets_self (e : Code) :
    (e.trace classes locals).Meets limits s (.expression e) s := by
  unfold Code.trace
  exact .first

theorem Run.receiver_ok {p : Position} {member : String} {v : Value} (given : v ≠ .null) :
    receiver p member v limits s = .ok v s := by
  unfold receiver
  cases v with
  | null => exact absurd rfl given
  | _ => rfl

theorem Code.meets_part {e : Code}
    (comes : ComesTo limits classes locals e.parts e.GoesOn s part s₁)
    (meets : (part.trace classes locals).Meets limits s₁ a s') :
    (e.trace classes locals).Meets limits s a s' := by
  cases e with
  | const | load | getConstant => exact comes.none.elim
  | getField =>
    obtain ⟨rfl, ticked⟩ := comes.one
    rw [Code.trace]
    exact .later rfl ticked (.left meets)
  | unary | widen =>
    obtain ⟨rfl, ticked⟩ := comes.one
    rw [Code.trace]
    exact .later rfl ticked meets
  | callStatic p owner name args =>
    obtain ⟨before, after, vs, s₂, rfl, ticked, ran, -⟩ := comes
    rw [Code.trace]
    exact .later rfl ticked (.left (meets_traceAll ran meets))
  | call p target owner name args =>
    obtain ⟨before, after, vs, s₂, split, ticked, ran, goes⟩ := comes
    rw [Code.trace]
    refine .later rfl ticked ?_
    -- Behind no part at all the part is the receiver, and otherwise an argument.
    cases before with
    | nil =>
      cases split
      cases ran
      exact .left meets
    | cons _ before =>
      cases split
      obtain ⟨v, vs', s₃, ofTarget, ofArgs, rfl⟩ := evalAll_cons_ok ran
      refine .right target.follows_eval ofTarget ?_
      exact .after (.receiver _ _ v) (receiver_ok goes) (.left (meets_traceAll ofArgs meets))
  | binary p op left right =>
    obtain ⟨next, is, goesOn⟩ := Code.trace_operands classes locals p op left right
    rw [is]
    obtain ⟨s₂, ticked, ⟨rfl, rfl⟩ | ⟨rfl, v, ofLeft, goes⟩⟩ := comes.two
    · exact .later rfl ticked (.left meets)
    · refine .later rfl ticked (.right left.follows_eval ofLeft ?_)
      rwa [goesOn v goes]
  | concat p left right =>
    rw [Code.trace]
    obtain ⟨s₂, ticked, ⟨rfl, rfl⟩ | ⟨rfl, v, ofLeft, -⟩⟩ := comes.two
    · exact .later rfl ticked (.left meets)
    · exact .later rfl ticked (.right left.follows_eval ofLeft (.left meets))

theorem Code.Reaches.meets {e e' : Code} (reaches : Reaches limits classes locals e s e' s') :
    (e.trace classes locals).Meets limits s (.expression e') s' := by
  induction reaches with
  | self => exact Code.meets_self _
  | part comes _ ih => exact Code.meets_part comes ih

end

/-! ## Statements -/

theorem Instr.meets_self (i : Instr) :
    (i.trace classes locals).Meets limits s (.statement i) s := by
  unfold Instr.trace
  exact .first

theorem meets_traceRounds {body : Int → Exec Flow} {acts : Int → Array Value → Trace}
    (each : ∀ i, Exec.Follows (body i) (acts i)) {k rounds : Nat} {i : Int}
    {locals₁ : Array Value} (fits : k < rounds)
    (before : Exec.iterate body k i locals limits s = .ok (.next, locals₁) s₁)
    (meets : (acts (i + k) locals₁).Meets limits s₁ a s') :
    (traceRounds body acts rounds i locals).Meets limits s a s' := by
  induction k generalizing rounds i locals s with
  | zero =>
    cases rounds with
    | zero => cases fits
    | succ rounds =>
      cases before
      rw [Int.natCast_zero, Int.add_zero] at meets
      exact .left meets
  | succ k ih =>
    cases rounds with
    | zero => cases fits
    | succ rounds =>
      obtain ⟨locals₂, s₂, ofRound, ofRest⟩ := Exec.iterate_next before
      refine .right (each i locals) ofRound (ih (Nat.lt_of_succ_lt_succ fits) ofRest ?_)
      rwa [Int.add_assoc, Int.add_comm 1, ← Int.natCast_succ]

theorem ReachesIn.meets {body : List Instr} {i : Instr} {locals' : Array Value}
    (reaches : ReachesIn limits classes body locals s i locals' s₁)
    (meets : (i.trace classes locals').Meets limits s₁ a s') :
    (traceBlock classes body locals).Meets limits s a s' := by
  induction reaches with
  | first =>
    rw [traceBlock]
    exact .left meets
  | @later i _ _ _ _ _ _ _ _ ran _ ih =>
    rw [traceBlock]
    exact .right (i.follows_exec _) ran (ih meets)
  | @branch p cond body otherwise rest _ _ _ b _ _ _ _ ticked chosen _ ih =>
    rw [traceBlock]
    refine .left ?_
    rw [Instr.trace]
    refine .later rfl ticked (.right cond.follows_eval chosen ?_)
    cases b <;> simpa using ih meets
  | @round p slot first last body rest _ _ _ a _ b _ k _ _ _ _ _ _ _ _ ticked from_ to_ fits before
      ticked' stored _ ih =>
    rw [traceBlock]
    refine .left ?_
    rw [Instr.trace]
    refine .later rfl ticked (.right first.follows_eval from_ ?_)
    refine .after (.located (.lift _)) rfl (.right last.follows_eval to_ ?_)
    refine .after (.located (.lift _)) rfl ?_
    refine meets_traceRounds (Exec.follows_round slot (follows_execAll body)) fits before ?_
    exact .later rfl ticked' (.after (Exec.follows_store slot _ _) stored (ih meets))

theorem Instr.meets_part {types : List Ty} {result : Ty} {uses : List Use} {i : Instr} {part : Code}
    (typed : ExecutionTyped types result uses i locals s) (supports : Supports classes uses)
    (comes : ComesTo limits classes locals i.parts i.GoesOn s part s₁)
    (meets : (part.trace classes locals).Meets limits s₁ a s') :
    (i.trace classes locals).Meets limits s a s' := by
  cases i with
  | store | give | eval =>
    obtain ⟨rfl, ticked⟩ := comes.one
    rw [Instr.trace]
    exact .later rfl ticked meets
  | setField p target owner name value =>
    rw [Instr.trace]
    obtain ⟨s₂, ticked, ⟨rfl, rfl⟩ | ⟨rfl, v, ofTarget, given⟩⟩ := comes.two
    · exact .later rfl ticked (.left meets)
    · refine .later rfl ticked (.right target.follows_eval ofTarget ?_)
      exact .after (.receiver _ _ v) (receiver_ok given) (.left meets)
  | choose p cond body otherwise =>
    obtain ⟨rfl, ticked⟩ := comes.one
    rw [Instr.trace]
    exact .later rfl ticked (.left meets)
  | loop p slot first last body =>
    rw [Instr.trace]
    obtain ⟨s₂, ticked, ⟨rfl, rfl⟩ | ⟨rfl, v, ofFirst, -⟩⟩ := comes.two
    · exact .later rfl ticked (.left meets)
    · refine .later rfl ticked (.right first.follows_eval ofFirst ?_)
      -- the second bound is only reached behind a first one that is an integer
      obtain ⟨live, live', ofLoop, vars⟩ := typed.typed
      cases ofLoop with
      | loop ofType =>
        obtain ⟨state₂, grown, -⟩ := safe_tick.of_ok typed.state ticked
        have within := (supports.subset typed.uses).left
        obtain ⟨-, -, isInt⟩ := (ofType.safe_eval within (vars.mono grown)).of_ok state₂ ofFirst
        obtain ⟨k, rfl⟩ := isInt.int_inv
        exact .after (.located (.lift _)) rfl (.left meets)

/-! ## Programs -/

namespace Loaded

variable {loaded : Loaded} {n : Nat} {i : Instr} {e : Code}

theorem meets_of_reachesIn {builder : Value} {s₀ : RunState} {locals₁ : Array Value}
    (made : newBuilder limits (.start n) = .ok builder s₀)
    (reaches : ReachesIn limits loaded.classes loaded.program.body (loaded.program.locals builder)
      s₀ i locals₁ s₁) (meets : (i.trace loaded.classes locals₁).Meets limits s₁ a s) :
    loaded.trace.Meets limits (.start n) a s :=
  .right (.act rfl) made (reaches.meets meets)

theorem Executes.meets (executes : loaded.Executes limits n i locals s) :
    loaded.trace.Meets limits (.start n) (.statement i) s := by
  obtain ⟨builder, s₀, made, reaches⟩ := executes
  exact meets_of_reachesIn made reaches i.meets_self

theorem Sound.meets_evaluated {types : List Ty} (sound : loaded.Sound types)
    (evaluates : loaded.Evaluates limits n e locals s) :
    loaded.trace.Meets limits (.start n) (.expression e) s := by
  obtain ⟨i, s₁, part, s₂, executes, comes, reaches⟩ := evaluates
  have typed := sound.executes executes
  obtain ⟨builder, s₀, made, reachesIn⟩ := executes
  have meets := Instr.meets_part typed sound.supports comes reaches.meets
  exact meets_of_reachesIn made reachesIn meets

theorem within_of_meets (meets : loaded.trace.Meets limits (.start n) a s) :
    s.steps ≤ limits.maxSteps ∧ s.heapBytes ≤ limits.maxHeapBytes := by
  obtain ⟨before, leads, ran⟩ := meets
  have passes : loaded.Passes limits n before s := ⟨(List.prefix_append _ _).trans leads, ran⟩
  exact ⟨(steps_of_passes passes).2, ((RunState.Covered.start limits n).runAll ran).within⟩

/-- Whenever a run begins a statement or an expression, it is within its budgets. -/
theorem Sound.within_budgets {types : List Ty} (sound : loaded.Sound types) (limits : Limits)
    (n : Nat) :
    (∀ i locals s, loaded.Executes limits n i locals s →
      s.steps ≤ limits.maxSteps ∧ s.heapBytes ≤ limits.maxHeapBytes) ∧
    ∀ e locals s, loaded.Evaluates limits n e locals s →
      s.steps ≤ limits.maxSteps ∧ s.heapBytes ≤ limits.maxHeapBytes :=
  ⟨fun _ _ _ executes => within_of_meets executes.meets,
    fun _ _ _ evaluates => within_of_meets (sound.meets_evaluated evaluates)⟩

end Loaded

end SceneScript
