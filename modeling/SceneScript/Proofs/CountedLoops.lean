import SceneScript.Proofs.Machine.Rounds
import SceneScript.Proofs.Machine.Writes
import SceneScript.Proofs.Typing.Assigning

/-!
# Counted loops

A loop carries out its body for the numbers from its first bound up to its last one, which are
evaluated once. No other statement writes its variable, and counting never overflows
(`checkUnit_loops_count`).
-/

namespace SceneScript

open Run

variable {limits : Limits} {classes : List HostClass} {locals locals' : Array Value}
  {s s' : RunState}

section

variable {p : Position} {slot : Nat} {body : List Instr}

theorem Exec.Rounds.size {i : Int} {n : Nat}
    (rounds : Exec.Rounds (Exec.round classes slot body) limits i n locals s locals' s') :
    locals'.size = locals.size := by
  induction rounds with
  | none => rfl
  | @more i _ _ _ _ _ _ _ ran _ ih =>
    exact ih.trans ((Exec.writes_round classes slot body i).of_ok ran).size

structure HoldsThroughout (limits : Limits) (classes : List HostClass) (body : List Instr)
    (slot : Nat) (v : Value) (locals : Array Value) (s : RunState) : Prop where
  start : locals[slot]? = some v
  within : ∀ i locals' s', ReachesIn limits classes body locals s i locals' s' →
    locals'[slot]? = some v
  behind : ∀ flow locals' s', execAll classes body locals limits s = .ok (flow, locals') s' →
    locals'[slot]? = some v

theorem holdsThroughout_of_notMem {v : Value} (unwritten : slot ∉ writesIn body)
    (start : locals[slot]? = some v) :
    HoldsThroughout limits classes body slot v locals s where
  start := start
  within _ _ _ reaches := (reaches.spares.kept slot unwritten).trans start
  behind _ _ _ ran := (((writes_execAll classes body).of_ok ran).kept slot unwritten).trans start

end

theorem Number.count_fits {a b : Int64} {k : Nat} (lt : k < (b.toInt - a.toInt).toNat) :
    (Int64.ofInt (a.toInt + k)).toInt = a.toInt + k ∧
      add? (Int64.ofInt (a.toInt + k)) 1 = some (Int64.ofInt (a.toInt + k + 1)) := by
  have low := a.le_toInt
  have high := b.toInt_lt
  have same : (Int64.ofInt (a.toInt + k)).toInt = a.toInt + k :=
    Int64.toInt_ofInt_of_le (by omega) (by omega)
  have below : Int64.ofInt (a.toInt + k) < b := by
    rw [Int64.lt_iff_toInt_lt, same]
    omega
  refine ⟨same, ?_⟩
  rw [add?_one below, ← Int64.ofInt_toInt (Int64.ofInt (a.toInt + k) + 1), toInt_succ below, same]

/-- Loops count. Let a loop of an accepted unit be carried out whose bounds are evaluated to `a` and
`b`, once each. It ends normally after exactly `max 0 (b - a)` rounds, for the numbers from `a` on,
and otherwise in one of these rounds, which returns or fails. Counting does not overflow, and
throughout a round the variable is the number of the round. -/
theorem checkUnit_loops_count {symbols : SymbolTable} {u : Source.CompilationUnit}
    {program : Program} (accepted : Typing.checkUnit symbols u = .ok program)
    {p : Position} {slot : Nat} {first last : Code} {body : List Instr}
    (mem : .loop p slot first last body ∈ nestedIn program.body)
    (within : program.slots ≤ locals.size) {s₁ s₂ s₃ : RunState} {a b : Int64}
    (ticked : tick limits s = .ok () s₁)
    (from_ : first.eval classes locals limits s₁ = .ok (.int a) s₂)
    (to_ : last.eval classes locals limits s₂ = .ok (.int b) s₃) :
    let run := (Instr.loop p slot first last body).exec classes locals limits s
    let round := Exec.round classes slot body
    let rounds := (b.toInt - a.toInt).toNat
    (∀ locals' s', run = .ok (.next, locals') s' ↔
      Exec.Rounds round limits a.toInt rounds locals s₃ locals' s') ∧
    (∀ v locals' s', run = .ok (.give v, locals') s' ↔
      Exec.Breaks round limits a.toInt rounds locals s₃ (.ok (.give v, locals') s')) ∧
    (∀ f s', run = .error f s' ↔
      ∃ g, f = g.locate p ∧ Exec.Breaks round limits a.toInt rounds locals s₃ (.error g s')) ∧
    ∀ k : Nat, k < rounds →
      (Int64.ofInt (a.toInt + k)).toInt = a.toInt + k ∧
      Number.add? (Int64.ofInt (a.toInt + k)) 1 = some (Int64.ofInt (a.toInt + k + 1)) ∧
      ∀ locals₁ s₄ s₅, Exec.Rounds round limits a.toInt k locals s₃ locals₁ s₄ →
        tick limits s₄ = .ok () s₅ →
        ∃ start, round (a.toInt + k) locals₁ limits s₄ = execAll classes body start limits s₅ ∧
          HoldsThroughout limits classes body slot (.int (Int64.ofInt (a.toInt + k))) start s₅ := by
  obtain ⟨spares, used⟩ := Typing.checkUnit_spares accepted
  have unwritten : slot ∉ writesIn body := spares _ mem
  have bound : slot < locals.size :=
    (used slot (writesIn_subset mem List.mem_cons_self)).trans_le within
  dsimp only
  rw [Instr.exec_loop_of_bounds ticked from_ to_]
  refine ⟨fun locals' s' => ?_, fun v locals' s' => ?_, fun f s' => ?_, fun k lt => ?_⟩
  · exact Run.located_ok.trans Exec.iterate_next_iff
  · exact Run.located_ok.trans (Exec.iterate_breaks_iff (by simp))
  · refine Run.located_error.trans (exists_congr fun g => and_congr_right fun _ => ?_)
    exact Exec.iterate_breaks_iff (by simp)
  · obtain ⟨same, fits⟩ := Number.count_fits lt
    refine ⟨same, fits, fun locals₁ s₄ s₅ rounds ticked' => ?_⟩
    have bound₁ : slot < locals₁.size := rounds.size.symm ▸ bound
    refine ⟨_, Exec.round_of_tick bound₁ ticked', holdsThroughout_of_notMem unwritten ?_⟩
    rw [Array.getElem?_setIfInBounds_self, if_pos bound₁]

def countingUnit : Source.CompilationUnit :=
  let p : Position := ⟨1, 1⟩
  { moduleName := ⟨"modelsnip", [], p⟩
    imports := []
    entry := {
      name := Template.entryPoint
      param := "b"
      paramType := .int p
      resultType := .int p
      body := [.loop p "i" (.int p 5) (.int p 7) [.eval p (.var p "i")]]
      position := p } }

def countingLoop : Instr :=
  let p : Position := ⟨1, 1⟩
  .loop p 1 (.const p (.int (Int64.ofInt 5))) (.const p (.int (Int64.ofInt 7)))
    [.eval p (.load p 1)]

theorem checkUnit_loops_count_counting :
    Typing.checkUnit .standard countingUnit =
      .ok ⟨⟨Template.entryPoint, .int, .int⟩, [countingLoop], 2, []⟩ ∧
    ∃ s', countingLoop.exec [] #[.null, .null] {} (.start 0) =
      .ok (.next, #[.null, .int (Int64.ofInt 6)]) s' := by
  have accepted : Typing.checkUnit .standard countingUnit =
      .ok ⟨⟨Template.entryPoint, .int, .int⟩, [countingLoop], 2, []⟩ := rfl
  have within : 2 ≤ #[Value.null, Value.null].size := Nat.le_refl 2
  have ticked : tick {} (.start 0) = .ok () { RunState.start 0 with steps := 1 } := rfl
  have from_ : (Code.const ⟨1, 1⟩ (.int (Int64.ofInt 5))).eval [] #[.null, .null] {}
      { RunState.start 0 with steps := 1 } =
      .ok (.int (Int64.ofInt 5)) { RunState.start 0 with steps := 2 } := rfl
  have to_ : (Code.const ⟨1, 1⟩ (.int (Int64.ofInt 7))).eval [] #[.null, .null] {}
      { RunState.start 0 with steps := 2 } =
      .ok (.int (Int64.ofInt 7)) { RunState.start 0 with steps := 3 } := rfl
  obtain ⟨next, -⟩ := checkUnit_loops_count accepted List.mem_cons_self within ticked from_ to_
  exact ⟨accepted, _, (next _ _).2 (.more rfl (.more rfl .none))⟩

end SceneScript
