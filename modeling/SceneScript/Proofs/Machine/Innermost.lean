import SceneScript.Proofs.Machine.Origins

/-!
# What statements hand on

A statement that returns or fails ends all that is around it: every block hands the outcome on
(`execAll_of_reached`). Every such outcome comes from an innermost statement, whose own blocks are
carried out to their ends (`execAll_innermost`). If it fails, one of its parts does, or it fails
itself and the fault is located at it or at a part that it refuses (`Instr.FailsItself.place_self`).
-/

namespace SceneScript

open Run

variable {limits : Limits} {classes : List HostClass} {locals locals' : Array Value}
  {s s' s₁ s₂ : RunState} {f : Fault} {p q : Position} {i : Instr}

/-! ## Outcomes -/

/-- An outcome that is handed on: a value that is returned, or a fault that is located. -/
inductive HandedOn : EStateM.Result Fault RunState (Flow × Array Value) → Prop
  | give {v : Value} {locals : Array Value} {s : RunState} : HandedOn (.ok (.give v, locals) s)
  | error {f : Fault} {q : Position} {s : RunState} :
      f.position = some q → HandedOn (.error f s)

variable {o : EStateM.Result Fault RunState (Flow × Array Value)}

theorem HandedOn.ne_next (handed : HandedOn o) (locals' : Array Value) (s' : RunState) :
    o ≠ .ok (.next, locals') s' := by
  cases handed with
  | give => simp
  | error => exact nofun

namespace Exec

theorem located_of_handed {exec : Exec Flow} (ran : exec locals limits s = o)
    (handed : HandedOn o) : Exec.located p exec locals limits s = o := by
  cases handed with
  | give => exact located_ok.2 ran
  | error placed => exact located_of_located ran placed

theorem step_of_handed {exec : Exec Flow} (ticked : tick limits s = .ok () s₁)
    (ran : exec locals limits s₁ = o) (handed : HandedOn o) :
    Exec.located p ((liftM tick : Exec Unit) >>= fun _ => exec) locals limits s = o := by
  have taken : (liftM tick : Exec Unit) locals limits s = .ok ((), locals) s₁ :=
    Meter.Scales.bind_of_ok ticked
  exact located_of_handed (.trans (Meter.Scales.bind_of_ok taken) ran) handed

theorem eval_bind_ok {α : Type} {e : Code} {v : Value} {next : Value → Exec α}
    (ran : e.eval classes locals limits s = .ok v s₁) :
    (Exec.eval classes e >>= next) locals limits s = next v locals limits s₁ := by
  have evaluated : Exec.eval classes e locals limits s = .ok (v, locals) s₁ :=
    Meter.Scales.bind_of_ok ran
  exact Meter.Scales.bind_of_ok evaluated

theorem eval_bind_error {α : Type} {e : Code} {next : Value → Exec α}
    (failed : e.eval classes locals limits s = .error f s') :
    (Exec.eval classes e >>= next) locals limits s = .error f s' := by
  have evaluated : Exec.eval classes e locals limits s = .error f s' :=
    Meter.Scales.bind_of_error failed
  exact Meter.Scales.bind_of_error evaluated

theorem lift_bind_ok {α β : Type} {run : Run α} {a : α} {next : α → Exec β}
    (ran : run limits s = .ok a s₁) :
    ((liftM run : Exec α) >>= next) locals limits s = next a locals limits s₁ := by
  have lifted : (liftM run : Exec α) locals limits s = .ok (a, locals) s₁ :=
    Meter.Scales.bind_of_ok ran
  exact Meter.Scales.bind_of_ok lifted

end Exec

theorem Run.located_asInt (limits : Limits) (s : RunState) (p : Position) (n : Int64) :
    Run.located p (liftM (Value.int n).asInt : Run Int64) limits s = .ok n s :=
  rfl

theorem Run.located_asBool (limits : Limits) (s : RunState) (p : Position) (b : Bool) :
    Run.located p (liftM (Value.bool b).asBool : Run Bool) limits s = .ok b s :=
  rfl

/-! ## Parts of statements -/

def Instr.Continues : Instr → List Value → Prop
  | .setField .., v :: _ => v ≠ .null
  | .loop .., v :: _ => ∃ n, v = .int n
  | _, _ => True

theorem Instr.error_of_part {part : Code}
    (comes : ComesTo limits classes locals i.parts i.Continues s part s₁)
    (failed : part.eval classes locals limits s₁ = .error f s') (placed : f.position = some q) :
    i.exec classes locals limits s = .error f s' := by
  have handed : HandedOn (.error f s') := .error placed
  cases i with
  | store | choose | give | eval =>
    obtain ⟨rfl, ticked⟩ := comes.one
    rw [Instr.exec]
    exact Exec.step_of_handed ticked (Exec.eval_bind_error failed) handed
  | setField p target owner name value =>
    rw [Instr.exec]
    obtain ⟨s₂, ticked, ⟨rfl, rfl⟩ | ⟨rfl, v, ofTarget, given⟩⟩ := comes.two
    · exact Exec.step_of_handed ticked (Exec.eval_bind_error failed) handed
    · refine Exec.step_of_handed ticked (.trans (Exec.eval_bind_ok ofTarget) ?_) handed
      exact .trans (Exec.lift_bind_ok (receiver_ok given)) (Exec.eval_bind_error failed)
  | loop p slot first last body =>
    rw [Instr.exec_loop]
    obtain ⟨s₂, ticked, ⟨rfl, rfl⟩ | ⟨rfl, v, ofFirst, n, rfl⟩⟩ := comes.two
    · exact Exec.step_of_handed ticked (Exec.eval_bind_error failed) handed
    · refine Exec.step_of_handed ticked (.trans (Exec.eval_bind_ok ofFirst) ?_) handed
      exact .trans (Exec.lift_bind_ok (located_asInt ..)) (Exec.eval_bind_error failed)

/-! ## Blocks of statements -/

inductive Instr.Enters (limits : Limits) (classes : List HostClass) :
    Instr → Array Value → RunState → List Instr → Array Value → RunState → Prop
  | branch {p cond body otherwise locals s s₁ b s₂} :
      tick limits s = .ok () s₁ → cond.eval classes locals limits s₁ = .ok (.bool b) s₂ →
      Enters limits classes (.choose p cond body otherwise) locals s
        (if b then body else otherwise) locals s₂
  | round {p slot first last body locals s s₁ a s₂ b s₃ k locals₁ s₄ s₅ locals₂ s₆} :
      tick limits s = .ok () s₁ → first.eval classes locals limits s₁ = .ok (.int a) s₂ →
      last.eval classes locals limits s₂ = .ok (.int b) s₃ → k < (b.toInt - a.toInt).toNat →
      Exec.iterate (Exec.round classes slot body) k a.toInt locals limits s₃ =
        .ok (.next, locals₁) s₄ →
      tick limits s₄ = .ok () s₅ →
      Exec.store slot (.int (Int64.ofInt (a.toInt + k))) locals₁ limits s₅ = .ok ((), locals₂) s₆ →
      Enters limits classes (.loop p slot first last body) locals s body locals₂ s₆

variable {block : List Instr} {locals₁ : Array Value}

theorem Instr.Enters.reaches {rest : List Instr} {j : Instr}
    (enters : i.Enters limits classes locals s block locals₁ s₁)
    (reaches : ReachesIn limits classes block locals₁ s₁ j locals' s') :
    ReachesIn limits classes (i :: rest) locals s j locals' s' := by
  cases enters with
  | branch ticked chosen => exact .branch ticked chosen reaches
  | round ticked from_ to_ fits before ticked' stored =>
    exact .round ticked from_ to_ fits before ticked' stored reaches

theorem Instr.exec_of_block (enters : i.Enters limits classes locals s block locals₁ s₁)
    (ran : execAll classes block locals₁ limits s₁ = o) (handed : HandedOn o) :
    i.exec classes locals limits s = o := by
  cases enters with
  | @branch p cond body otherwise _ _ _ b _ ticked chosen =>
    rw [Instr.exec]
    refine Exec.step_of_handed ticked (.trans (Exec.eval_bind_ok chosen) ?_) handed
    cases b <;> exact ran
  | @round p slot first last _ _ _ _ a _ b _ k _ _ _ _ _ ticked from_ to_ fits before ticked'
      stored =>
    have ofRound : Exec.round classes slot block (a.toInt + k) _ limits _ = o :=
      .trans (Exec.lift_bind_ok ticked') (.trans (Meter.Scales.bind_of_ok stored) ran)
    rw [Instr.exec_loop_of_bounds ticked from_ to_]
    refine Exec.located_of_handed ((Exec.iterate_breaks_iff handed.ne_next).2 ?_) handed
    exact ⟨k, fits, _, _, Exec.iterate_next_iff.1 before, ofRound⟩

theorem Instr.Enters.sizeOf_lt (enters : i.Enters limits classes locals s block locals₁ s₁) :
    sizeOf block < sizeOf i := by
  cases enters with
  | @branch _ _ _ _ _ _ _ b => cases b <;> simp +arith
  | round => simp +arith

theorem execAll_of_next {rest : List Instr}
    (ofFirst : i.exec classes locals limits s = .ok (.next, locals₁) s₁) :
    execAll classes (i :: rest) locals limits s = execAll classes rest locals₁ limits s₁ := by
  rw [execAll]
  exact Meter.Scales.bind_of_ok ofFirst

theorem execAll_of_other {rest : List Instr} (ofFirst : i.exec classes locals limits s = o)
    (ends : ∀ locals' s', o ≠ .ok (.next, locals') s') :
    execAll classes (i :: rest) locals limits s = o := by
  rw [execAll]
  rcases o with ⟨⟨_ | v, locals'⟩, s'⟩ | ⟨f, s'⟩
  · exact absurd rfl (ends locals' s')
  · exact Meter.Scales.bind_of_ok ofFirst
  · exact Meter.Scales.bind_of_error ofFirst

theorem execAll_of_reached {body : List Instr} {j : Instr}
    (reaches : ReachesIn limits classes body locals s j locals₁ s₁)
    (ran : j.exec classes locals₁ limits s₁ = o) (handed : HandedOn o) :
    execAll classes body locals limits s = o := by
  induction reaches with
  | first => exact execAll_of_other ran handed.ne_next
  | later ofFirst _ ih => exact (execAll_of_next ofFirst).trans (ih ran)
  | branch ticked chosen _ ih =>
    refine execAll_of_other (Instr.exec_of_block ?_ (ih ran) handed) handed.ne_next
    exact .branch ticked chosen
  | round ticked from_ to_ fits before ticked' stored _ ih =>
    refine execAll_of_other (Instr.exec_of_block ?_ (ih ran) handed) handed.ne_next
    exact .round ticked from_ to_ fits before ticked' stored

/-! ## Statements that fail themselves -/

def Instr.EndsBlocks (limits : Limits) (classes : List HostClass) (locals : Array Value)
    (i : Instr) (s : RunState) : Prop :=
  ∀ block locals₁ s₁, i.Enters limits classes locals s block locals₁ s₁ →
    ∃ locals₂ s₂, execAll classes block locals₁ limits s₁ = .ok (.next, locals₂) s₂

/-- Carrying out the statement fails, although every part that it comes to gives a value and every
block that it enters is carried out to its end. -/
structure Instr.FailsItself (limits : Limits) (classes : List HostClass) (locals : Array Value)
    (i : Instr) (s : RunState) (f : Fault) (s' : RunState) : Prop where
  fails : i.exec classes locals limits s = .error f s'
  parts : ∀ part s₁, ComesTo limits classes locals i.parts i.Continues s part s₁ →
    ∃ v s₂, part.eval classes locals limits s₁ = .ok v s₂
  blocks : i.EndsBlocks limits classes locals s

/-- The statement comes to a receiver that is null, to a condition that is no boolean or to a bound
that is no integer. -/
inductive Instr.Refuses (limits : Limits) (classes : List HostClass) (locals : Array Value) :
    Instr → RunState → Code → Prop
  | receiver {p target owner name value s s₁ s₂} : tick limits s = .ok () s₁ →
      target.eval classes locals limits s₁ = .ok .null s₂ →
      Refuses limits classes locals (.setField p target owner name value) s target
  | condition {p cond body otherwise s s₁ v s₂} : tick limits s = .ok () s₁ →
      cond.eval classes locals limits s₁ = .ok v s₂ → (∀ b, v ≠ .bool b) →
      Refuses limits classes locals (.choose p cond body otherwise) s cond
  | first {p slot first last body s s₁ v s₂} : tick limits s = .ok () s₁ →
      first.eval classes locals limits s₁ = .ok v s₂ → (∀ n, v ≠ .int n) →
      Refuses limits classes locals (.loop p slot first last body) s first
  | last {p slot first last body s s₁ a s₂ v s₃} : tick limits s = .ok () s₁ →
      first.eval classes locals limits s₁ = .ok (.int a) s₂ →
      last.eval classes locals limits s₂ = .ok v s₃ → (∀ n, v ≠ .int n) →
      Refuses limits classes locals (.loop p slot first last body) s last

theorem Exec.lift_bind_error {α β : Type} {run : Run α} {next : α → Exec β}
    (failed : run limits s = .error f s') :
    ((liftM run : Exec α) >>= next) locals limits s = .error f s' := by
  have lifted : (liftM run : Exec α) locals limits s = .error f s' :=
    Meter.Scales.bind_of_error failed
  exact Meter.Scales.bind_of_error lifted

theorem Run.refused_asBool {v : Value} (refused : ∀ b, v ≠ .bool b) :
    ∃ cause, Run.located p (liftM v.asBool : Run Bool) limits s = .error ⟨cause, some p⟩ s := by
  cases v with
  | bool b => exact absurd rfl (refused b)
  | _ => exact ⟨_, rfl⟩

theorem Run.refused_asInt {v : Value} (refused : ∀ n, v ≠ .int n) :
    ∃ cause, Run.located p (liftM v.asInt : Run Int64) limits s = .error ⟨cause, some p⟩ s := by
  cases v with
  | int n => exact absurd rfl (refused n)
  | _ => exact ⟨_, rfl⟩

theorem Exec.step_error {exec : Exec Flow} (ticked : tick limits s = .ok () s₁)
    (failed : exec locals limits s₁ = .error f s') (placed : f.position = some q) :
    Exec.located p ((liftM tick : Exec Unit) >>= fun _ => exec) locals limits s = .error f s' :=
  step_of_handed ticked failed (.error placed)

theorem Instr.Refuses.place {part : Code} (refuses : i.Refuses limits classes locals s part)
    (failed : i.exec classes locals limits s = .error f s') :
    f.position = some part.position := by
  suffices ∃ cause s₁, i.exec classes locals limits s = .error ⟨cause, some part.position⟩ s₁ by
    obtain ⟨cause, s₁, fails⟩ := this
    cases fails.symm.trans failed
    rfl
  cases refuses with
  | receiver ticked ofTarget =>
    rw [Instr.exec]
    exact ⟨_, _, Exec.step_error ticked (.trans (Exec.eval_bind_ok ofTarget)
      (Exec.lift_bind_error (receiver_null ..))) rfl⟩
  | condition ticked ofCond refused =>
    obtain ⟨cause, fails⟩ := refused_asBool refused
    rw [Instr.exec]
    exact ⟨cause, _, Exec.step_error ticked (.trans (Exec.eval_bind_ok ofCond)
      (Exec.lift_bind_error fails)) rfl⟩
  | first ticked ofFirst refused =>
    obtain ⟨cause, fails⟩ := refused_asInt refused
    rw [Instr.exec_loop]
    exact ⟨cause, _, Exec.step_error ticked (.trans (Exec.eval_bind_ok ofFirst)
      (Exec.lift_bind_error fails)) rfl⟩
  | last ticked ofFirst ofLast refused =>
    obtain ⟨cause, fails⟩ := refused_asInt refused
    rw [Instr.exec_loop]
    exact ⟨cause, _, Exec.step_error ticked (.trans (Exec.eval_bind_ok ofFirst)
      (.trans (Exec.lift_bind_ok (located_asInt ..)) (.trans (Exec.eval_bind_ok ofLast)
        (Exec.lift_bind_error fails)))) rfl⟩

namespace Exec

def Unlocated (limits : Limits) (locals : Array Value) (s : RunState) (exec : Exec α) : Prop :=
  Run.Unlocated limits s (exec locals)

namespace Unlocated

variable {α β : Type} {exec : Exec α} {next : α → Exec β}

theorem composed (composed : Composed (fun _ => False) exec) : Unlocated limits locals s exec :=
  Run.Unlocated.composed (composed locals)

theorem bind (first : Unlocated limits locals s exec)
    (rest : ∀ a locals' s', exec locals limits s = .ok (a, locals') s' →
      Unlocated limits locals' s' (next a)) : Unlocated limits locals s (exec >>= next) :=
  Run.Unlocated.bind first fun r s' => rest r.1 r.2 s'

theorem lift {run : Run α} (first : Run.Unlocated limits s run)
    (rest : ∀ a s', run limits s = .ok a s' → Unlocated limits locals s' (next a)) :
    Unlocated limits locals s ((liftM run : Exec α) >>= next) := by
  refine bind (Run.Unlocated.bind first fun a _ _ => .composed (.pure _)) fun a locals' s' ran => ?_
  obtain ⟨a', s₁, ofRun, is⟩ := Meter.Scales.bind_ok ran
  cases is
  exact rest a s' ofRun

theorem lift_ok {run : Run α} {a : α} (ran : run limits s = .ok a s₁)
    (rest : Unlocated limits locals s₁ (next a)) :
    Unlocated limits locals s ((liftM run : Exec α) >>= next) :=
  lift (.of_ok ran) fun b s₂ ran' => by
    cases ran.symm.trans ran'
    exact rest

theorem tick {exec : Exec β} (rest : ∀ s₁, Run.tick limits s = .ok () s₁ →
    Unlocated limits locals s₁ exec) :
    Unlocated limits locals s ((liftM Run.tick : Exec Unit) >>= fun _ => exec) :=
  lift (.composed .tick) fun _ => rest

theorem step_place {exec : Exec β}
    (failed : Exec.located p ((liftM Run.tick : Exec Unit) >>= fun _ => exec) locals limits s =
      .error f s')
    (rest : ∀ s₁, Run.tick limits s = .ok () s₁ → Unlocated limits locals s₁ exec) :
    f.position = some p :=
  Run.Unlocated.place (tick rest) failed

theorem eval {e : Code} {v : Value} {next : Value → Exec β}
    (ran : e.eval classes locals limits s = .ok v s₁)
    (rest : Unlocated limits locals s₁ (next v)) :
    Unlocated limits locals s (Exec.eval classes e >>= next) := by
  intro f s' failed
  rw [eval_bind_ok ran] at failed
  exact rest f s' failed

theorem store {slot : Nat} {v : Value} {next : Unit → Exec β}
    (rest : ∀ locals' s', Exec.store slot v locals limits s = .ok ((), locals') s' →
      Unlocated limits locals' s' (next ())) :
    Unlocated limits locals s (Exec.store slot v >>= next) :=
  bind (composed (.store slot v)) fun _ => rest

end Unlocated

end Exec

theorem Instr.FailsItself.place_self (itself : i.FailsItself limits classes locals s f s')
    (given : ∀ part, ¬i.Refuses limits classes locals s part) : f.position = some i.position := by
  obtain ⟨failed, parts, blocks⟩ := itself
  cases i with
  | store p slot value =>
    rw [Instr.exec] at failed
    refine Exec.Unlocated.step_place failed fun s₁ ticked => ?_
    obtain ⟨v, s₂, ran⟩ := parts value s₁ (.head ticked trivial)
    exact .eval ran (.store fun _ _ _ => .composed (.pure _))
  | eval p value | give p value =>
    rw [Instr.exec] at failed
    refine Exec.Unlocated.step_place failed fun s₁ ticked => ?_
    obtain ⟨v, s₂, ran⟩ := parts value s₁ (.head ticked trivial)
    exact .eval ran (.composed (.pure _))
  | setField p target owner name value =>
    rw [Instr.exec] at failed
    refine Exec.Unlocated.step_place failed fun s₁ ticked => ?_
    obtain ⟨v, s₂, ofTarget⟩ := parts target s₁ (.head ticked trivial)
    have nonNull : v ≠ .null := fun null => given target (.receiver ticked (null ▸ ofTarget))
    obtain ⟨x, s₃, ofValue⟩ := parts value s₂ (.second ticked ofTarget nonNull)
    refine .eval ofTarget (.lift_ok (receiver_ok nonNull) (.eval ofValue (.composed ?_)))
    exact (Exec.Composed.lift (.requireClass classes owner)).bind fun _ =>
      (Exec.Composed.lift (.setField owner name v x)).bind fun _ => .pure _
  | choose p cond body otherwise =>
    rw [Instr.exec] at failed
    refine Exec.Unlocated.step_place failed fun s₁ ticked => ?_
    obtain ⟨v, s₂, ofCond⟩ := parts cond s₁ (.head ticked trivial)
    obtain ⟨b, rfl⟩ : ∃ b, v = .bool b := by
      by_contra refused
      exact given cond (.condition ticked ofCond fun b is => refused ⟨b, is⟩)
    obtain ⟨locals₂, s₃, ended⟩ := blocks _ locals s₂ (.branch ticked ofCond)
    refine .eval ofCond (.lift_ok (located_asBool ..) ?_)
    cases b <;> exact Run.Unlocated.of_ok ended
  | loop p slot first last body =>
    rw [Instr.exec_loop] at failed
    refine Exec.Unlocated.step_place failed fun s₁ ticked => ?_
    obtain ⟨v, s₂, ofFirst⟩ := parts first s₁ (.head ticked trivial)
    obtain ⟨a, rfl⟩ : ∃ a, v = .int a := by
      by_contra refused
      exact given first (.first ticked ofFirst fun n is => refused ⟨n, is⟩)
    obtain ⟨w, s₃, ofLast⟩ := parts last s₂ (.second ticked ofFirst ⟨a, rfl⟩)
    obtain ⟨b, rfl⟩ : ∃ b, w = .int b := by
      by_contra refused
      exact given last (.last ticked ofFirst ofLast fun n is => refused ⟨n, is⟩)
    refine .eval ofFirst (.lift_ok (located_asInt ..) ?_)
    refine .eval ofLast (.lift_ok (located_asInt ..) ?_)
    intro g t broke
    -- The round that fails takes no step or stores nothing: its block is carried out to its end.
    obtain ⟨k, fits, locals₁, s₄, before, ofRound⟩ := (Exec.iterate_breaks_iff (by simp)).1 broke
    have unlocated :
        Exec.Unlocated limits locals₁ s₄ (Exec.round classes slot body (a.toInt + k)) :=
      .tick fun s₅ ticked' => .store fun locals₂ s₆ stored => by
        obtain ⟨locals₃, s₇, ended⟩ := blocks body locals₂ s₆
          (.round ticked ofFirst ofLast fits (Exec.iterate_next_iff.2 before) ticked' stored)
        exact Run.Unlocated.of_ok ended
    exact unlocated g t ofRound

/-! ## Origins -/

theorem Instr.exec_placed (failed : i.exec classes locals limits s = .error f s') :
    ∃ q, f.position = some q := by
  cases i <;> rw [Instr.exec] at failed <;> exact located_placed failed

theorem execAll_placed {body : List Instr}
    (failed : execAll classes body locals limits s = .error f s') : ∃ q, f.position = some q := by
  induction body generalizing locals s with
  | nil => cases failed
  | cons i rest ih =>
    rcases ran : i.exec classes locals limits s with ⟨⟨_ | v, locals₁⟩, s₁⟩ | ⟨g, s₁⟩
    · exact ih ((execAll_of_next ran).symm.trans failed)
    · cases (execAll_of_other ran (by simp)).symm.trans failed
    · cases (execAll_of_other ran (by simp)).symm.trans failed
      exact i.exec_placed ran

theorem HandedOn.of_execAll {body : List Instr} (ran : execAll classes body locals limits s = o)
    (ends : ∀ locals' s', o ≠ .ok (.next, locals') s') : HandedOn o := by
  rcases o with ⟨⟨_ | v, locals'⟩, s'⟩ | ⟨f, s'⟩
  · exact absurd rfl (ends locals' s')
  · exact .give
  · obtain ⟨q, placed⟩ := execAll_placed ran
    exact .error placed

/-- What a block hands on is the outcome of an innermost statement that it comes to. -/
theorem execAll_innermost (body : List Instr) {locals : Array Value} {s : RunState}
    (ran : execAll classes body locals limits s = o)
    (ends : ∀ locals' s', o ≠ .ok (.next, locals') s') :
    ∃ i locals₁ s₁, ReachesIn limits classes body locals s i locals₁ s₁ ∧
      i.exec classes locals₁ limits s₁ = o ∧ i.EndsBlocks limits classes locals₁ s₁ := by
  -- The statement that decides is found along the block, then in the block that it hands on from,
  -- which is smaller.
  match body with
  | [] => exact absurd ran.symm (ends locals s)
  | i :: rest =>
    by_cases goesOn : ∃ locals₁ s₁, i.exec classes locals limits s = .ok (.next, locals₁) s₁
    · obtain ⟨locals₁, s₁, ofFirst⟩ := goesOn
      have ofRest := (execAll_of_next ofFirst).symm.trans ran
      obtain ⟨j, locals₂, s₂, reaches, outcome⟩ := execAll_innermost rest ofRest ends
      exact ⟨j, locals₂, s₂, .later ofFirst reaches, outcome⟩
    · have first : i.exec classes locals limits s = o :=
        (execAll_of_other rfl fun _ _ is => goesOn ⟨_, _, is⟩).symm.trans ran
      by_cases inner : i.EndsBlocks limits classes locals s
      · exact ⟨i, locals, s, .first, first, inner⟩
      · unfold Instr.EndsBlocks at inner
        push Not at inner
        obtain ⟨block, locals₁, s₁, enters, breaks⟩ := inner
        have smaller := enters.sizeOf_lt
        have handed := HandedOn.of_execAll rfl breaks
        have ofBlock := (Instr.exec_of_block enters rfl handed).symm.trans first
        obtain ⟨j, locals₂, s₂, reaches, outcome⟩ := execAll_innermost block ofBlock ends
        exact ⟨j, locals₂, s₂, enters.reaches reaches, outcome⟩
termination_by sizeOf body

end SceneScript
