import SceneScript.Proofs.Invocation
import SceneScript.Proofs.Machine.Edits
import SceneScript.Proofs.Soundness

/-!
# Traces

The trace of a run lists its acts in their order, following the evaluation, up to the first one that
fails. Carrying out these acts one after another does what the run does (`Loaded.follows_body`), so
what holds of every sequence of acts holds all along the runs of programs.
-/

namespace SceneScript

open Run

/-! ## Traces -/

/-- The acts of a run under given limits in a given state. -/
abbrev Trace := Limits → RunState → List Act

namespace Trace

variable {α : Type}

def none : Trace := fun _ _ => []

def act (a : Act) : Trace := fun _ _ => [a]

def andThen (t : Trace) (run : Run α) (next : α → Trace) : Trace := fun limits s =>
  t limits s ++ match run limits s with
    | .ok a s' => next a limits s'
    | .error _ _ => []

def after (run : Run α) (next : α → Trace) : Trace :=
  none.andThen run next

def step (a : Act) (t : Trace) : Trace :=
  (act a).andThen tick fun _ => t

end Trace

open Trace

mutual

def Code.trace (classes : List HostClass) (locals : Array Value) (e : Code) : Trace :=
  step (.expression e) <| match e with
  | .const .. | .load .. => none
  | .getField _ target owner name =>
    (target.trace classes locals).andThen (target.eval classes locals) fun v =>
      after (receiver target.position name v) fun v =>
        after (requireClass classes owner) fun _ => act (.call (.get owner name v))
  | .call _ target owner name args =>
    (target.trace classes locals).andThen (target.eval classes locals) fun v =>
      after (receiver target.position name v) fun v =>
        (traceAll classes locals args).andThen (evalAll classes locals args) fun args =>
          after (requireClass classes owner) fun _ => act (.call (.method owner name v args))
  | .getConstant _ owner name =>
    after (requireClass classes owner) fun _ => act (.call (.constant owner name))
  | .callStatic _ owner name args =>
    (traceAll classes locals args).andThen (evalAll classes locals args) fun args =>
      after (requireClass classes owner) fun _ => act (.call (.static owner name args))
  | .unary _ _ operand | .widen _ operand => operand.trace classes locals
  | .binary _ .and left right =>
    (left.trace classes locals).andThen (left.eval classes locals) fun v =>
      if v = .bool true then right.trace classes locals else none
  | .binary _ .or left right =>
    (left.trace classes locals).andThen (left.eval classes locals) fun v =>
      if v = .bool false then right.trace classes locals else none
  | .binary _ _ left right =>
    (left.trace classes locals).andThen (left.eval classes locals) fun _ =>
      right.trace classes locals
  | .concat _ left right =>
    (left.trace classes locals).andThen (left.eval classes locals) fun a =>
      (right.trace classes locals).andThen (right.eval classes locals) fun b =>
        (act (.display a)).andThen (Run.display a) fun s =>
          (act (.display b)).andThen (Run.display b) fun t => act (.string (s ++ t))

def traceAll (classes : List HostClass) (locals : Array Value) : List Code → Trace
  | [] => none
  | e :: rest =>
    (e.trace classes locals).andThen (e.eval classes locals) fun _ => traceAll classes locals rest

end

def traceRounds (body : Int → Exec Flow) (acts : Int → Array Value → Trace) :
    Nat → Int → Array Value → Trace
  | 0, _, _ => none
  | rounds + 1, i, locals => (acts i locals).andThen (body i locals) fun
    | (.next, locals) => traceRounds body acts rounds (i + 1) locals
    | (.give _, _) => none

mutual

def Instr.trace (classes : List HostClass) (i : Instr) (locals : Array Value) : Trace :=
  step (.statement i) <| match i with
  | .store _ _ value | .give _ value | .eval _ value => value.trace classes locals
  | .setField _ target owner name value =>
    (target.trace classes locals).andThen (target.eval classes locals) fun v =>
      after (receiver target.position name v) fun v =>
        (value.trace classes locals).andThen (value.eval classes locals) fun x =>
          after (requireClass classes owner) fun _ => act (.call (.set owner name v x))
  | .choose _ cond body otherwise =>
    (cond.trace classes locals).andThen (cond.eval classes locals) fun c =>
      if c = .bool true then traceBlock classes body locals
      else if c = .bool false then traceBlock classes otherwise locals
      else none
  | .loop _ slot first last body =>
    (first.trace classes locals).andThen (first.eval classes locals) fun a =>
      after (located first.position a.asInt) fun a =>
        (last.trace classes locals).andThen (last.eval classes locals) fun b =>
          after (located last.position b.asInt) fun b =>
            traceRounds (Exec.round classes slot body)
              (fun i locals => step (.round i) <|
                after (Exec.store slot (.int (Int64.ofInt i)) locals) fun (_, locals) =>
                  traceBlock classes body locals)
              (b.toInt - a.toInt).toNat a.toInt locals

def traceBlock (classes : List HostClass) : List Instr → Array Value → Trace
  | [] => fun _ => none
  | i :: rest => fun locals => (i.trace classes locals).andThen (i.exec classes locals) fun
    | (.next, locals) => traceBlock classes rest locals
    | (.give _, _) => none

end

def Loaded.trace (loaded : Loaded) : Trace :=
  (act .builder).andThen newBuilder fun builder =>
    traceBlock loaded.classes loaded.program.body (loaded.program.locals builder)

/-! ## Runs follow their traces -/

/-- Carrying out the acts of a trace comes to the state in which the run ends, and fails for the
same cause, unless the run fails on its own account. -/
def Run.Follows {α : Type} (run : Run α) (t : Trace) : Prop := ∀ limits s,
  match run limits s with
  | .ok _ s' => Act.runAll (t limits s) limits s = .ok () s'
  | .error f s' =>
    (∃ f', Act.runAll (t limits s) limits s = .error f' s' ∧ f'.cause = f.cause) ∨
    Act.runAll (t limits s) limits s = .ok () s' ∧ f.cause.isStepLimit = false

namespace Run.Follows

variable {α β : Type} {run : Run α} {next : α → Run β} {t : Trace} {more : α → Trace}

theorem pure (a : α) : Follows (pure a) Trace.none :=
  fun _ _ => rfl

theorem fault {cause : FaultCause} (stepless : cause.isStepLimit = false) :
    Follows (fault cause : Run α) Trace.none :=
  fun _ _ => .inr ⟨rfl, stepless⟩

theorem lift (x : Except FaultCause α) [stepless : Stepless x] :
    Follows (liftM x : Run α) Trace.none := by
  cases x with
  | ok a => exact pure a
  | error cause => exact fault (stepless.stepless rfl)

theorem bind (first : Follows run t) (rest : ∀ a, Follows (next a) (more a)) :
    Follows (run >>= next) (t.andThen run more) := by
  intro limits s
  have ends := first limits s
  unfold Trace.andThen
  rw [bind_apply, Act.runAll_append, bind_apply]
  cases ran : run limits s with
  | ok a s₁ =>
    rw [ran] at ends
    dsimp only at ends ⊢
    rw [ends]
    exact rest a limits s₁
  | error f s₁ =>
    rw [ran] at ends
    obtain ⟨f', failed, same⟩ | ⟨acted, stepless⟩ := ends
    · exact .inl ⟨f', by rw [failed], same⟩
    · exact .inr ⟨by rw [acted]; rfl, stepless⟩

theorem quiet (first : Follows run t) (rest : ∀ a, Follows (next a) Trace.none) :
    Follows (run >>= next) t := by
  have none : t.andThen run (fun _ => Trace.none) = t := by
    funext limits s
    unfold Trace.andThen Trace.none
    cases run limits s <;> exact List.append_nil _
  have follows := first.bind rest
  rwa [none] at follows

theorem located {p : Position} (follows : Follows run t) : Follows (located p run) t := by
  intro limits s
  have ends := follows limits s
  unfold Run.located
  cases ran : run limits s with
  | ok a s' => rwa [ran] at ends
  | error f s' => rwa [ran] at ends

theorem act {a : Act} (same : a.run = run >>= fun _ => Pure.pure ()) :
    Follows run (Trace.act a) := by
  intro limits s
  have ran : Act.runAll (Trace.act a limits s) = run >>= fun _ => Pure.pure () := by
    rw [Trace.act, Act.runAll, same, bind_assoc]
    rfl
  rw [ran, bind_apply]
  cases run limits s with
  | ok b s' => rfl
  | error f s' => exact .inl ⟨f, rfl, rfl⟩

theorem tick {a : Act} (isTick : a.run = Run.tick) : Follows Run.tick (Trace.act a) :=
  act (isTick.trans (bind_pure Run.tick).symm)

theorem step {p : Position} {a : Act} (isTick : a.run = Run.tick) (follows : Follows run t) :
    Follows (Run.located p (Run.tick >>= fun _ => run)) (Trace.step a t) :=
  .located ((tick isTick).bind fun _ => follows)

theorem call (c : Call) : Follows c.run (Trace.act (.call c)) :=
  act rfl

theorem setField (owner : HostClass) (name : String) (receiver value : Value) :
    Follows (owner.setField name receiver value)
      (Trace.act (.call (.set owner name receiver value))) :=
  act (by rw [Act.run, Call.run, bind_assoc]; rfl)

theorem decide {v : Value} {test : Run Bool} {next : Bool → Run α}
    (tests : test = liftM v.asBool ∨ ∃ p, test = Run.located p (liftM v.asBool))
    (rest : ∀ b, v = .bool b → Follows (next b) t) (other : (∀ b, v ≠ .bool b) → t = Trace.none) :
    Follows (test >>= next) t := by
  cases v with
  | bool b => obtain rfl | ⟨p, rfl⟩ := tests <;> exact rest b rfl
  | _ =>
    rw [other nofun]
    obtain rfl | ⟨p, rfl⟩ := tests <;> exact fun _ _ => .inr ⟨rfl, rfl⟩

theorem readSlot (locals : Array Value) (slot : Nat) :
    Follows (readSlot locals slot) Trace.none := by
  unfold SceneScript.readSlot
  split
  · exact pure _
  · exact fault rfl

theorem requireClass (classes : List HostClass) (c : HostClass) :
    Follows (requireClass classes c) Trace.none := by
  unfold SceneScript.requireClass
  split
  · exact pure ()
  · exact fault rfl

theorem receiver (p : Position) (member : String) (v : Value) :
    Follows (receiver p member v) Trace.none := by
  unfold SceneScript.receiver
  split
  · exact located (fault rfl)
  · exact pure v

end Run.Follows

theorem Code.trace_binary {classes : List HostClass} {locals : Array Value} {p : Position}
    {op : Source.BinaryOp} {left right : Code} (strict : op ∉ [.and, .or]) :
    (Code.binary p op left right).trace classes locals =
      step (.expression (.binary p op left right))
        ((left.trace classes locals).andThen (left.eval classes locals) fun _ =>
          right.trace classes locals) := by
  cases op with
  | and | or => simp at strict
  | _ => rw [Code.trace] <;> simp

theorem Code.trace_logic {classes : List HostClass} {locals : Array Value} {p : Position}
    {op : Source.BinaryOp} {left right : Code} (logical : op ∈ [.and, .or]) :
    (Code.binary p op left right).trace classes locals =
      step (.expression (.binary p op left right))
        ((left.trace classes locals).andThen (left.eval classes locals) fun v =>
          if v = .bool (!BinaryOp.decisive op) then right.trace classes locals else none) := by
  fin_cases logical <;> rfl

mutual

theorem Code.follows_eval {classes : List HostClass} {locals : Array Value} :
    ∀ e : Code, Follows (e.eval classes locals) (e.trace classes locals)
  | .const p c => by
    rw [Code.eval, Code.trace]
    exact .step rfl (.pure _)
  | .load p slot => by
    rw [Code.eval, Code.trace]
    exact .step rfl (.readSlot locals slot)
  | .getField p target owner name => by
    rw [Code.eval, Code.trace]
    refine .step rfl (target.follows_eval.bind fun v => (Follows.receiver _ _ v).bind fun r => ?_)
    exact (Follows.requireClass classes owner).bind fun _ => .call (.get owner name r)
  | .call p target owner name args => by
    rw [Code.eval, Code.trace]
    refine .step rfl (target.follows_eval.bind fun v => (Follows.receiver _ _ v).bind fun r => ?_)
    refine (follows_evalAll args).bind fun vs => ?_
    exact (Follows.requireClass classes owner).bind fun _ => .call (.method owner name r vs)
  | .getConstant p owner name => by
    rw [Code.eval, Code.trace]
    refine .step rfl ((Follows.requireClass classes owner).bind fun _ => ?_)
    exact .call (.constant owner name)
  | .callStatic p owner name args => by
    rw [Code.eval, Code.trace]
    refine .step rfl ((follows_evalAll args).bind fun vs => ?_)
    exact (Follows.requireClass classes owner).bind fun _ => .call (.static owner name vs)
  | .unary p op operand => by
    rw [Code.eval, Code.trace]
    exact .step rfl (operand.follows_eval.quiet fun v => .lift _)
  | .binary p op left right => by
    by_cases logical : op ∈ [.and, .or]
    · rw [Code.eval_logic logical, Code.trace_logic logical]
      refine .step rfl (left.follows_eval.bind fun v => .decide (.inl rfl) (fun b is => ?_) ?_)
      · subst is
        simp only [Value.bool_eq_not_iff, ite_not]
        split
        · exact .pure _
        · exact right.follows_eval.quiet fun w => (Follows.lift _).quiet fun c => .pure _
      · exact fun other => if_neg (other _)
    · rw [Code.eval_binary logical, Code.trace_binary logical]
      exact .step rfl (left.follows_eval.bind fun a => right.follows_eval.quiet fun b => .lift _)
  | .concat p left right => by
    rw [Code.eval, Code.trace]
    refine .step rfl (left.follows_eval.bind fun a => right.follows_eval.bind fun b => ?_)
    exact (Follows.act rfl).bind fun s => (Follows.act rfl).bind fun t => .act rfl
  | .widen p operand => by
    rw [Code.eval, Code.trace]
    exact .step rfl (operand.follows_eval.quiet fun v => (Follows.lift _).quiet fun x => .pure _)

theorem follows_evalAll {classes : List HostClass} {locals : Array Value} :
    ∀ es : List Code, Follows (evalAll classes locals es) (traceAll classes locals es)
  | [] => by
    rw [evalAll, traceAll]
    exact .pure []
  | e :: rest => by
    rw [evalAll, traceAll]
    exact e.follows_eval.bind fun v => (follows_evalAll rest).quiet fun vs => .pure _

end

/-! ## Statements -/

def Exec.Follows {α : Type} (exec : Exec α) (t : Array Value → Trace) : Prop :=
  ∀ locals, Run.Follows (exec locals) (t locals)

theorem Exec.follows_store (slot : Nat) (v : Value) :
    Exec.Follows (Exec.store slot v) fun _ => Trace.none := by
  intro locals
  change Run.Follows ((if slot < locals.size then _ else _ : Exec Unit) locals) _
  split
  · exact .pure ((), locals.setIfInBounds slot v)
  · exact fun _ _ => .inr ⟨rfl, rfl⟩

theorem Exec.follows_iterate {body : Int → Exec Flow} {acts : Int → Array Value → Trace}
    (each : ∀ i, Exec.Follows (body i) (acts i)) (rounds : Nat) (i : Int) :
    Exec.Follows (Exec.iterate body rounds i) (traceRounds body acts rounds i) := by
  induction rounds generalizing i with
  | zero => exact fun locals => .pure _
  | succ rounds ih =>
    refine fun locals => (each i locals).bind fun (flow, locals') => ?_
    cases flow with
    | next => exact ih (i + 1) locals'
    | give v => exact .pure _

section

variable {α β : Type} {classes : List HostClass} {locals : Array Value} {t : Trace}

theorem Exec.lift_bind (run : Run α) (next : α → Exec β) (locals : Array Value) :
    ((liftM run : Exec α) >>= next) locals = run >>= fun a => next a locals := by
  change (run >>= fun a => pure (a, locals)) >>= (fun r => next r.1 r.2) = _
  simp only [bind_assoc, pure_bind]

theorem Exec.eval_bind (e : Code) (next : Value → Exec β) (locals : Array Value) :
    (Exec.eval classes e >>= next) locals =
      e.eval classes locals >>= fun v => next v locals :=
  Exec.lift_bind (e.eval classes locals) next locals

theorem Run.Follows.statement {p : Position} {i : Instr} {exec : Exec α}
    (follows : Follows (exec locals) t) :
    Follows (Exec.located p ((liftM Run.tick : Exec Unit) >>= fun _ => exec) locals)
      (Trace.step (.statement i) t) := by
  unfold Exec.located
  rw [Exec.lift_bind]
  exact .step rfl follows

theorem Run.Follows.eval {e : Code} {next : Value → Exec α} {t : Value → Trace}
    (rest : ∀ v, Follows (next v locals) (t v)) :
    Follows ((Exec.eval classes e >>= next) locals)
      ((e.trace classes locals).andThen (e.eval classes locals) t) := by
  rw [Exec.eval_bind]
  exact e.follows_eval.bind rest

theorem Run.Follows.evalLast {e : Code} {next : Value → Exec α}
    (rest : ∀ v, Follows (next v locals) Trace.none) :
    Follows ((Exec.eval classes e >>= next) locals) (e.trace classes locals) := by
  rw [Exec.eval_bind]
  exact e.follows_eval.quiet rest

theorem Run.Follows.after {run : Run α} {next : α → Exec β} {t : α → Trace}
    (quiet : Follows run Trace.none) (rest : ∀ a, Follows (next a locals) (t a)) :
    Follows (((liftM run : Exec α) >>= next) locals) (Trace.after run t) := by
  rw [Exec.lift_bind]
  exact quiet.bind rest

end

theorem Exec.follows_round {classes : List HostClass} {body : List Instr} (slot : Nat)
    (follows : Exec.Follows (execAll classes body) (traceBlock classes body)) (i : Int) :
    Exec.Follows (Exec.round classes slot body i) fun locals => step (.round i) <|
      Trace.after (Exec.store slot (.int (Int64.ofInt i)) locals) fun (_, locals) =>
        traceBlock classes body locals := by
  intro locals
  unfold Exec.round
  rw [Exec.lift_bind]
  refine Follows.bind (.tick rfl) fun _ => ?_
  exact (Exec.follows_store slot _ locals).bind fun r => follows r.2

mutual

theorem Instr.follows_exec {classes : List HostClass} :
    ∀ i : Instr, Exec.Follows (i.exec classes) (i.trace classes)
  | .store p slot value => by
    intro locals
    rw [Instr.exec, Instr.trace]
    refine .statement (.evalLast fun v => ?_)
    exact (Exec.follows_store slot v locals).quiet fun _ => .pure _
  | .setField p target owner name value => by
    intro locals
    rw [Instr.exec, Instr.trace]
    refine .statement (.eval fun v => .after (.receiver _ _ v) fun r => .eval fun x => ?_)
    refine .after (.requireClass classes owner) fun _ => ?_
    rw [Exec.lift_bind]
    exact (Follows.setField owner name r x).quiet fun _ => .pure _
  | .choose p cond body otherwise => by
    intro locals
    rw [Instr.exec, Instr.trace]
    refine .statement (.eval fun c => ?_)
    rw [Exec.lift_bind]
    refine .decide (.inr ⟨_, rfl⟩) (fun b is => ?_) fun other => ?_
    · cases is
      cases b
      · exact follows_execAll otherwise locals
      · exact follows_execAll body locals
    · rw [if_neg (other _), if_neg (other _)]
  | .loop p slot first last body => by
    intro locals
    rw [Instr.exec_loop, Instr.trace]
    refine .statement (.eval fun a => .after (.located (.lift _)) fun a => ?_)
    refine .eval fun b => .after (.located (.lift _)) fun b => ?_
    exact Exec.follows_iterate (Exec.follows_round slot (follows_execAll body)) _ _ locals
  | .give p value => by
    intro locals
    rw [Instr.exec, Instr.trace]
    exact .statement (.evalLast fun v => .pure _)
  | .eval p value => by
    intro locals
    rw [Instr.exec, Instr.trace]
    exact .statement (.evalLast fun v => .pure _)

theorem follows_execAll {classes : List HostClass} :
    ∀ body : List Instr, Exec.Follows (execAll classes body) (traceBlock classes body)
  | [] => by
    intro locals
    exact .pure _
  | i :: rest => by
    intro locals
    rw [execAll, traceBlock]
    refine (i.follows_exec locals).bind fun (flow, locals') => ?_
    cases flow with
    | next => exact follows_execAll rest locals'
    | give v => exact .pure _

end

theorem Program.follows_run (classes : List HostClass) (program : Program) (param : Value) :
    Follows (program.run classes param)
      (traceBlock classes program.body (program.locals param)) := by
  have follows : Follows (execAll classes program.body (program.locals param)) _ :=
    follows_execAll program.body (program.locals param)
  refine Follows.quiet (follows.quiet fun r => .pure r.1) fun flow => ?_
  cases flow with
  | next => exact .pure _
  | give v => exact .pure _

theorem Loaded.follows_body (loaded : Loaded) : Follows loaded.body loaded.trace :=
  (Follows.act rfl).bind fun builder =>
    Program.follows_run loaded.classes loaded.program builder

/-- A run of a program comes to a state by the first acts of its trace, none of which has failed. -/
def Loaded.Passes (loaded : Loaded) (limits : Limits) (n : Nat) (acts : List Act) (s : RunState) :
    Prop :=
  acts <+: loaded.trace limits (.start n) ∧ Act.runAll acts limits (.start n) = .ok () s

theorem Run.Follows.last {α : Type} {run : Run α} {t : Trace} (follows : Follows run t)
    (limits : Limits) (s : RunState) :
    (Act.runAll (t limits s)).last limits s = run.last limits s := by
  have ends := follows limits s
  unfold Run.last
  cases ran : run limits s with
  | ok a s' =>
    rw [ran] at ends
    rw [ends]
  | error f s' =>
    rw [ran] at ends
    obtain ⟨f', failed, -⟩ | ⟨acted, -⟩ := ends
    · rw [failed]
    · rw [acted]

end SceneScript
