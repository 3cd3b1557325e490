import SceneScript.Proofs.Machine.Stays

/-!
# Programs keep texts and arrays small

Where the literals of an expression are among those that the bound is made of, the expression gives
a value that fits the bound and leaves a state in which nothing is too long (`Code.stays_eval`), and
so do statements with their variables (`Instr.stays_exec`).
-/

namespace SceneScript

open Run

/-! ## Literals -/

def Constant.literals : Constant → List String
  | .string t => [t]
  | _ => []

mutual

def Code.literals : Code → List String
  | .const _ c => c.literals
  | .load .. | .getConstant .. => []
  | .getField _ target _ _ => target.literals
  | .call _ target _ _ args => target.literals ++ literalsAll args
  | .callStatic _ _ _ args => literalsAll args
  | .unary _ _ operand | .widen _ operand => operand.literals
  | .binary _ _ left right | .concat _ left right => left.literals ++ right.literals

def literalsAll : List Code → List String
  | [] => []
  | e :: rest => e.literals ++ literalsAll rest

end

mutual

def Instr.literals : Instr → List String
  | .store _ _ value | .give _ value | .eval _ value => value.literals
  | .setField _ target _ _ value => target.literals ++ value.literals
  | .choose _ cond body otherwise => cond.literals ++ (literalsIn body ++ literalsIn otherwise)
  | .loop _ _ first last body => first.literals ++ (last.literals ++ literalsIn body)

def literalsIn : List Instr → List String
  | [] => []
  | i :: rest => i.literals ++ literalsIn rest

end

def Loaded.literals (loaded : Loaded) : List String :=
  literalsIn loaded.program.body

/-! ## Operators give no text -/

theorem fitting_textless {n? : Option Int64} {v : Value} (gives : fitting n? = .ok v) :
    v.textBytes = 0 := by
  cases n? <;> cases gives
  rfl

theorem UnaryOp.textless {op : Source.UnaryOp} {v v' : Value}
    (gives : UnaryOp.apply op v = .ok v') : v'.textBytes = 0 := by
  unfold UnaryOp.apply at gives
  split at gives
  · split at gives <;> cases gives
    rfl
  · cases gives
    rfl
  · cases gives
    rfl
  · cases gives

theorem BinaryOp.textless_int {op : Source.BinaryOp} {a b : Int64} {v : Value}
    (gives : BinaryOp.applyInt op a b = .ok v) : v.textBytes = 0 := by
  cases op with
  | add | sub | mul => exact fitting_textless gives
  | div | rem =>
    simp only [BinaryOp.applyInt] at gives
    split at gives
    · cases gives
    · exact fitting_textless gives
  | _ => cases gives <;> rfl

theorem BinaryOp.textless {op : Source.BinaryOp} {a b v : Value}
    (gives : BinaryOp.apply op a b = .ok v) : v.textBytes = 0 := by
  unfold BinaryOp.apply at gives
  split at gives
  · cases gives
    rfl
  · cases gives
    rfl
  · split at gives
    · exact textless_int gives
    · cases op <;> cases gives <;> rfl
    · cases gives

variable {limits : Limits} {literals : List String} {s s' : RunState} {locals : Array Value}

/-! ## Expressions -/

mutual

theorem Code.stays_eval {classes : List HostClass} :
    ∀ {e : Code} {s : RunState}, s.SizedWith limits literals locals → e.literals ⊆ literals →
      Stays limits literals s (e.eval classes locals) (e.trace classes locals)
        fun v n => v.textBytes ≤ n
  | .const p c, s, holds, sub => by
    rw [Code.eval, Code.trace]
    refine .step rfl holds.sized fun s₁ later => .pure later.sized ?_
    cases c with
    | string t => exact RunState.literal_le (sub List.mem_cons_self)
    | _ => exact Nat.zero_le _
  | .load p slot, s, holds, sub => by
    rw [Code.eval, Code.trace]
    refine .step rfl holds.sized fun s₁ later => ?_
    exact .quietly later.sized (ends_readSlot (holds.later later).locals slot)
  | .getField p target owner name, s, holds, sub => by
    rw [Code.eval, Code.trace]
    refine .step rfl holds.sized fun s₁ later => ?_
    refine .bind target.follows_eval (target.stays_eval (holds.later later) sub) ?_
    rintro v s₂ later₂ short
    refine .after later₂.sized (ends_receiver _ _ v) ?_
    rintro r rfl
    refine .after later₂.sized (ends_requireClass classes owner) fun _ _ => ?_
    exact .call (c := .get owner name r) later₂.sized (List.forall_mem_singleton.2 short)
  | .call p target owner name args, s, holds, sub => by
    obtain ⟨ofTarget, ofArgs⟩ := List.append_subset.1 sub
    rw [Code.eval, Code.trace]
    refine .step rfl holds.sized fun s₁ later => ?_
    refine .bind target.follows_eval (target.stays_eval (holds.later later) ofTarget) ?_
    rintro v s₂ later₂ short
    refine .after later₂.sized (ends_receiver _ _ v) ?_
    rintro r rfl
    have holds₂ := (holds.later later).later later₂
    refine .bind (follows_evalAll args) (stays_evalAll holds₂ ofArgs) fun vs s₃ later₃ shorts => ?_
    refine .after later₃.sized (ends_requireClass classes owner) fun _ _ => ?_
    refine .call (c := .method owner name r vs) later₃.sized ?_
    exact List.forall_mem_cons.2 ⟨later₃.fits short, shorts⟩
  | .getConstant p owner name, s, holds, _ => by
    rw [Code.eval, Code.trace]
    refine .step rfl holds.sized fun s₁ later => ?_
    refine .after later.sized (ends_requireClass classes owner) fun _ _ => ?_
    exact .call (c := .constant owner name) later.sized nofun
  | .callStatic p owner name args, s, holds, sub => by
    rw [Code.eval, Code.trace]
    refine .step rfl holds.sized fun s₁ later => ?_
    refine .bind (follows_evalAll args) (stays_evalAll (holds.later later) sub) ?_
    rintro vs s₂ later₂ shorts
    refine .after later₂.sized (ends_requireClass classes owner) fun _ _ => ?_
    exact .call (c := .static owner name vs) later₂.sized shorts
  | .unary p op operand, s, holds, sub => by
    rw [Code.eval, Code.trace]
    refine .step rfl holds.sized fun s₁ later => ?_
    refine (operand.stays_eval (holds.later later) sub).quiet fun v s₂ later₂ _ => ?_
    exact .lift later₂.sized fun v' gives => UnaryOp.textless gives ▸ Nat.zero_le _
  | .binary p op left right, s, holds, sub => by
    obtain ⟨ofLeft, ofRight⟩ := List.append_subset.1 sub
    by_cases logical : op ∈ [.and, .or]
    · rw [Code.eval_logic logical, Code.trace_logic logical]
      refine .step rfl holds.sized fun s₁ later => ?_
      have holds₁ := holds.later later
      refine .bind left.follows_eval (left.stays_eval holds₁ ofLeft) fun v s₂ later₂ _ => ?_
      refine .decide (.inl rfl) later₂.sized (fun b is => ?_) fun other => if_neg (other _)
      subst is
      simp only [Value.bool_eq_not_iff, ite_not]
      split
      · exact .pure later₂.sized (Nat.zero_le _)
      · refine (right.stays_eval (holds₁.later later₂) ofRight).quiet fun w s₃ later₃ _ => ?_
        exact .reads later₃.sized fun c => rfl
    · rw [Code.eval_binary logical, Code.trace_binary logical]
      refine .step rfl holds.sized fun s₁ later => ?_
      have holds₁ := holds.later later
      refine .bind left.follows_eval (left.stays_eval holds₁ ofLeft) fun a s₂ later₂ _ => ?_
      refine (right.stays_eval (holds₁.later later₂) ofRight).quiet fun b s₃ later₃ _ => ?_
      exact .lift later₃.sized fun v gives => BinaryOp.textless gives ▸ Nat.zero_le _
  | .concat p left right, s, holds, sub => by
    obtain ⟨ofLeft, ofRight⟩ := List.append_subset.1 sub
    rw [Code.eval, Code.trace]
    refine .step rfl holds.sized fun s₁ later => ?_
    have holds₁ := holds.later later
    refine .bind left.follows_eval (left.stays_eval holds₁ ofLeft) fun a s₂ later₂ _ => ?_
    have holds₂ := holds₁.later later₂
    refine .bind right.follows_eval (right.stays_eval holds₂ ofRight) fun b s₃ later₃ _ => ?_
    refine .bind (Follows.act rfl) (.display later₃.sized a) fun t s₄ later₄ _ => ?_
    refine .bind (Follows.act rfl) (.display later₄.sized b) fun u s₅ later₅ _ => ?_
    exact .string later₅.sized (t ++ u)
  | .widen p operand, s, holds, sub => by
    rw [Code.eval, Code.trace]
    refine .step rfl holds.sized fun s₁ later => ?_
    refine (operand.stays_eval (holds.later later) sub).quiet fun v s₂ later₂ _ => ?_
    exact .reads later₂.sized fun x => rfl

theorem stays_evalAll {classes : List HostClass} :
    ∀ {es : List Code} {s : RunState}, s.SizedWith limits literals locals →
      literalsAll es ⊆ literals →
      Stays limits literals s (evalAll classes locals es) (traceAll classes locals es)
        fun vs n => ∀ v ∈ vs, v.textBytes ≤ n
  | [], s, holds, _ => by
    rw [evalAll, traceAll]
    exact .pure holds.sized nofun
  | e :: rest, s, holds, sub => by
    obtain ⟨ofFirst, ofRest⟩ := List.append_subset.1 sub
    rw [evalAll, traceAll]
    refine .bind e.follows_eval (e.stays_eval holds ofFirst) fun v s₁ later short => ?_
    refine (stays_evalAll (holds.later later) ofRest).quiet fun vs s₂ later₂ shorts => ?_
    exact .pure later₂.sized (List.forall_mem_cons.2 ⟨later₂.fits short, shorts⟩)

end

/-! ## Statements -/

def Flow.Fits (r : Flow × Array Value) (n : Nat) : Prop :=
  (∀ v, r.1 = .give v → v.textBytes ≤ n) ∧ ∀ v ∈ r.2, v.textBytes ≤ n

def Exec.Stays (limits : Limits) (literals : List String) (exec : Exec Flow)
    (t : Array Value → Trace) : Prop :=
  ∀ s locals, s.SizedWith limits literals locals →
    Run.Stays limits literals s (exec locals) (t locals) Flow.Fits

theorem Exec.Stays.sized {exec : Exec Flow} {t : Array Value → Trace} {flow : Flow}
    {locals' : Array Value} (stays : Exec.Stays limits literals exec t)
    (holds : s.SizedWith limits literals locals)
    (ran : exec locals limits s = .ok (flow, locals') s') : s'.SizedWith limits literals locals' := by
  obtain ⟨later, fits⟩ := (stays s locals holds).ends.of_ok ran
  exact ⟨later.sized, fits.2⟩

section

variable {classes : List HostClass} {fits : Flow × Array Value → Nat → Prop} {t : Trace}

theorem Exec.ends_store {slot : Nat} {v : Value} (holds : s.SizedWith limits literals locals)
    (short : v.textBytes ≤ s.textBound limits literals) :
    Ends limits s (Exec.store slot v locals)
      (fun r s' => s' = s ∧ s.SizedWith limits literals r.2) fun _ s' => s' = s := by
  change Ends limits s ((if slot < locals.size then _ else _ : Exec Unit) locals) _ _
  split
  · refine .pure ⟨rfl, holds.sized, fun u mem => ?_⟩
    rcases Array.mem_or_eq_of_mem_setIfInBounds mem with old | rfl
    · exact holds.locals u old
    · exact short
  · exact .fault rfl

theorem Run.Stays.statement {p : Position} {i : Instr} {exec : Exec Flow}
    (sized : s.Sized limits literals)
    (rest : ∀ s₁, s.Later limits literals s₁ → Stays limits literals s₁ (exec locals) t fits) :
    Stays limits literals s
      (Exec.located p ((liftM Run.tick : Exec Unit) >>= fun _ => exec) locals)
      (Trace.step (.statement i) t) fits := by
  unfold Exec.located
  rw [Exec.lift_bind]
  exact .step rfl sized rest

theorem Run.Stays.eval {e : Code} {next : Value → Exec Flow} {more : Value → Trace}
    (holds : s.SizedWith limits literals locals) (sub : e.literals ⊆ literals)
    (rest : ∀ v s', s.Later limits literals s' → v.textBytes ≤ s'.textBound limits literals →
      Stays limits literals s' (next v locals) (more v) fits) :
    Stays limits literals s ((Exec.eval classes e >>= next) locals)
      ((e.trace classes locals).andThen (e.eval classes locals) more) fits := by
  rw [Exec.eval_bind]
  exact .bind e.follows_eval (e.stays_eval holds sub) rest

theorem Run.Stays.evalLast {e : Code} {next : Value → Exec Flow}
    (holds : s.SizedWith limits literals locals) (sub : e.literals ⊆ literals)
    (rest : ∀ v s', s'.SizedWith limits literals locals →
      v.textBytes ≤ s'.textBound limits literals → Stays limits literals s' (next v locals) Trace.none fits) :
    Stays limits literals s ((Exec.eval classes e >>= next) locals) (e.trace classes locals)
      fits := by
  rw [Exec.eval_bind]
  exact (e.stays_eval holds sub).quiet fun v s' later => rest v s' (holds.later later)

theorem Run.Stays.afterLift {α : Type} {run : Run α} {next : α → Exec Flow} {more : α → Trace}
    {ok : α → Prop} (sized : s.Sized limits literals)
    (looks : Ends limits s run (fun a s' => s' = s ∧ ok a) fun _ s' => s' = s)
    (rest : ∀ a, ok a → Stays limits literals s (next a locals) (more a) fits) :
    Stays limits literals s (((liftM run : Exec α) >>= next) locals) (Trace.after run more)
      fits := by
  rw [Exec.lift_bind]
  exact .after sized looks rest

theorem Exec.stays_iterate {body : Int → Exec Flow} {acts : Int → Array Value → Trace}
    (follows : ∀ i, Exec.Follows (body i) (acts i))
    (each : ∀ i, Exec.Stays limits literals (body i) (acts i)) (rounds : Nat) (i : Int) :
    Exec.Stays limits literals (Exec.iterate body rounds i) (traceRounds body acts rounds i) := by
  induction rounds generalizing i with
  | zero => exact fun _ _ holds => .pure holds.sized ⟨nofun, holds.locals⟩
  | succ rounds ih =>
    intro s locals holds
    refine .bind (follows i locals) (each i s locals holds) fun (flow, locals') s' later fits => ?_
    cases flow with
    | next => exact ih (i + 1) s' locals' ⟨later.sized, fits.2⟩
    | give v => exact .pure later.sized fits

theorem Exec.stays_round {body : List Instr} (slot : Nat)
    (stays : Exec.Stays limits literals (execAll classes body) (traceBlock classes body))
    (i : Int) : Exec.Stays limits literals (Exec.round classes slot body i) fun locals =>
      Trace.step (.round i) <|
        Trace.after (Exec.store slot (.int (Int64.ofInt i)) locals) fun (_, locals) =>
          traceBlock classes body locals := by
  intro s locals holds
  unfold Exec.round
  rw [Exec.lift_bind]
  refine .tick_bind rfl holds.sized fun s₁ later => ?_
  refine .after later.sized (Exec.ends_store (holds.later later) (Nat.zero_le _)) ?_
  exact fun r holds => stays s₁ r.2 holds

end

mutual

theorem Instr.stays_exec {classes : List HostClass} :
    ∀ {i : Instr}, i.literals ⊆ literals →
      Exec.Stays limits literals (i.exec classes) (i.trace classes)
  | .store p slot value, sub => by
    intro s locals holds
    rw [Instr.exec, Instr.trace]
    refine .statement holds.sized fun s₁ later => ?_
    refine .evalLast (holds.later later) sub fun v s₂ holds₂ short => ?_
    refine .quietly holds₂.sized (Ends.bind (Exec.ends_store holds₂ short) ?_)
    rintro r s' ⟨rfl, holds'⟩
    exact .pure ⟨rfl, nofun, holds'.locals⟩
  | .setField p target owner name value, sub => by
    obtain ⟨ofTarget, ofValue⟩ := List.append_subset.1 sub
    intro s locals holds
    rw [Instr.exec, Instr.trace]
    refine .statement holds.sized fun s₁ later => ?_
    refine .eval (holds.later later) ofTarget fun v s₂ later₂ short => ?_
    have holds₂ := (holds.later later).later later₂
    refine .afterLift later₂.sized (ends_receiver _ _ v) ?_
    rintro r rfl
    refine .eval holds₂ ofValue fun x s₃ later₃ short₃ => ?_
    refine .afterLift later₃.sized (ends_requireClass classes owner) fun _ _ => ?_
    rw [Exec.lift_bind]
    have shorts : ∀ u ∈ [r, x], u.textBytes ≤ s₃.textBound limits literals :=
      List.forall_mem_cons.2 ⟨later₃.fits short, List.forall_mem_singleton.2 short₃⟩
    refine (Stays.setField later₃.sized shorts).quiet fun _ s₄ later₄ _ => ?_
    exact .pure later₄.sized ⟨nofun, ((holds₂.later later₃).later later₄).locals⟩
  | .choose p cond body otherwise, sub => by
    obtain ⟨ofCond, rest⟩ := List.append_subset.1 sub
    obtain ⟨ofBody, ofOtherwise⟩ := List.append_subset.1 rest
    intro s locals holds
    rw [Instr.exec, Instr.trace]
    refine .statement holds.sized fun s₁ later => ?_
    refine .eval (holds.later later) ofCond fun c s₂ later₂ _ => ?_
    have holds₂ := (holds.later later).later later₂
    rw [Exec.lift_bind]
    refine .decide (.inr ⟨_, rfl⟩) holds₂.sized (fun b is => ?_) fun other => ?_
    · cases is
      cases b
      · exact stays_execAll ofOtherwise s₂ locals holds₂
      · exact stays_execAll ofBody s₂ locals holds₂
    · rw [if_neg (other _), if_neg (other _)]
  | .loop p slot first last body, sub => by
    obtain ⟨ofFirst, rest⟩ := List.append_subset.1 sub
    obtain ⟨ofLast, ofBody⟩ := List.append_subset.1 rest
    intro s locals holds
    rw [Instr.exec_loop, Instr.trace]
    refine .statement holds.sized fun s₁ later => ?_
    refine .eval (holds.later later) ofFirst fun a s₂ later₂ _ => ?_
    have holds₂ := (holds.later later).later later₂
    refine .afterLift later₂.sized (ends_asInt _ a) fun a _ => ?_
    refine .eval holds₂ ofLast fun b s₃ later₃ _ => ?_
    refine .afterLift later₃.sized (ends_asInt _ b) fun b _ => ?_
    refine Exec.stays_iterate (Exec.follows_round slot (follows_execAll body)) ?_ _ _
      s₃ locals (holds₂.later later₃)
    exact Exec.stays_round slot (stays_execAll ofBody)
  | .give p value, sub => by
    intro s locals holds
    rw [Instr.exec, Instr.trace]
    refine .statement holds.sized fun s₁ later => ?_
    refine .evalLast (holds.later later) sub fun v s₂ holds₂ short => ?_
    refine .pure holds₂.sized ⟨?_, holds₂.locals⟩
    rintro u ⟨⟩
    exact short
  | .eval p value, sub => by
    intro s locals holds
    rw [Instr.exec, Instr.trace]
    refine .statement holds.sized fun s₁ later => ?_
    refine .evalLast (holds.later later) sub fun v s₂ holds₂ _ => ?_
    exact .pure holds₂.sized ⟨nofun, holds₂.locals⟩

theorem stays_execAll {classes : List HostClass} :
    ∀ {body : List Instr}, literalsIn body ⊆ literals →
      Exec.Stays limits literals (execAll classes body) (traceBlock classes body)
  | [], _ => by
    intro s locals holds
    exact .pure holds.sized ⟨nofun, holds.locals⟩
  | i :: rest, sub => by
    obtain ⟨ofFirst, ofRest⟩ := List.append_subset.1 sub
    intro s locals holds
    rw [execAll, traceBlock]
    refine .bind (i.follows_exec locals) (i.stays_exec ofFirst s locals holds) ?_
    rintro ⟨flow, locals'⟩ s₁ later fits
    cases flow with
    | next => exact stays_execAll ofRest s₁ locals' ⟨later.sized, fits.2⟩
    | give v => exact .pure later.sized fits

end

end SceneScript
