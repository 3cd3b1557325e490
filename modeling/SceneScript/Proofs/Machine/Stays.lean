import SceneScript.Proofs.Machine.Sizes
import SceneScript.Proofs.Machine.Traces

/-!
# Runs that keep texts and arrays small

`Run.Stays` says of a run and its trace that wherever they come to, and also where they fail, the
state is one in which nothing is too long, and that the result fits the bound then. There is a rule
for each way to put runs together.
-/

namespace SceneScript

open Run

variable {limits : Limits} {literals : List String} {s s' : RunState} {locals : Array Value}

structure RunState.SizedWith (limits : Limits) (literals : List String) (s : RunState)
    (locals : Array Value) : Prop where
  sized : s.Sized limits literals
  locals : ∀ v ∈ locals, v.textBytes ≤ s.textBound limits literals

theorem RunState.Later.fits {n : Nat} (later : s.Later limits literals s')
    (fits : n ≤ s.textBound limits literals) : n ≤ s'.textBound limits literals :=
  Nat.le_trans fits later.bound

theorem RunState.SizedWith.later (holds : s.SizedWith limits literals locals)
    (later : s.Later limits literals s') : s'.SizedWith limits literals locals :=
  ⟨later.sized, fun v mem => later.fits (holds.locals v mem)⟩

/-- Nothing is too long wherever a run and the acts of its trace come to, and the result fits the
bound. -/
structure Run.Stays {α : Type} (limits : Limits) (literals : List String) (s : RunState)
    (run : Run α) (t : Trace) (fits : α → Nat → Prop) : Prop where
  ends : Ends limits s run
    (fun a s' => s.Later limits literals s' ∧ fits a (s'.textBound limits literals))
    fun _ => s.Later limits literals
  passes : ∀ acts s', acts <+: t limits s → Act.runAll acts limits s = .ok () s' →
    s.Later limits literals s'

namespace Run.Stays

variable {α β : Type} {run : Run α} {next : α → Run β} {t : Trace} {more : α → Trace}
  {fits : α → Nat → Prop} {fits' : β → Nat → Prop}

theorem quietly (sized : s.Sized limits literals)
    (ends : Ends limits s run
      (fun a s' => s' = s ∧ fits a (s.textBound limits literals)) fun _ s' => s' = s) :
    Stays limits literals s run Trace.none fits where
  ends := by
    refine ends.mono ?_ ?_
    · rintro a s' ⟨rfl, holds⟩
      exact ⟨.refl sized, holds⟩
    · rintro cause s' rfl
      exact .refl sized
  passes acts s' leads ran := by
    cases List.prefix_nil.1 leads
    cases ran
    exact .refl sized

theorem pure {a : α} (sized : s.Sized limits literals)
    (holds : fits a (s.textBound limits literals)) :
    Stays limits literals s (pure a) Trace.none fits :=
  quietly sized (.pure ⟨rfl, holds⟩)

theorem lift {x : Except FaultCause α} (sized : s.Sized limits literals)
    (holds : ∀ a, x = .ok a → fits a (s.textBound limits literals)) :
    Stays limits literals s (liftM x) Trace.none fits := by
  refine quietly sized ?_
  cases x with
  | ok a => exact .pure ⟨rfl, holds a rfl⟩
  | error cause => exact .fault rfl

theorem reads {x : Except FaultCause α} {value : α → Value} (sized : s.Sized limits literals)
    (textless : ∀ a, (value a).textBytes = 0) :
    Stays limits literals s (liftM x >>= fun a => Pure.pure (value a)) Trace.none
      fun v n => v.textBytes ≤ n := by
  cases x with
  | ok a => exact pure sized (textless a ▸ Nat.zero_le _)
  | error cause => exact quietly sized (.fault rfl)

theorem located {p : Position} (stays : Stays limits literals s run t fits) :
    Stays limits literals s (located p run) t fits :=
  ⟨stays.ends.located, stays.passes⟩

theorem bind (follows : run.Follows t) (first : Stays limits literals s run t fits)
    (rest : ∀ a s', s.Later limits literals s' → fits a (s'.textBound limits literals) →
      Stays limits literals s' (next a) (more a) fits') :
    Stays limits literals s (run >>= next) (t.andThen run more) fits' where
  ends := by
    refine first.ends.bind fun a s₁ ⟨later, holds⟩ => ?_
    exact (rest a s₁ later holds).ends.mono (fun _ _ ends => ⟨later.trans ends.1, ends.2⟩)
      fun _ _ => later.trans
  passes acts s' leads acted := by
    unfold Trace.andThen at leads
    rcases List.prefix_or_prefix_of_prefix leads (List.prefix_append _ _) with within | beyond
    · exact first.passes acts s' within acted
    obtain ⟨acts', rfl⟩ := beyond
    have leads' := (List.prefix_append_right_inj _).1 leads
    cases ran : run limits s with
    | ok a s₁ =>
      rw [ran] at leads'
      obtain ⟨later, holds⟩ := first.ends.of_ok ran
      have whole := follows limits s
      rw [ran] at whole
      rw [Act.runAll_append, bind_apply, whole] at acted
      exact later.trans ((rest a s₁ later holds).passes acts' s' leads' acted)
    | error f s₁ =>
      rw [ran] at leads'
      cases List.prefix_nil.1 leads'
      rw [List.append_nil] at acted
      exact first.passes _ s' List.prefix_rfl acted

theorem quiet (first : Stays limits literals s run t fits)
    (rest : ∀ a s', s.Later limits literals s' → fits a (s'.textBound limits literals) →
      Stays limits literals s' (next a) Trace.none fits') :
    Stays limits literals s (run >>= next) t fits' where
  ends := by
    refine first.ends.bind fun a s₁ ⟨later, holds⟩ => ?_
    exact (rest a s₁ later holds).ends.mono (fun _ _ ends => ⟨later.trans ends.1, ends.2⟩)
      fun _ _ => later.trans
  passes := first.passes

theorem after {ok : α → Prop} (sized : s.Sized limits literals)
    (looks : Ends limits s run (fun a s' => s' = s ∧ ok a) fun _ s' => s' = s)
    (rest : ∀ a, ok a → Stays limits literals s (next a) (more a) fits') :
    Stays limits literals s (run >>= next) (Trace.after run more) fits' where
  ends := by
    refine Ends.bind (looks.mono (fun _ _ => id) ?_) ?_
    · rintro cause s' rfl
      exact .refl sized
    · rintro a s' ⟨rfl, holds⟩
      exact (rest a holds).ends
  passes acts s' leads acted := by
    unfold Trace.after Trace.andThen at leads
    cases ran : run limits s with
    | ok a s₁ =>
      rw [ran] at leads
      obtain ⟨rfl, holds⟩ := looks.of_ok ran
      exact (rest a holds).passes acts s' leads acted
    | error f s₁ =>
      rw [ran] at leads
      cases List.prefix_nil.1 leads
      cases acted
      exact .refl sized

theorem act {a : Act} (same : a.run = run >>= fun _ => Pure.pure ())
    (sized : s.Sized limits literals)
    (ends : Ends limits s run
      (fun a s' => s.Later limits literals s' ∧ fits a (s'.textBound limits literals))
      fun _ => s.Later limits literals) : Stays limits literals s run (Trace.act a) fits where
  ends := ends
  passes acts s' leads acted := by
    cases acts with
    | nil =>
      cases acted
      exact .refl sized
    | cons b rest =>
      obtain ⟨rfl, only⟩ := List.cons_prefix_cons.1 leads
      cases List.prefix_nil.1 only
      obtain ⟨s₁, first, done⟩ := Act.runAll_cons acted
      cases done
      rw [same] at first
      obtain ⟨b, s₂, ran, given⟩ := Meter.Scales.bind_ok first
      cases given
      exact (ends.of_ok ran).1

theorem tick_bind {a : Act} (isTick : a.run = tick) (sized : s.Sized limits literals)
    (rest : ∀ s₁, s.Later limits literals s₁ → Stays limits literals s₁ run t fits) :
    Stays limits literals s (tick >>= fun _ => run) (Trace.step a t) fits := by
  have ticks : Stays limits literals s tick (Trace.act a) fun _ _ => True := by
    refine .act (isTick.trans (bind_pure tick).symm) sized ?_
    have ticked : s.Later limits literals { s with steps := s.steps + 1 } :=
      .of_heap (Nat.le_refl _) sized
    rw [← bind_pure tick]
    exact Ends.tick_bind (fun _ => ticked) fun _ => .pure ⟨ticked, trivial⟩
  exact .bind (.tick isTick) ticks fun _ s₁ later _ => rest s₁ later

theorem step {p : Position} {a : Act} (isTick : a.run = tick) (sized : s.Sized limits literals)
    (rest : ∀ s₁, s.Later limits literals s₁ → Stays limits literals s₁ run t fits) :
    Stays limits literals s (Run.located p (tick >>= fun _ => run)) (Trace.step a t) fits :=
  .located (.tick_bind isTick sized rest)

theorem call {c : Call} (sized : s.Sized limits literals)
    (short : ∀ v ∈ c.given, v.textBytes ≤ s.textBound limits literals) :
    Stays limits literals s c.run (Trace.act (.call c)) fun v n => v.textBytes ≤ n :=
  .act rfl sized (Call.sized sized short)

theorem setField {owner : HostClass} {name : String} {receiver value : Value}
    (sized : s.Sized limits literals)
    (short : ∀ v ∈ [receiver, value], v.textBytes ≤ s.textBound limits literals) :
    Stays limits literals s (owner.setField name receiver value)
      (Trace.act (.call (.set owner name receiver value))) fun _ _ => True := by
  have sets := Call.sized (c := .set owner name receiver value) sized short
  refine .act (by rw [Act.run, Call.run, bind_assoc]; rfl) sized (.intro ?_ ?_)
  · intro a s' ran
    have ran' : (Call.set owner name receiver value).run limits s = .ok .void s' := by
      rw [Call.run, bind_apply, ran]
      rfl
    exact ⟨(sets.of_ok ran').1, trivial⟩
  · intro f s' failed
    have failed' : (Call.set owner name receiver value).run limits s = .error f s' := by
      rw [Call.run, bind_apply, failed]
    exact sets.of_error failed'

theorem string (sized : s.Sized limits literals) (u : String) :
    Stays limits literals s (string u) (Trace.act (.string u)) fun v n => v.textBytes ≤ n := by
  refine .act rfl sized ?_
  have concludes : Concludes limits [] (fun _ => False) s id (Run.string u) := .string u
  refine Ends.mono concludes (fun v s' effect => ?_) fun _ _ => .of_spends sized
  obtain ⟨later, holds⟩ := effect.later sized nofun
  exact ⟨later, later.fits holds⟩

theorem display (sized : s.Sized limits literals) (v : Value) :
    Stays limits literals s (display v) (Trace.act (.display v)) fun _ _ => True := by
  refine .act rfl sized ?_
  exact (ends_display_spends v).mono (fun _ _ spends => ⟨.of_spends sized spends, trivial⟩)
    fun _ _ => .of_spends sized

theorem decide {v : Value} {test : Run Bool} {next : Bool → Run β}
    (tests : test = liftM v.asBool ∨ ∃ p, test = Run.located p (liftM v.asBool))
    (sized : s.Sized limits literals)
    (rest : ∀ b, v = .bool b → Stays limits literals s (next b) t fits')
    (other : (∀ b, v ≠ .bool b) → t = Trace.none) :
    Stays limits literals s (test >>= next) t fits' := by
  cases v with
  | bool b => obtain rfl | ⟨p, rfl⟩ := tests <;> exact rest b rfl
  | _ =>
    rw [other nofun]
    obtain rfl | ⟨p, rfl⟩ := tests <;> exact quietly sized rfl

end Run.Stays

/-! The operations that leave the state as it is. -/

theorem ends_receiver (p : Position) (member : String) (v : Value) :
    Ends limits s (receiver p member v) (fun r s' => s' = s ∧ r = v) fun _ s' => s' = s := by
  cases v with
  | null => exact rfl
  | _ => exact ⟨rfl, rfl⟩

theorem ends_requireClass (classes : List HostClass) (c : HostClass) :
    Ends limits s (requireClass classes c) (fun _ s' => s' = s ∧ True) fun _ s' => s' = s := by
  unfold requireClass
  split
  · exact .pure ⟨rfl, trivial⟩
  · exact .fault rfl

theorem ends_readSlot (short : ∀ v ∈ locals, v.textBytes ≤ s.textBound limits literals)
    (slot : Nat) : Ends limits s (readSlot locals slot)
      (fun v s' => s' = s ∧ v.textBytes ≤ s.textBound limits literals) fun _ s' => s' = s := by
  unfold readSlot
  split
  · next v found => exact .pure ⟨rfl, short v (Array.mem_of_getElem? found)⟩
  · exact .fault rfl

theorem ends_asInt (p : Position) (v : Value) :
    Ends limits s (Run.located p (liftM v.asInt)) (fun _ s' => s' = s ∧ True)
      fun _ s' => s' = s := by
  cases v with
  | int n => exact ⟨rfl, trivial⟩
  | _ => exact rfl

end SceneScript
