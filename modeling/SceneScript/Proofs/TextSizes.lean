import SceneScript.Proofs.Machine.SizedRuns

/-!
# Sizes of texts

No string that a run works with gets longer than the limit for computed strings, the longest literal
of the program and the longest id that a node has had by default, and no array gets more elements
than allowed, wherever the run comes to (`Loaded.text_sizes`). Every way to make a string is held to
the limit, and all others only pass strings on.
-/

namespace SceneScript

open Run

variable {limits : Limits} {literals : List String} {classes : List HostClass} {s s' : RunState}
  {locals locals' : Array Value}

/-! ## Expressions -/

theorem literalsAll_append (before after : List Code) :
    literalsAll (before ++ after) = literalsAll before ++ literalsAll after := by
  induction before with
  | nil => rfl
  | cons e rest ih => rw [List.cons_append, literalsAll, ih, literalsAll, List.append_assoc]

theorem Code.literalsAll_parts (e : Code) : literalsAll e.parts ⊆ e.literals := by
  cases e <;> simp [parts, Code.literals, literalsAll]

theorem Instr.literalsAll_parts (i : Instr) : literalsAll i.parts ⊆ i.literals := by
  cases i <;> simp [parts, Instr.literals, literalsAll]

theorem RunState.SizedWith.tick (holds : s.SizedWith limits literals locals)
    (ticked : tick limits s = .ok () s') : s'.SizedWith limits literals locals := by
  obtain ⟨steps, heapBytes, rfl⟩ := ends_tick.of_ok ticked
  exact holds.later (.of_heap (Nat.le_refl _) holds.sized)

theorem RunState.SizedWith.eval {e : Code} {v : Value} (holds : s.SizedWith limits literals locals)
    (sub : e.literals ⊆ literals) (gives : e.eval classes locals limits s = .ok v s') :
    s'.SizedWith limits literals locals :=
  holds.later ((e.stays_eval holds sub).ends.of_ok gives).1

theorem ComesTo.sized {parts : List Code} {goesOn : List Value → Prop} {part : Code}
    (comes : ComesTo limits classes locals parts goesOn s part s')
    (holds : s.SizedWith limits literals locals) (sub : literalsAll parts ⊆ literals) :
    s'.SizedWith limits literals locals ∧ part.literals ⊆ literals := by
  obtain ⟨before, after, vs, s₁, rfl, ticked, ran, -⟩ := comes
  rw [literalsAll_append, literalsAll] at sub
  obtain ⟨ofBefore, rest⟩ := List.append_subset.1 sub
  have holds₁ := holds.tick ticked
  have evaluated := (stays_evalAll holds₁ ofBefore).ends.of_ok ran
  exact ⟨holds₁.later evaluated.1, (List.append_subset.1 rest).1⟩

theorem Code.Reaches.sized {e e' : Code} (reaches : Reaches limits classes locals e s e' s')
    (holds : s.SizedWith limits literals locals) (sub : e.literals ⊆ literals) :
    s'.SizedWith limits literals locals := by
  induction reaches with
  | self => exact holds
  | @part e s part s₁ e' s' comes _ ih =>
    obtain ⟨holds₁, ofPart⟩ := comes.sized holds (List.Subset.trans e.literalsAll_parts sub)
    exact ih holds₁ ofPart

/-! ## Statements -/

theorem ReachesIn.sized {body : List Instr} {i : Instr}
    (reaches : ReachesIn limits classes body locals s i locals' s')
    (holds : s.SizedWith limits literals locals) (sub : literalsIn body ⊆ literals) :
    s'.SizedWith limits literals locals' ∧ i.literals ⊆ literals := by
  induction reaches with
  | first => exact ⟨holds, (List.append_subset.1 sub).1⟩
  | later ran _ ih =>
    obtain ⟨ofFirst, ofRest⟩ := List.append_subset.1 sub
    exact ih (Exec.Stays.sized (Instr.stays_exec ofFirst) holds ran) ofRest
  | @branch p cond body otherwise rest locals s s₁ b s₂ i' locals' s' ticked chosen _ ih =>
    obtain ⟨ofChoice, -⟩ := List.append_subset.1 sub
    obtain ⟨ofCond, ofBranches⟩ := List.append_subset.1 ofChoice
    obtain ⟨ofBody, ofOtherwise⟩ := List.append_subset.1 ofBranches
    have holds₂ := (holds.tick ticked).eval ofCond chosen
    cases b with
    | true => exact ih holds₂ ofBody
    | false => exact ih holds₂ ofOtherwise
  | @round p slot first last body rest locals s s₁ a s₂ b s₃ k locals₁ s₄ s₅ locals₂ s₆ i'
      locals' s' ticked from_ to_ _ before ticked' stored _ ih =>
    obtain ⟨ofLoop, -⟩ := List.append_subset.1 sub
    obtain ⟨ofFirst, ofBounds⟩ := List.append_subset.1 ofLoop
    obtain ⟨ofLast, ofBody⟩ := List.append_subset.1 ofBounds
    have holds₃ := ((holds.tick ticked).eval ofFirst from_).eval ofLast to_
    -- The rounds before this one keep the sizes.
    have rounds : Exec.Stays limits literals (Exec.iterate (Exec.round classes slot body) k _) _ :=
      Exec.stays_iterate (Exec.follows_round slot (follows_execAll body))
        (Exec.stays_round slot (stays_execAll ofBody)) k a.toInt
    have holds₅ := (rounds.sized holds₃ before).tick ticked'
    obtain ⟨rfl, holds₆⟩ := (Exec.ends_store holds₅ (Nat.zero_le _)).of_ok stored
    exact ih holds₆ ofBody

/-! ## Programs -/

namespace Loaded

variable {loaded : Loaded} {n : Nat}

theorem later_newBuilder (limits : Limits) (literals : List String) (n : Nat) :
    Ends limits (.start n) newBuilder
      (fun v s => (RunState.start n).Later limits literals s ∧
        v.textBytes ≤ s.textBound limits literals)
      fun _ => (RunState.start n).Later limits literals := by
  refine .addObject_bind (.pure ⟨.of_heap (Nat.le_refl _) ?_, Nat.zero_le _⟩)
  exact Heap.Sized.add Heap.sized_empty trivial

theorem locals_sized {builder : Value}
    (later : (RunState.start n).Later limits literals s)
    (short : builder.textBytes ≤ s.textBound limits literals) :
    s.SizedWith limits literals (loaded.program.locals builder) := by
  refine ⟨later.sized, fun v mem => ?_⟩
  rcases Array.mem_or_eq_of_mem_setIfInBounds mem with initial | rfl
  · rw [(Array.mem_replicate.1 initial).2]
    exact Nat.zero_le _
  · exact short

theorem stays_body (loaded : Loaded) (limits : Limits) (n : Nat) :
    Stays limits loaded.literals (.start n) loaded.body loaded.trace fun _ _ => True := by
  have builds := later_newBuilder limits loaded.literals n
  refine .bind (Follows.act rfl) (.act rfl (RunState.sized_start n) builds) ?_
  intro builder s₀ later short
  have whole : Stays limits loaded.literals s₀
      (execAll loaded.classes loaded.program.body (loaded.program.locals builder)) _ _ :=
    stays_execAll (List.Subset.refl _) s₀ _ (locals_sized later short)
  have ends : Stays limits loaded.literals s₀
      ((execAll loaded.classes loaded.program.body).run' (loaded.program.locals builder)) _
      fun _ _ => True :=
    whole.quiet fun r s₁ later₁ _ => .pure later₁.sized trivial
  refine ends.quiet fun flow s₁ later₁ _ => ?_
  cases flow with
  | next => exact .pure later₁.sized trivial
  | give v => exact .pure later₁.sized trivial

theorem sized_last (loaded : Loaded) (limits : Limits) (n : Nat) :
    (loaded.createModel.last limits (.start n)).Sized limits loaded.literals := by
  have stays := loaded.stays_body limits n
  unfold last
  cases ran : loaded.body limits (.start n) with
  | error f s =>
    rw [createModel_of_error ran]
    exact (stays.ends.of_error ran).sized
  | ok v s =>
    rw [createModel_of_ok ran]
    have sized := (stays.ends.of_ok ran).1.sized
    cases v with
    | object ref =>
      cases found : s.heap.model ref with
      | ok m =>
        rw [handOver_object limits found]
        exact Heap.Sized.modify sized fun _ _ _ => trivial
      | error cause =>
        rw [handOver_missing limits found]
        exact sized
    | _ => exact sized

/-- Wherever an invocation comes to, between any two of its acts and in the end, and with the
variables of every statement and expression that it carries out, no text is longer than the limit,
the literals of the program and the default ids so far, and no array is longer than allowed. -/
theorem text_sizes (loaded : Loaded) (limits : Limits) (n : Nat) :
    (∀ acts s, loaded.Passes limits n acts s → s.Sized limits loaded.literals) ∧
    (loaded.createModel.last limits (.start n)).Sized limits loaded.literals ∧
    (∀ i locals s, loaded.Executes limits n i locals s →
      s.SizedWith limits loaded.literals locals) ∧
    (∀ e locals s, loaded.Evaluates limits n e locals s →
      s.SizedWith limits loaded.literals locals) ∧
    ∀ builder s₀ flow locals s, newBuilder limits (.start n) = .ok builder s₀ →
      execAll loaded.classes loaded.program.body (loaded.program.locals builder) limits s₀ =
        .ok (flow, locals) s → s.SizedWith limits loaded.literals locals := by
  have begins {builder : Value} {s₀ : RunState}
      (made : newBuilder limits (.start n) = .ok builder s₀) :
      s₀.SizedWith limits loaded.literals (loaded.program.locals builder) := by
    obtain ⟨later, short⟩ := (later_newBuilder limits _ n).of_ok made
    exact locals_sized later short
  have executes {i : Instr} {locals : Array Value} {s : RunState}
      (reaches : loaded.Executes limits n i locals s) :
      s.SizedWith limits loaded.literals locals ∧ i.literals ⊆ loaded.literals := by
    obtain ⟨builder, s₀, made, reaches⟩ := reaches
    exact reaches.sized (begins made) (List.Subset.refl _)
  refine ⟨?_, loaded.sized_last limits n, fun i locals s reaches => (executes reaches).1, ?_, ?_⟩
  · rintro acts s ⟨leads, ran⟩
    exact ((loaded.stays_body limits n).passes acts s leads ran).sized
  · rintro e locals s ⟨i, s₁, part, s₂, reaches, comes, reachesPart⟩
    obtain ⟨holds, sub⟩ := executes reaches
    obtain ⟨holds₂, ofPart⟩ := comes.sized holds (List.Subset.trans i.literalsAll_parts sub)
    exact reachesPart.sized holds₂ ofPart
  · intro builder s₀ flow locals s made ran
    exact (stays_execAll (List.Subset.refl _)).sized (begins made) ran

end Loaded

end SceneScript
