import SceneScript.Proofs.Hierarchy.Copies
import SceneScript.Proofs.Hierarchy.Single

/-!
# One frozen model

An invocation makes one model at most, by the first call of `end`. From then on the builder refuses
everything, and whatever is done to the objects from which the model was made, it stays as it is
(`frozen_model`).
-/

namespace SceneScript

open Run

def Call.finish (receiver : Value) : Call :=
  .method .modelBuilder "end" receiver []

/-! ## States -/

/-- Any acts, failing ones included, make one model at most and leave what is finished alone. -/
structure Act.Freeze (limits : Limits) (n : Nat) : Prop where
  single : ∀ acts, (leave limits (.start n) acts).Single n
  ends : ∀ (s : RunState) (receiver : Value),
    ((Call.finish receiver).run.last limits s).building.ended = true
  refused : ∀ (s : RunState) (c : Call), s.building.ended = true → c.IsBuilding →
    ∃ f, c.run limits s = .error f s
  closed : ∀ (s : RunState) (acts : List Act), s.building.ended = true →
    (leave limits s acts).building = s.building
  kept : ∀ (s : RunState) (acts : List Act) (ref : Nat) (m : Model), s.heap.model ref = .ok m →
    (leave limits s acts).heap.model ref = .ok m

theorem Refuses.error {limits : Limits} {s : RunState} {run : Run α}
    (refuses : Refuses limits s run) : ∃ f, run limits s = .error f s ∧
      (f.cause = .builderEnded ∨ f.cause = .nullReference ∨ f.cause.isIllTyped = true) := by
  cases ran : run limits s with
  | ok a s' => exact (Ends.of_ok refuses ran).elim
  | error f s' =>
    obtain ⟨rfl, cause⟩ := Ends.of_error refuses ran
    exact ⟨f, rfl, cause⟩

theorem ended_finish (limits : Limits) (s : RunState) (receiver : Value) :
    ((Call.finish receiver).run.last limits s).building.ended = true := by
  have isFinish : (Call.finish receiver).run = Building.finish := rfl
  rw [isFinish, last]
  cases ended : s.building.ended with
  | true =>
    obtain ⟨f, failed, -⟩ := (Refuses.call (c := .finish receiver) ended (by simp [Call.finish, Call.IsBuilding])).error
    rw [isFinish] at failed
    rw [failed]
    exact ended
  | false =>
    rw [Building.finish_eq ended]
    cases Building.finishRoots s.heap s.building.meshes s.building.nodes.toList <;> rfl

theorem Act.freeze (limits : Limits) (n : Nat) : Freeze limits n where
  single := keeps_leave RunState.Single.change (.start n)
  ends := ended_finish limits
  refused s c ended builds := by
    obtain ⟨f, failed, -⟩ := (Refuses.call ended builds).error
    exact ⟨f, failed⟩
  closed s acts ended :=
    (keeps_leave RunState.ClosedAs.change (P := RunState.ClosedAs s.building) ⟨rfl, ended⟩ acts).1
  kept s acts ref m found :=
    keeps_leave (P := fun s => s.heap.model ref = .ok m) Change.model found acts

/-! ## Runs -/

section

variable {limits : Limits} {s s' : RunState} {n : Nat}

theorem Call.counter (c : Call) (other : ∀ receiver, c ≠ .finish receiver) :
    Ends limits s c.run (fun _ s' => s'.nextModel = s.nextModel) fun _ _ => True := by
  have counts {s' : RunState} : s.Counts s' → s'.nextModel = s.nextModel := by
    rintro ⟨steps, heapBytes, rfl⟩
    rfl
  -- Of the edits, `finished` alone makes a model, and it adds an object.
  have sized {deed : Option Deed} {s' : RunState} (done : Edit.Done limits false s deed s') :
      s'.nextModel = s.nextModel := by
    obtain ⟨edit, size⟩ := done
    cases edit with
    | finished => simp [Heap.add, Heap.size] at size
    | _ => rfl
  have does := c.does
  generalize c.run = run at does ⊢
  cases does with
  | plain is plain => exact plain.ends.mono (fun _ _ minor => minor.nextModel) fun _ _ _ => trivial
  | text => exact (ends_textOf _).mono (fun _ _ => counts) fun _ _ _ => trivial
  | rename =>
    refine (ends_rename _ _).mono ?_ fun _ _ _ => trivial
    rintro v s' ⟨ref, n, id, rfl, -, -, rfl⟩
    rfl
  | builds builds =>
    have performs : Building.Performs limits c.isFree (c.OnNode s.heap) s run c.deed? :=
      builds.performs
    cases builds with
    | generate plain =>
      rw [plain.charged] at performs
      exact performs.mono (fun _ _ => sized) fun _ _ _ => trivial
    | node =>
      refine Building.ends_ensureOpen_bind trivial fun isOpen => .limits_bind (.building_bind ?_)
      refine .guard trivial fun room => .addObject_bind (.addObject_bind ?_)
      exact .addObject_bind (.addObject_bind (.modifyBuilding_bind (.pure rfl)))
    | finish => exact absurd rfl (other _)
    | part | addPart | addChild =>
      exact performs.mono (fun _ _ => sized) fun _ _ _ => trivial

theorem Act.counter (a : Act) (other : ∀ receiver, a ≠ .call (.finish receiver)) :
    Ends limits s a.run (fun _ s' => s'.nextModel = s.nextModel) fun _ _ => True := by
  have counts {α : Type} {run : Run α}
      (ends : Ends limits s run (fun _ => s.Counts) fun _ => s.Counts) :
      Ends limits s (run >>= fun _ => pure ()) (fun _ s' => s'.nextModel = s.nextModel)
        fun _ _ => True := by
    refine Ends.bind (ends.mono (fun _ _ => id) fun _ _ _ => trivial) ?_
    rintro a s' ⟨steps, heapBytes, rfl⟩
    exact .pure rfl
  cases a with
  | statement | round | expression =>
    refine (ends_tick (s := s)).mono ?_ fun _ _ _ => trivial
    rintro a s' ⟨steps, heapBytes, rfl⟩
    rfl
  | builder => rfl
  | call c =>
    refine Ends.bind (c.counter fun receiver is => other receiver (is ▸ rfl)) ?_
    exact fun v s' same => .pure same
  | display v => exact counts (ends_display v)
  | string t => exact counts (ends_string t)

theorem finish_ok {receiver : Value} {v : Value}
    (ran : (Call.finish receiver).run limits s = .ok v s') :
    ∃ ref m, v = .object ref ∧ s'.heap.model ref = .ok m := by
  cases ended : s.building.ended with
  | true =>
    obtain ⟨f, failed, -⟩ :=
      (Refuses.call (c := .finish receiver) ended (by simp [Call.finish, Call.IsBuilding])).error
    rw [failed] at ran
    cases ran
  | false =>
    have isFinish : (Call.finish receiver).run = Building.finish := rfl
    rw [isFinish, Building.finish_eq ended] at ran
    cases made : Building.finishRoots s.heap s.building.meshes s.building.nodes.toList with
    | error cause =>
      rw [made] at ran
      cases ran
    | ok roots =>
      rw [made] at ran
      cases ran
      refine ⟨_, ⟨s.nextModel, roots⟩, rfl, ?_⟩
      rw [Heap.model_eq_ok, Heap.find_add]
      exact if_pos rfl

theorem RunState.Single.same (single : s.Single n) {ref ref' : Nat} {m m' : Model}
    (found : s.heap.model ref = .ok m) (found' : s.heap.model ref' = .ok m') : m = m' := by
  have atMostOne := single.atMostOne
  have first := Heap.mem_models found
  have second := Heap.mem_models found'
  rcases models : s.heap.models with _ | ⟨only, _ | ⟨other, rest⟩⟩
  · simp [models] at first
  · simp only [models, List.mem_singleton] at first second
    rw [first, second]
  · simp [models] at atMostOne

theorem made_by_finish {acts : List Act} {ref : Nat} {m : Model} (single : s.Single n)
    (noModels : s.heap.models = []) (ran : Act.runAll acts limits s = .ok () s')
    (found : s'.heap.model ref = .ok m) :
    ∃ before receiver after s₁ s₂ made, acts = before ++ .call (.finish receiver) :: after ∧
      Act.runAll before limits s = .ok () s₁ ∧
      (Call.finish receiver).run limits s₁ = .ok (.object made) s₂ ∧
      s₂.heap.model made = .ok m := by
  induction acts generalizing s with
  | nil =>
    cases ran
    simpa [noModels] using Heap.mem_models found
  | cons a rest ih =>
    obtain ⟨s₁, first, ranRest⟩ := Act.runAll_cons ran
    have single₁ := (Act.keeps RunState.Single.change single a).of_ok first
    by_cases noModels₁ : s₁.heap.models = []
    · obtain ⟨before, receiver, after, s₂, s₃, made, rfl, ranBefore, ended, is⟩ :=
        ih single₁ noModels₁ ranRest
      refine ⟨a :: before, receiver, after, s₂, s₃, made, rfl, ?_, ended, is⟩
      rw [Act.runAll, bind_apply, first]
      exact ranBefore
    · by_cases isFinish : ∃ receiver, a = .call (.finish receiver)
      · obtain ⟨receiver, rfl⟩ := isFinish
        obtain ⟨v, ended⟩ : ∃ v, (Call.finish receiver).run limits s = .ok v s₁ := by
          rw [Act.run, bind_apply] at first
          cases ended : (Call.finish receiver).run limits s with
          | ok v s₂ =>
            rw [ended] at first
            cases first
            exact ⟨v, rfl⟩
          | error f s₂ =>
            rw [ended] at first
            cases first
        obtain ⟨made, m', rfl, is⟩ := finish_ok ended
        have single' := (Act.keeps_runAll RunState.Single.change single₁ rest).of_ok ranRest
        have is' := (Act.keeps_runAll (P := fun s => s.heap.model made = .ok m') Change.model
          is rest).of_ok ranRest
        rw [single'.same is' found] at is
        exact ⟨[], receiver, rest, s, s₁, made, rfl, rfl, ended, is⟩
      · -- Any other act gives no id away, but there is one for each model.
        have counter := (a.counter (not_exists.1 isFinish)).of_ok first
        rw [single.counted, single₁.counted, noModels] at counter
        exact absurd (List.length_eq_zero_iff.1 (Nat.add_left_cancel counter)) noModels₁

theorem runAll_refused {before : List Act} (after : List Act) {c : Call} {s₀ : RunState}
    (ran : Act.runAll before limits s₀ = .ok () s) (ended : s.building.ended = true)
    (builds : c.IsBuilding) : ∃ f, Act.runAll (before ++ .call c :: after) limits s₀ = .error f s ∧
      (f.cause = .builderEnded ∨ f.cause = .nullReference ∨ f.cause.isIllTyped = true) := by
  have refuses : Refuses limits s c.run := .call ended builds
  obtain ⟨f, failed, cause⟩ := refuses.error
  refine ⟨f, ?_, cause⟩
  rw [Act.runAll_append, bind_apply, ran]
  show (Act.run (.call c) >>= fun _ => Act.runAll after) limits s = _
  rw [bind_apply, Act.run, bind_apply, failed]

end

/-! ## Programs -/

namespace Loaded

/-- An invocation makes one model at most, the one that it gives, and leaves it alone. -/
structure MakesOne (loaded : Loaded) (limits : Limits) (n : Nat) : Prop where
  single : ∀ acts s, loaded.Passes limits n acts s → s.Single n
  last : (loaded.body.last limits (.start n)).Single n
  counter : (loaded.invoke limits n).nextModel ≤ n + 1
  /-- A run ends when it comes to building on a closed builder. -/
  refused : ∀ acts s, loaded.Passes limits n acts s → s.building.ended = true →
    ∀ (c : Call) (rest : List Act), loaded.trace limits (.start n) = acts ++ .call c :: rest →
      c.IsBuilding → ∃ f, loaded.body limits (.start n) = .error f s ∧
        (f.cause = .builderEnded ∨ f.cause = .nullReference)
  closed : ∀ acts s, loaded.Passes limits n acts s → s.building.ended = true →
    (∀ more s', loaded.Passes limits n (acts ++ more) s' → s'.building = s.building) ∧
    (loaded.body.last limits (.start n)).building = s.building
  kept : ∀ acts s ref m, loaded.Passes limits n acts s → s.heap.model ref = .ok m →
    (∀ more s', loaded.Passes limits n (acts ++ more) s' → s'.heap.model ref = .ok m) ∧
    (loaded.body.last limits (.start n)).heap.model ref = .ok m
  /-- The model that is given is the one that a call of `end` has made. -/
  given : ∀ m, (loaded.invoke limits n).result = .ok m →
    ∃ acts receiver rest s s' ref,
      loaded.trace limits (.start n) = acts ++ .call (.finish receiver) :: rest ∧
      Act.runAll acts limits (.start n) = .ok () s ∧
      (Call.finish receiver).run limits s = .ok (.object ref) s' ∧ s'.heap.model ref = .ok m

section

variable {loaded : Loaded} {limits : Limits} {n : Nat} {acts : List Act} {s : RunState}
  {P : RunState → Prop}

theorem Passes.keeps (passes : loaded.Passes limits n acts s)
    (each : ∀ {onNode : Prop} {s s' : RunState} {deed : Option Deed}, P s →
      Change limits onNode s deed s' → P s') (holds : P s) :
    (∀ more s', loaded.Passes limits n (acts ++ more) s' → P s') ∧
      P (loaded.body.last limits (.start n)) := by
  obtain ⟨⟨rest, whole⟩, ran⟩ := passes
  refine ⟨fun more s' ⟨_, ranMore⟩ => ?_, ?_⟩
  · rw [Act.runAll_append, bind_apply, ran] at ranMore
    exact (Act.keeps_runAll each holds more).of_ok ranMore
  · rw [← loaded.follows_body.last, ← whole, Act.runAll_append, Run.last, bind_apply, ran]
    exact (Act.keeps_runAll each holds rest).last

theorem body_of_refused {f : Fault}
    (failed : Act.runAll (loaded.trace limits (.start n)) limits (.start n) = .error f s) :
    ∃ f', loaded.body limits (.start n) = .error f' s ∧ f'.cause = f.cause := by
  have follows := loaded.follows_body limits (.start n)
  cases ran : loaded.body limits (.start n) with
  | ok v s' =>
    rw [ran] at follows
    cases failed.symm.trans follows
  | error f' s' =>
    rw [ran] at follows
    obtain ⟨f'', failed', same⟩ | ⟨acted, -⟩ := follows
    · cases failed.symm.trans failed'
      exact ⟨f', rfl, same.symm⟩
    · cases failed.symm.trans acted

theorem last_body (loaded : Loaded) (limits : Limits) (n : Nat) :
    (loaded.invoke limits n).nextModel = (loaded.body.last limits (.start n)).nextModel := by
  obtain ⟨f, s, ran, is⟩ | ⟨ref, s, m, ran, -, is⟩ | ⟨v, s, f, ran, -, is⟩ :=
    loaded.invoke_cases limits n
  all_goals rw [is, Run.last, ran]

theorem single_last (loaded : Loaded) (limits : Limits) (n : Nat) :
    (loaded.body.last limits (.start n)).Single n := by
  rw [← loaded.follows_body.last]
  exact (Act.keeps_runAll RunState.Single.change (.start n) _).last

theorem Sound.makesOne {types : List Ty} (sound : loaded.Sound types) (limits : Limits) (n : Nat) :
    loaded.MakesOne limits n where
  single acts s passes :=
    (Act.keeps_runAll RunState.Single.change (.start n) acts).of_ok passes.2
  last := loaded.single_last limits n
  counter := by
    obtain ⟨counted, atMostOne, -, -⟩ := loaded.single_last limits n
    rw [last_body, counted]
    exact Nat.add_le_add_left atMostOne n
  refused acts s passes ended c rest whole builds := by
    obtain ⟨f, failed, cause⟩ := runAll_refused rest passes.2 ended builds
    rw [← whole] at failed
    obtain ⟨f', ran, same⟩ := body_of_refused failed
    have mild := sound.body_mild ran
    rw [← same] at cause
    refine ⟨f', ran, cause.imp_right fun cause => cause.resolve_right ?_⟩
    rw [mild]
    exact nofun
  closed acts s passes ended := by
    obtain ⟨later, atEnd⟩ := passes.keeps RunState.ClosedAs.change
      (P := RunState.ClosedAs s.building) ⟨rfl, ended⟩
    exact ⟨fun more s' passes' => (later more s' passes').1, atEnd.1⟩
  kept acts s ref m passes found :=
    passes.keeps (P := fun s => s.heap.model ref = .ok m) Change.model found
  given m given := by
    obtain ⟨ref, s, ran, found, -⟩ := invoke_ok given
    have follows := loaded.follows_body limits (.start n)
    rw [ran] at follows
    exact made_by_finish (.start n) rfl follows found

end

end Loaded

theorem frozen_model (limits : Limits) (n : Nat) :
    Act.Freeze limits n ∧
    ∀ limits' snippet program loaded, compile .standard limits' snippet = .ok program →
      load program = .ok loaded → loaded.MakesOne limits n := by
  refine ⟨Act.freeze limits n, fun limits' snippet program loaded compiled loads => ?_⟩
  obtain ⟨u, -, accepted⟩ := compile_ok compiled
  obtain ⟨types, sound⟩ := Loaded.sound_of_accepted (Typing.checkUnit_accepts accepted) loads
  exact sound.makesOne limits n

/-- Building is ended twice; the second time is refused. -/
theorem frozen_model_ended :
    let acts : List Act := [.builder, .call (.finish (.object 0)), .call (.finish (.object 0))]
    (Act.leave {} (.start 0) acts).Single 0 ∧
    (Act.leave {} (.start 0) acts).heap.models.length = 1 ∧
    ∃ program loaded, compile .standard {} "" = .ok program ∧ load program = .ok loaded ∧
      loaded.MakesOne {} 0 := by
  obtain ⟨freeze, programs⟩ := frozen_model {} 0
  obtain ⟨program, compiled, loaded, loads⟩ := compile_empty
  exact ⟨freeze.single _, rfl, program, loaded, compiled, loads,
    programs {} "" program loaded compiled loads⟩

end SceneScript
