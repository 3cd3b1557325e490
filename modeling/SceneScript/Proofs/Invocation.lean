import SceneScript.Invocation
import SceneScript.Proofs.Machine.Changes

/-!
# What an invocation gives

An invocation runs the program on a new builder and takes the model that it gives off the heap. The
steps and the id of the next model are those of the run, which calls lead to (`leads_invoke`).
-/

namespace SceneScript.Loaded

open Run

variable {loaded : Loaded} {limits : Limits} {n : Nat} {m : Model} {s : RunState}

def body (loaded : Loaded) : Run Value := do
  loaded.program.run loaded.classes (← newBuilder)

def handOver : Value → Run (Option Model)
  | .null => return none
  | .object ref => do
    let (m, rest) ← (← Run.heap).takeModel ref
    Run.modifyHeap fun _ => rest
    return some m
  | v => Run.fault (.wrongValue .model v.kind)

theorem createModel_eq (loaded : Loaded) :
    loaded.createModel = loaded.body >>= handOver := by
  rw [body, bind_assoc]
  rfl

theorem createModel_of_ok {v : Value} (ran : loaded.body limits (.start n) = .ok v s) :
    loaded.createModel limits (.start n) = handOver v limits s := by
  rw [createModel_eq, bind_apply, ran]

theorem createModel_of_error {f : Fault} (failed : loaded.body limits (.start n) = .error f s) :
    loaded.createModel limits (.start n) = .error f s := by
  rw [createModel_eq, bind_apply, failed]

/-! ## Handing over -/

theorem handOver_apply (limits : Limits) (s : RunState) (ref : Nat) :
    handOver (.object ref) limits s =
      ((liftM (s.heap.takeModel ref) : Run (Model × Heap)) >>= fun taken =>
        modifyHeap (fun _ => taken.2) >>= fun _ => pure (some taken.1)) limits s :=
  rfl

theorem handOver_object (limits : Limits) {ref : Nat} (found : s.heap.model ref = .ok m) :
    handOver (.object ref) limits s =
      .ok (some m) { s with heap := s.heap.modify ref fun _ => .released } := by
  rw [handOver_apply, Heap.takeModel, found]
  rfl

theorem handOver_missing (limits : Limits) {ref : Nat} {cause : FaultCause}
    (missing : s.heap.model ref = .error cause) :
    handOver (.object ref) limits s = .error ⟨cause, none⟩ s := by
  rw [handOver_apply, Heap.takeModel, missing]
  rfl

/-! ## Invocations -/

theorem invoke_of_error {f : Fault} (failed : loaded.body limits (.start n) = .error f s) :
    loaded.invoke limits n = ⟨.error f, s.steps, s.nextModel⟩ := by
  unfold invoke
  rw [createModel_of_error failed]
  rfl

theorem invoke_of_model {ref : Nat} (ran : loaded.body limits (.start n) = .ok (.object ref) s)
    (found : s.heap.model ref = .ok m) :
    loaded.invoke limits n = ⟨.ok m, s.steps, s.nextModel⟩ := by
  unfold invoke
  rw [createModel_of_ok ran, handOver_object limits found]
  rfl

theorem invoke_of_ok {v : Value} {s' : RunState} {f : Fault}
    (ran : loaded.body limits (.start n) = .ok v s) (handed : handOver v limits s = .error f s') :
    loaded.invoke limits n = ⟨.error f, s'.steps, s'.nextModel⟩ := by
  unfold invoke
  rw [createModel_of_ok ran, handed]
  rfl

theorem invoke_of_null (ran : loaded.body limits (.start n) = .ok .null s) :
    loaded.invoke limits n = ⟨.error ⟨.noModel, none⟩, s.steps, s.nextModel⟩ := by
  have handed : handOver .null limits s = .ok none s := rfl
  unfold invoke
  rw [createModel_of_ok ran, handed]
  rfl

theorem invoke_cases (loaded : Loaded) (limits : Limits) (n : Nat) :
    (∃ f s, loaded.body limits (.start n) = .error f s ∧
      loaded.invoke limits n = ⟨.error f, s.steps, s.nextModel⟩) ∨
    (∃ ref s m, loaded.body limits (.start n) = .ok (.object ref) s ∧ s.heap.model ref = .ok m ∧
      loaded.invoke limits n = ⟨.ok m, s.steps, s.nextModel⟩) ∨
    ∃ v s f, loaded.body limits (.start n) = .ok v s ∧ f.cause.isStepLimit = false ∧
      loaded.invoke limits n = ⟨.error f, s.steps, s.nextModel⟩ := by
  cases ran : loaded.body limits (.start n) with
  | error f s => exact .inl ⟨f, s, rfl, invoke_of_error ran⟩
  | ok v s =>
    apply Or.inr
    cases v with
    | object ref =>
      cases found : s.heap.model ref with
      | ok m => exact .inl ⟨ref, s, m, rfl, found, invoke_of_model ran found⟩
      | error cause =>
        exact .inr ⟨_, s, ⟨cause, none⟩, rfl, Stepless.stepless found,
          invoke_of_ok ran (handOver_missing limits found)⟩
    | null => exact .inr ⟨_, s, ⟨.noModel, none⟩, rfl, rfl, invoke_of_null ran⟩
    | _ => exact .inr ⟨_, s, ⟨.wrongValue .model _, none⟩, rfl, rfl, invoke_of_ok ran rfl⟩

theorem invoke_ok (given : (loaded.invoke limits n).result = .ok m) :
    ∃ ref s, loaded.body limits (.start n) = .ok (.object ref) s ∧ s.heap.model ref = .ok m ∧
      loaded.invoke limits n = ⟨.ok m, s.steps, s.nextModel⟩ := by
  obtain ⟨f, s, -, is⟩ | ⟨ref, s, m', ran, found, is⟩ | ⟨v, s, f, -, -, is⟩ :=
    invoke_cases loaded limits n
  · rw [is] at given
    cases given
  · rw [is] at given
    cases given
    exact ⟨ref, s, ran, found, is⟩
  · rw [is] at given
    cases given

theorem ends_body (loaded : Loaded) (limits : Limits) (n : Nat) : Ends limits (.start n) loaded.body
    (fun _ => Reaches limits (.start n)) fun _ => Reaches limits (.start n) := by
  obtain ⟨builder, s, made⟩ : ∃ builder s, newBuilder limits (.start n) = .ok builder s :=
    ⟨_, _, rfl⟩
  have onBuilder : Leads limits (.start n) [] s := .builder .start made
  have ends : Ends limits s (loaded.program.run loaded.classes builder)
      (fun _ => Reaches limits (.start n)) fun _ => Reaches limits (.start n) :=
    (Program.ends_run loaded.classes loaded.program builder s).mono
      (fun _ _ => onBuilder.reaches) fun _ _ => onBuilder.reaches
  unfold Ends body
  rw [bind_apply, made]
  exact ends

theorem leads_invoke (loaded : Loaded) (limits : Limits) (n : Nat) :
    ∃ deeds s, Leads limits (.start n) deeds s ∧
      (loaded.invoke limits n).nextModel = s.nextModel ∧
      ∀ m, (loaded.invoke limits n).result = .ok m → ∃ ref, s.heap.model ref = .ok m := by
  have ends := ends_body loaded limits n
  obtain ⟨f, s, ran, is⟩ | ⟨ref, s, m, ran, found, is⟩ | ⟨v, s, f, ran, -, is⟩ :=
    invoke_cases loaded limits n
  · obtain ⟨deeds, leads⟩ := ends.of_error ran
    exact ⟨deeds, s, leads, by rw [is], by rw [is]; exact nofun⟩
  · obtain ⟨deeds, leads⟩ := ends.of_ok ran
    refine ⟨deeds, s, leads, by rw [is], fun m' given => ⟨ref, ?_⟩⟩
    rw [is] at given
    cases given
    exact found
  · obtain ⟨deeds, leads⟩ := ends.of_ok ran
    exact ⟨deeds, s, leads, by rw [is], by rw [is]; exact nofun⟩

end SceneScript.Loaded
