import SceneScript.Proofs.Compilation
import SceneScript.Proofs.Hierarchy.Reached
import SceneScript.Proofs.Invocation
import SceneScript.Proofs.Machine.Parallel
import SceneScript.Session.Attempt

/-!
# The ids of models

Every model that is made gets an id that no earlier one had: the counter only grows, and a model
that an attempt gives has an id between what the counter was before and what it is afterwards. What
an invocation gives does not depend on the id that the next model gets: it is the same fault, or a
model with the same trees (`Loaded.invoke_alike`).
-/

namespace SceneScript

/-- All models on the heap have ids that were given since the counter stood at the first number. -/
structure RunState.Numbered (first : Nat) (s : RunState) : Prop where
  later : first ≤ s.nextModel
  given : ∀ {ref : Nat} {m : Model}, s.heap.find Object.model? ref = some m →
    first ≤ m.id ∧ m.id < s.nextModel

theorem RunState.Numbered.start (n : Nat) : (RunState.start n).Numbered n where
  later := Nat.le_refl n
  given := nofun

theorem RunState.Numbered.change {first : Nat} {limits : Limits} {onNode : Prop}
    {s s' : RunState} {deed : Option Deed} (numbered : s.Numbered first)
    (change : Change limits onNode s deed s') : s'.Numbered first := by
  have later := numbered.later
  obtain ⟨counter, same⟩ | ⟨roots, -, counter, heap⟩ := change.models
  · refine ⟨by rwa [counter], fun {ref m} found => ?_⟩
    rw [same] at found
    rw [counter]
    exact numbered.given found
  · refine ⟨by omega, fun {ref m} found => ?_⟩
    rw [heap, Heap.find_add] at found
    split at found
    · cases found
      dsimp only
      omega
    · have given := numbered.given found
      omega

theorem Leads.numbered {limits : Limits} {n : Nat} {deeds : List Deed} {s : RunState}
    (leads : Leads limits (.start n) deeds s) : s.Numbered n :=
  leads.induct (P := fun _ s => s.Numbered n) (.start n)
    fun _ _ _ _ _ numbered change => numbered.change change

theorem Loaded.numbered_invoke (loaded : Loaded) (limits : Limits) (n : Nat) :
    n ≤ (loaded.invoke limits n).nextModel ∧
      ∀ m, (loaded.invoke limits n).result = .ok m →
        n ≤ m.id ∧ m.id < (loaded.invoke limits n).nextModel := by
  obtain ⟨deeds, s, leads, counter, gives⟩ := loaded.leads_invoke limits n
  have numbered := leads.numbered
  rw [counter]
  refine ⟨numbered.later, fun m given => ?_⟩
  obtain ⟨ref, found⟩ := gives m given
  exact numbered.given (Heap.model_eq_ok.1 found)

/-! ## Attempts -/

theorem load_of_compile {limits : Limits} {snippet : String} {program : Program}
    (compiled : compile .standard limits snippet = .ok program) :
    ∃ loaded, load program = .ok loaded := by
  obtain ⟨u, parsed, accepted⟩ := compile_ok compiled
  obtain ⟨alone, levels, own, place, -, -, -, surrounds⟩ := Template.parse_wrap parsed
  exact loads_of_surrounds surrounds accepted

def compiles (limits : Limits) (snippet : String) : Bool :=
  (compile .standard limits snippet).toBool

def stepsOf (limits : Limits) (snippet : String) : List Step :=
  [.assemble, .compile] ++ if compiles limits snippet then [.load, .execute] else []

theorem attempt_standard (limits : Limits) (n : Nat) (snippet : String) :
    let a := attempt .standard limits n snippet
    a.steps = stepsOf limits snippet ∧ n ≤ a.nextModel ∧
      ∀ m, a.result = .ok m → n ≤ m.id ∧ m.id < a.nextModel := by
  unfold attempt stepsOf compiles
  cases compiled : compile .standard limits snippet with
  | error errors => exact ⟨rfl, Nat.le_refl n, nofun⟩
  | ok program =>
    obtain ⟨loaded, loads⟩ := load_of_compile compiled
    obtain ⟨later, given⟩ := loaded.numbered_invoke limits n
    simp only [loads]
    refine ⟨rfl, later, fun m ok => given m ?_⟩
    cases result : (loaded.invoke limits n).result with
    | ok m' =>
      rw [result] at ok
      cases ok
      rfl
    | error f =>
      rw [result] at ok
      cases ok

/-! ## Invocations that end alike -/

namespace Loaded

open Run

variable {P : Position → Prop} {limits : Limits} {loaded : Loaded} {n n' : Nat}

theorem parallel_body (within : ∀ p ∈ instrPositions loaded.program.body, P p) :
    Parallel P limits loaded.body loaded.body := by
  have made : Parallel P limits newBuilder newBuilder :=
    (Parallel.addObject (.refl _)).bind fun _ => .pure _
  exact made.bind fun builder => loaded.program.parallel_run loaded.classes within builder

theorem settle_alike {v : Value} {s s' : RunState} (alike : s.Alike s')
    (ran : loaded.body limits (.start n) = .ok v s)
    (ran' : loaded.body limits (.start n') = .ok v s') :
    (loaded.invoke limits n).result.map Model.roots =
        (loaded.invoke limits n').result.map Model.roots ∧
      ∀ f, (loaded.invoke limits n).result = .error f → f.position = none := by
  have unplaced {cause : FaultCause} :
      ∀ f, (Except.error ⟨cause, none⟩ : Except Fault Model) = .error f → f.position = none :=
    fun f is => by cases is; rfl
  cases v with
  | object ref =>
    have roots := alike.heap.roots ref
    cases found : s.heap.model ref with
    | ok m =>
      cases found' : s'.heap.model ref with
      | ok m' =>
        rw [found, found'] at roots
        rw [invoke_of_model ran found, invoke_of_model ran' found']
        exact ⟨congrArg Except.ok (Except.ok.inj roots), nofun⟩
      | error cause' =>
        rw [found, found'] at roots
        cases roots
    | error cause =>
      cases found' : s'.heap.model ref with
      | ok m' =>
        rw [found, found'] at roots
        cases roots
      | error cause' =>
        rw [found, found'] at roots
        cases roots
        rw [invoke_of_ok ran (handOver_missing limits found),
          invoke_of_ok ran' (handOver_missing limits found')]
        exact ⟨rfl, unplaced⟩
  | null =>
    rw [invoke_of_null ran, invoke_of_null ran']
    exact ⟨rfl, unplaced⟩
  | _ =>
    rw [invoke_of_ok ran rfl, invoke_of_ok ran' rfl]
    exact ⟨rfl, unplaced⟩

theorem invoke_alike (within : ∀ p ∈ instrPositions loaded.program.body, P p) (limits : Limits)
    (n n' : Nat) :
    (loaded.invoke limits n).result.map Model.roots =
        (loaded.invoke limits n').result.map Model.roots ∧
      ∀ f, (loaded.invoke limits n).result = .error f → ∀ p ∈ f.position, P p := by
  have parallel : Parallel P limits loaded.body loaded.body := parallel_body within
  obtain ⟨v, s, s', ran, ran', alike⟩ | ⟨f, s, s', ran, ran', place, -⟩ :=
    (parallel _ _ (RunState.alike_start n n')).cases
  · obtain ⟨same, unplaced⟩ := settle_alike alike ran ran'
    exact ⟨same, fun f failed => by rw [unplaced f failed]; exact nofun⟩
  · rw [invoke_of_error ran, invoke_of_error ran']
    exact ⟨rfl, fun f is => by cases is; exact place⟩

end Loaded

end SceneScript
