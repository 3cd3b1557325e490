import SceneScript.Proofs.Session.Numbering
import SceneScript.Session.Engine
import SceneScript.Session.Slot

/-!
# Runs of a slot

Whatever snippets a slot is filled from, one after the other, and wherever those fail: it holds the
model that the last replacement gave, it has disposed of every other model that it gave, once and in
order, and its events and statistics tell exactly that (`Slot.orderly`).
-/

namespace SceneScript

namespace Event

def disposed? : Event → Option Nat
  | .disposed id => some id
  | .began _ => none

def disposedIn (events : List Event) : List Nat :=
  events.filterMap disposed?

theorem disposedIn_append (events more : List Event) :
    disposedIn (events ++ more) = disposedIn events ++ disposedIn more :=
  List.filterMap_append

end Event

namespace Replacement

def id? (r : Replacement) : Option Nat :=
  r.result.toOption.map Model.id

def givenIn (rs : List Replacement) : List Nat :=
  rs.filterMap id?

def eventsIn (rs : List Replacement) : List Event :=
  rs.flatMap Replacement.events

theorem givenIn_cons (r : Replacement) (rs : List Replacement) :
    givenIn (r :: rs) = r.id?.toList ++ givenIn rs := by
  rw [givenIn, List.filterMap_cons]
  cases r.id? <;> rfl

theorem eventsIn_cons (r : Replacement) (rs : List Replacement) :
    eventsIn (r :: rs) = r.events ++ eventsIn rs :=
  List.flatMap_cons

end Replacement

namespace Slot

def replaceAll (s : Slot) : List String → List Replacement
  | [] => []
  | snippet :: rest => s.replace snippet :: (s.replace snippet).slot.replaceAll rest

def after (s : Slot) (snippets : List String) : Slot :=
  snippets.foldl (fun s snippet => (s.replace snippet).slot) s

def heldId (s : Slot) : Option Nat :=
  s.model.map Model.id

theorem length_heldId (s : Slot) : s.heldId.toList.length = s.isOccupied.toNat := by
  rw [heldId, isOccupied]
  cases s.model <;> rfl

def farewell (held : Option Model) : List Event :=
  (held.map fun m => .disposed m.id).toList

/-- The events of replacements with the given results: each one disposes of what the one before it
gave, and then takes the steps of its attempt. -/
def trace (limits : Limits) : Option Model → List (String × Except Diagnostic Model) → List Event
  | _, [] => []
  | held, (snippet, result) :: rest =>
    farewell held ++ (stepsOf limits snippet).map .began ++ trace limits result.toOption rest

/-! ## One replacement -/

structure Replaces (s : Slot) (snippet : String) (r : Replacement) : Prop where
  limits : r.slot.limits = s.limits
  held : r.slot.model = r.result.toOption
  events : r.events = farewell s.model ++ (stepsOf s.limits snippet).map .began
  later : s.nextModel ≤ r.slot.nextModel
  given : ∀ m, r.result = .ok m → s.nextModel ≤ m.id ∧ m.id < r.slot.nextModel
  replacements : r.slot.statistics.replacements = s.statistics.replacements + 1
  compilations : r.slot.statistics.compilations = s.statistics.compilations + 1
  loads : r.slot.statistics.loads = s.statistics.loads + (compiles s.limits snippet).toNat
  invocations : r.slot.statistics.invocations =
    s.statistics.invocations + (compiles s.limits snippet).toNat
  disposals : r.slot.statistics.disposals = s.statistics.disposals + s.isOccupied.toNat

theorem replace_eq (s : Slot) (snippet : String) :
    let a := attempt .standard s.limits s.nextModel snippet
    s.replace snippet = {
      result := a.result
      events := farewell s.model ++ a.steps.map .began
      slot := {
        limits := s.limits
        model := a.result.toOption
        statistics := a.steps.foldl Statistics.countStep { s.statistics with
          replacements := s.statistics.replacements + 1
          disposals := s.statistics.disposals + s.isOccupied.toNat }
        nextModel := a.nextModel } } := by
  obtain ⟨limits, model, statistics, nextModel⟩ := s
  cases model <;> rfl

theorem countStep_stepsOf (limits : Limits) (snippet : String) (st : Statistics) :
    (stepsOf limits snippet).foldl Statistics.countStep st = { st with
      compilations := st.compilations + 1
      loads := st.loads + (compiles limits snippet).toNat
      invocations := st.invocations + (compiles limits snippet).toNat } := by
  unfold stepsOf
  cases compiles limits snippet <;> rfl

theorem replaces (s : Slot) (snippet : String) : s.Replaces snippet (s.replace snippet) := by
  obtain ⟨steps, later, given⟩ := attempt_standard s.limits s.nextModel snippet
  rw [replace_eq, steps, countStep_stepsOf]
  exact {
    limits := rfl
    held := rfl
    events := rfl
    later := later
    given := given
    replacements := rfl
    compilations := rfl
    loads := rfl
    invocations := rfl
    disposals := rfl }

theorem Replaces.disposedIn {s : Slot} {snippet : String} {r : Replacement}
    (replaces : s.Replaces snippet r) : Event.disposedIn r.events = s.heldId.toList := by
  have none : Event.disposedIn ((stepsOf s.limits snippet).map .began) = [] := by
    simp [Event.disposedIn, Event.disposed?]
  rw [replaces.events, Event.disposedIn_append, none, List.append_nil, heldId]
  cases s.model <;> rfl

theorem Replaces.id? {s : Slot} {snippet : String} {r : Replacement}
    (replaces : s.Replaces snippet r) : r.id? = r.slot.heldId := by
  rw [Replacement.id?, heldId, replaces.held]

/-! ## Runs -/

variable (s : Slot) (snippets : List String)

theorem model_replaceAll : ∀ r ∈ s.replaceAll snippets, r.slot.model = r.result.toOption := by
  induction snippets generalizing s with
  | nil => exact nofun
  | cons snippet rest ih => exact List.forall_mem_cons.2 ⟨(s.replaces snippet).held, ih _⟩

theorem eventsIn_replaceAll : Replacement.eventsIn (s.replaceAll snippets) =
    trace s.limits s.model (snippets.zip ((s.replaceAll snippets).map Replacement.result)) := by
  induction snippets generalizing s with
  | nil => rfl
  | cons snippet rest ih =>
    have first := s.replaces snippet
    rw [replaceAll, Replacement.eventsIn, List.flatMap_cons, List.map_cons, List.zip_cons_cons,
      trace, ← first.events, ← first.held, ← first.limits]
    exact congrArg _ (ih _)

theorem disposedIn_replaceAll_cons (snippet : String) (rest : List String) :
    Event.disposedIn (Replacement.eventsIn (s.replaceAll (snippet :: rest))) =
      s.heldId.toList ++
        Event.disposedIn (Replacement.eventsIn ((s.replace snippet).slot.replaceAll rest)) := by
  rw [replaceAll, Replacement.eventsIn_cons, Event.disposedIn_append,
    (s.replaces snippet).disposedIn]

theorem ledger_replaceAll : s.heldId.toList ++ Replacement.givenIn (s.replaceAll snippets) =
    Event.disposedIn (Replacement.eventsIn (s.replaceAll snippets)) ++
      (s.after snippets).heldId.toList := by
  induction snippets generalizing s with
  | nil => exact List.append_nil _
  | cons snippet rest ih =>
    have given := (s.replaces snippet).id?
    rw [disposedIn_replaceAll_cons, replaceAll, Replacement.givenIn_cons, given,
      List.append_assoc, ih]
    rfl

theorem held_or_disposed {m : Model} (holds : s.model = some m) :
    (s.after snippets).model = some m ∨
      m.id ∈ Event.disposedIn (Replacement.eventsIn (s.replaceAll snippets)) := by
  cases snippets with
  | nil => exact .inl holds
  | cons snippet rest =>
    right
    rw [disposedIn_replaceAll_cons, heldId, holds]
    exact List.mem_cons_self

theorem given_or_disposed : ∀ r ∈ s.replaceAll snippets, ∀ m, r.result = .ok m →
    (s.after snippets).model = some m ∨
      m.id ∈ Event.disposedIn (Replacement.eventsIn (s.replaceAll snippets)) := by
  induction snippets generalizing s with
  | nil => exact nofun
  | cons snippet rest ih =>
    have later : ∀ {m : Model}, m.id ∈ Event.disposedIn (Replacement.eventsIn
          ((s.replace snippet).slot.replaceAll rest)) →
        m.id ∈ Event.disposedIn (Replacement.eventsIn (s.replaceAll (snippet :: rest))) := by
      intro m mem
      rw [disposedIn_replaceAll_cons]
      exact List.mem_append_right _ mem
    refine List.forall_mem_cons.2 ⟨fun m given => ?_, fun r mem m given => ?_⟩
    -- The model that the first replacement gives is in the slot when the rest begins.
    · have holds : (s.replace snippet).slot.model = some m := by
        rw [(s.replaces snippet).held, given]
        rfl
      exact (held_or_disposed _ rest holds).imp_right later
    · exact (ih _ r mem m given).imp_right later

theorem increasing_replaceAll :
    (Replacement.givenIn (s.replaceAll snippets)).Pairwise (· < ·) ∧
      ∀ id ∈ Replacement.givenIn (s.replaceAll snippets), s.nextModel ≤ id := by
  induction snippets generalizing s with
  | nil => exact ⟨.nil, nofun⟩
  | cons snippet rest ih =>
    have first := s.replaces snippet
    obtain ⟨increasing, least⟩ := ih (s.replace snippet).slot
    have later : ∀ id ∈ Replacement.givenIn ((s.replace snippet).slot.replaceAll rest),
        s.nextModel ≤ id := fun id mem => Nat.le_trans first.later (least id mem)
    rw [replaceAll, Replacement.givenIn_cons]
    cases given : (s.replace snippet).result with
    | error d =>
      rw [Replacement.id?, given]
      exact ⟨increasing, later⟩
    | ok m =>
      obtain ⟨low, high⟩ := first.given m given
      rw [Replacement.id?, given]
      refine ⟨List.pairwise_cons.2 ⟨fun id mem => ?_, increasing⟩, ?_⟩
      · exact Nat.lt_of_lt_of_le high (least id mem)
      · exact List.forall_mem_cons.2 ⟨low, later⟩

theorem counter_after (counter : Statistics → Nat) (counts : Limits → String → Bool)
    (step : ∀ (s : Slot) snippet, counter (s.replace snippet).slot.statistics =
      counter s.statistics + (counts s.limits snippet).toNat) :
    counter (s.after snippets).statistics =
      counter s.statistics + snippets.countP (counts s.limits) := by
  induction snippets generalizing s with
  | nil => rfl
  | cons snippet rest ih =>
    have counted : (snippet :: rest).countP (counts s.limits) =
        (counts s.limits snippet).toNat + rest.countP (counts s.limits) := by
      rw [List.countP_cons, Nat.add_comm]
      cases counts s.limits snippet <;> rfl
    rw [counted, ← Nat.add_assoc, ← step s snippet, ← (s.replaces snippet).limits]
    exact ih _

theorem disposals_after : (s.after snippets).statistics.disposals =
    s.statistics.disposals +
      (Event.disposedIn (Replacement.eventsIn (s.replaceAll snippets))).length := by
  induction snippets generalizing s with
  | nil => rfl
  | cons snippet rest ih =>
    have ofRest := ih (s.replace snippet).slot
    rw [(s.replaces snippet).disposals, Nat.add_assoc, ← length_heldId, ← List.length_append,
      ← disposedIn_replaceAll_cons] at ofRest
    exact ofRest

/-! ## From the beginning -/

structure Orderly (limits : Limits) (snippets : List String) (rs : List Replacement) (s : Slot) :
    Prop where
  held : ∀ r ∈ rs, r.slot.model = r.result.toOption
  trace : Replacement.eventsIn rs =
    trace limits none (snippets.zip (rs.map Replacement.result))
  once : (Event.disposedIn (Replacement.eventsIn rs)).Nodup
  /-- The models that were given are those that were disposed of, and the one that is held. -/
  ledger : Replacement.givenIn rs =
    Event.disposedIn (Replacement.eventsIn rs) ++ s.heldId.toList
  given : ∀ r ∈ rs, ∀ m, r.result = .ok m →
    s.model = some m ∨ (Event.disposedIn (Replacement.eventsIn rs)).count m.id = 1
  increasing : (Replacement.givenIn rs).Pairwise (· < ·)
  replacements : s.statistics.replacements = snippets.length
  compilations : s.statistics.compilations = snippets.length
  loads : s.statistics.loads = snippets.countP (compiles limits)
  invocations : s.statistics.invocations = snippets.countP (compiles limits)
  disposals : s.statistics.disposals + s.isOccupied.toNat = (Replacement.givenIn rs).length

theorem orderly (limits : Limits) (nextModel : Nat) (snippets : List String) :
    Orderly limits snippets ((empty limits nextModel).replaceAll snippets)
      ((empty limits nextModel).after snippets) := by
  let s := empty limits nextModel
  have ledger : Replacement.givenIn (s.replaceAll snippets) =
      Event.disposedIn (Replacement.eventsIn (s.replaceAll snippets)) ++
        (s.after snippets).heldId.toList := s.ledger_replaceAll snippets
  have increasing := (s.increasing_replaceAll snippets).1
  have distinct : (Replacement.givenIn (s.replaceAll snippets)).Nodup :=
    increasing.imp Nat.ne_of_lt
  -- No model is given out twice, so none is disposed of twice.
  have once : (Event.disposedIn (Replacement.eventsIn (s.replaceAll snippets))).Nodup :=
    (List.nodup_append.1 (ledger ▸ distinct)).1
  have counted (counter : Statistics → Nat) (counts : Limits → String → Bool)
      (none : counter {} = 0) (step : ∀ (s : Slot) snippet,
        counter (s.replace snippet).slot.statistics =
          counter s.statistics + (counts s.limits snippet).toNat) :
      counter (s.after snippets).statistics = snippets.countP (counts limits) := by
    rw [s.counter_after snippets counter counts step]
    exact none.symm ▸ Nat.zero_add _
  exact {
    held := model_replaceAll _ _
    trace := eventsIn_replaceAll _ _
    once := once
    ledger := ledger
    given := fun r mem m ok => (given_or_disposed _ _ r mem m ok).imp_right
      (List.count_eq_one_of_mem once)
    increasing := increasing
    replacements := (counted _ (fun _ _ => true) rfl
      fun s snippet => (s.replaces snippet).replacements).trans (by simp)
    compilations := (counted _ (fun _ _ => true) rfl
      fun s snippet => (s.replaces snippet).compilations).trans (by simp)
    loads := counted _ compiles rfl fun s snippet => (s.replaces snippet).loads
    invocations := counted _ compiles rfl fun s snippet => (s.replaces snippet).invocations
    disposals := by
      rw [ledger, List.length_append, length_heldId, disposals_after]
      exact congrArg (· + _) (Nat.zero_add _) }

end Slot

end SceneScript

/-!
## Attempts do not affect each other

What a replacement gives depends on the limits and on the snippet alone, up to the id of the model
(`Engine.replace_isolated`). A run does not see the counters at all: states that differ in the ids
of models only are alike to it, whatever it evaluates, executes or writes out as text.
-/

namespace SceneScript

/-- The same outcome: models that are equal up to their ids, or the same diagnostic. -/
inductive SameOutcome : Except Diagnostic Model → Except Diagnostic Model → Prop
  | model {m m' : Model} : { m' with id := m.id } = m → SameOutcome (.ok m) (.ok m')
  | failure (d : Diagnostic) : SameOutcome (.error d) (.error d)

/-- The run ends alike from states that differ in the ids of models only. -/
def Run.Blind {α : Type} (limits : Limits) (run : Run α) : Prop :=
  Parallel (fun _ => True) limits run run

theorem sameOutcome_of_roots {r r' : Except Fault Model} (snippet : String)
    (same : r.map Model.roots = r'.map Model.roots) :
    SameOutcome (r.mapError (.ofFault snippet)) (r'.mapError (.ofFault snippet)) := by
  cases r with
  | ok m =>
    cases r' with
    | ok m' =>
      obtain ⟨id, roots⟩ := m
      obtain ⟨id', roots'⟩ := m'
      cases same
      exact .model rfl
    | error f' => cases same
  | error f =>
    cases r' with
    | ok m' => cases same
    | error f' =>
      cases same
      exact .failure _

namespace Engine

/-! ## The slot of an engine -/

theorem attempt_eq (limits : Limits) (n c : Nat) (snippet : String) :
    (attempt limits n c snippet).1 = SceneScript.attempt .standard limits n snippet := by
  unfold attempt SceneScript.attempt LoadingContext.load LoadingContext.invoke
  cases compile .standard limits snippet with
  | error errors => rfl
  | ok program =>
    dsimp only
    cases load program <;> rfl

theorem replace_eq (e : Engine) (snippet : String) :
    (e.replace snippet).1 = e.slot.replace snippet := by
  obtain ⟨⟨limits, model, statistics, n⟩, c⟩ := e
  have same := attempt_eq limits n c snippet
  cases model <;> simp only [replace, Slot.replace, Slot.dispose, Slot.fill, ← same]

theorem replace_slot (e : Engine) (snippet : String) :
    (e.replace snippet).2.slot = (e.slot.replace snippet).slot :=
  congrArg Replacement.slot (e.replace_eq snippet)

def after (e : Engine) (snippets : List String) : Engine :=
  snippets.foldl (fun e snippet => (e.replace snippet).2) e

theorem limits_after (e : Engine) (snippets : List String) :
    (e.after snippets).slot.limits = e.slot.limits := by
  induction snippets generalizing e with
  | nil => rfl
  | cons snippet rest ih =>
    have kept : (e.replace snippet).2.slot.limits = e.slot.limits := by
      rw [replace_slot, (e.slot.replaces snippet).limits]
    exact (ih _).trans kept

/-! ## Outcomes -/

theorem attempt_same (limits : Limits) (n n' : Nat) (snippet : String) :
    SameOutcome (SceneScript.attempt .standard limits n snippet).result
      (SceneScript.attempt .standard limits n' snippet).result := by
  unfold SceneScript.attempt
  cases compile .standard limits snippet with
  | error errors => exact .failure _
  | ok program =>
    dsimp only
    cases load program with
    | error e => exact .failure _
    | ok loaded =>
      have within : ∀ p ∈ instrPositions loaded.program.body, True := fun _ _ => trivial
      exact sameOutcome_of_roots snippet (loaded.invoke_alike within limits n n').1

def under (limits : Limits) (e : Engine) : Engine :=
  { e with slot := { e.slot with limits } }

theorem under_self {limits : Limits} {e : Engine} (has : e.slot.limits = limits) :
    e.under limits = e := by
  subst has
  rfl

theorem replace_under (limits : Limits) (e e' : Engine) (snippet : String) :
    SameOutcome ((e.under limits).replace snippet).1.result
      ((e'.under limits).replace snippet).1.result := by
  rw [replace_eq, replace_eq, Slot.replace_eq, Slot.replace_eq]
  exact attempt_same limits _ _ snippet

/-- A replacement has the same outcome after any two histories, and in any two engines with the
same limits, whatever their slots, statistics and counters hold. No part of a run, and no conversion
to text, tells two states apart that differ in the ids of models and in the next one only. -/
theorem replace_isolated (limits : Limits) (snippet : String) :
    (∀ (history history' : List String) (n n' c c' : Nat),
      SameOutcome (((start limits n c).after history).replace snippet).1.result
        (((start limits n' c').after history').replace snippet).1.result) ∧
    (∀ e e' : Engine, SameOutcome ((e.under limits).replace snippet).1.result
      ((e'.under limits).replace snippet).1.result) ∧
    (∀ n n', (RunState.start n).Alike (.start n')) ∧
    (∀ classes body locals, Run.Blind limits (execAll classes body locals)) ∧
    (∀ classes locals (code : Code), Run.Blind limits (code.eval classes locals)) ∧
    ∀ v, Run.Blind limits (Run.display v) := by
  refine ⟨fun history history' n n' c c' => ?_, fun e e' => replace_under limits e e' snippet,
    RunState.alike_start, fun classes body locals => ?_, fun classes locals code => ?_, fun v => ?_⟩
  · rw [← under_self (limits_after (start limits n c) history),
      ← under_self (limits_after (start limits n' c') history')]
    exact replace_under limits _ _ snippet
  · exact ((composed_execAll body fun _ _ => trivial) locals).parallel
  · exact (code.composed_eval fun _ _ => trivial).parallel
  · exact .display v

end Engine

end SceneScript
