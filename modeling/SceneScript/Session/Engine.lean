import SceneScript.Session.Slot

/-!
# Engines

What outlasts an attempt: the slot, its statistics, and the counters from which models and loading
contexts get their ids. Each load takes a context of its own, and the program runs in it.
-/

namespace SceneScript

structure LoadingContext where
  id : Nat
  loaded : Loaded

namespace LoadingContext

def load (id : Nat) (program : Program) : Except LoadError LoadingContext := do
  return ⟨id, ← SceneScript.load program⟩

def invoke (c : LoadingContext) (limits : Limits) (nextModel : Nat) : Invocation :=
  c.loaded.invoke limits nextModel

end LoadingContext

/-- A slot with the counter of the loading contexts. -/
structure Engine where
  slot : Slot
  /-- The id of the next loading context. -/
  nextContext : Nat

namespace Engine

def start (limits : Limits) (nextModel nextContext : Nat) : Engine :=
  ⟨.empty limits nextModel, nextContext⟩

/-- An attempt, and the id of the next loading context after it. A load that fails takes none. -/
def attempt (limits : Limits) (nextModel nextContext : Nat) (snippet : String) : Attempt × Nat :=
  match compile .standard limits snippet with
  | .error errors =>
    (⟨.error (.ofCompileErrors snippet errors), [.assemble, .compile], nextModel⟩, nextContext)
  | .ok program =>
    match LoadingContext.load nextContext program with
    | .error e =>
      (⟨.error (.ofLoadError e), [.assemble, .compile, .load], nextModel⟩, nextContext)
    | .ok context =>
      let i := context.invoke limits nextModel
      (⟨i.result.mapError (.ofFault snippet), [.assemble, .compile, .load, .execute], i.nextModel⟩,
        nextContext + 1)

def replace (e : Engine) (snippet : String) : Replacement × Engine :=
  let statistics :=
    { e.slot.statistics with replacements := e.slot.statistics.replacements + 1 }
  let (events, s) := { e.slot with statistics := statistics }.dispose
  let (a, nextContext) := attempt s.limits s.nextModel e.nextContext snippet
  let slot : Slot := { s with
    model := a.result.toOption
    statistics := a.steps.foldl Statistics.countStep s.statistics
    nextModel := a.nextModel }
  (⟨a.result, events ++ a.steps.map .began, slot⟩, ⟨slot, nextContext⟩)

end Engine

end SceneScript
