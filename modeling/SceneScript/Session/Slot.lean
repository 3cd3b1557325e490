import SceneScript.Message.Summary
import SceneScript.Session.Attempt

/-!
# Slots

A slot holds at most one model. To replace it, the slot first disposes of the model that it holds
and then attempts to build a new one; so a failed attempt leaves it empty.
-/

namespace SceneScript

inductive Event where
  | disposed (id : Nat)
  | began (step : Step)
deriving Repr, DecidableEq

structure Slot where
  limits : Limits
  model : Option Model
  statistics : Statistics
  /-- The id of the next model. -/
  nextModel : Nat

structure Replacement where
  result : Except Diagnostic Model
  events : List Event
  slot : Slot

def Statistics.countStep (s : Statistics) : Step → Statistics
  | .assemble => s
  | .compile => { s with compilations := s.compilations + 1 }
  | .load => { s with loads := s.loads + 1 }
  | .execute => { s with invocations := s.invocations + 1 }

namespace Slot

def empty (limits : Limits) (nextModel : Nat) : Slot :=
  ⟨limits, none, {}, nextModel⟩

def isOccupied (s : Slot) : Bool :=
  s.model.isSome

def dispose (s : Slot) : List Event × Slot :=
  match s.model with
  | none => ([], s)
  | some m =>
    let statistics := { s.statistics with disposals := s.statistics.disposals + 1 }
    ([.disposed m.id], { s with model := none, statistics := statistics })

/-- Fills an empty slot from a snippet, unless the attempt fails. -/
def fill (s : Slot) (snippet : String) : Replacement :=
  let a := attempt .standard s.limits s.nextModel snippet
  { result := a.result
    events := a.steps.map .began
    slot := { s with
      model := a.result.toOption
      statistics := a.steps.foldl Statistics.countStep s.statistics
      nextModel := a.nextModel } }

def replace (s : Slot) (snippet : String) : Replacement :=
  let statistics := { s.statistics with replacements := s.statistics.replacements + 1 }
  let (events, emptied) := { s with statistics := statistics }.dispose
  let r := emptied.fill snippet
  { r with events := events ++ r.events }

end Slot

end SceneScript
