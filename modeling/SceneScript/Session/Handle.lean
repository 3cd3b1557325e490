import SceneScript.Session.Shared
import SceneScript.Session.Slot

/-!
# Handles

Every model that a session builds gets a handle, which refers to it weakly. The slot holds a
reference to its model until it disposes of it; further ones are kept through handles.
-/

namespace SceneScript

/-- A weak reference to a model, with its id. -/
structure Handle where
  id : Nat
  ref : Nat

structure Session where
  slot : Slot
  store : Store
  /-- The reference of the slot to its model. -/
  held : Option Nat
  /-- The handles of the models built so far. -/
  handles : Array Handle
  /-- The numbers of the handles through which references are kept, one for each reference. -/
  kept : List Nat

namespace Session

def start (limits : Limits) (nextModel : Nat) : Session :=
  ⟨.empty limits nextModel, .empty, none, #[], []⟩

def dispose (s : Session) : Session :=
  match s.held with
  | none => s
  | some ref => { s with store := s.store.release ref, held := none }

/-- Shares a new model with the slot and gives it the next handle. The reference that it was shared
with is released in the end. -/
def install (s : Session) (m : Model) : Session :=
  let (ref, store) := s.store.share m
  { s with
    store := (store.hold ref).release ref
    held := some ref
    handles := s.handles.push ⟨m.id, ref⟩ }

def replace (s : Session) (snippet : String) : Replacement × Session :=
  let r := s.slot.replace snippet
  let emptied := { s with slot := r.slot }.dispose
  match r.result with
  | .ok m => (r, emptied.install m)
  | .error _ => (r, emptied)

def get? (s : Session) (handle : Nat) : Option (Model × Session) := do
  let h ← s.handles[handle]?
  let (m, store) ← s.store.upgrade? h.ref
  return (m, { s with store })

/-- The model of a handle. Whoever asks for it keeps no reference. -/
def resolve? (s : Session) (handle : Nat) : Option Model :=
  (s.get? handle).map Prod.fst

def isLive (s : Session) (handle : Nat) : Bool :=
  match s.handles[handle]? with
  | some h => 0 < s.store.holders h.ref
  | none => false

/-- Upgrades a handle and keeps the reference. Tells whether there was one. -/
def keep (s : Session) (handle : Nat) : Bool × Session :=
  match s.get? handle with
  | some (_, s) => (true, { s with kept := handle :: s.kept })
  | none => (false, s)

def isKept (s : Session) (handle : Nat) : Bool :=
  s.kept.contains handle

def drop (s : Session) (handle : Nat) : Session :=
  match s.handles[handle]? with
  | some h =>
    if s.isKept handle then
      { s with store := s.store.release h.ref, kept := s.kept.erase handle }
    else
      s
  | none => s

end Session

end SceneScript
