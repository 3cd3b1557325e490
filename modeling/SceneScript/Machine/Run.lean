import SceneScript.Limits
import SceneScript.Machine.Text

/-!
# Runs

A run works on the state below under fixed limits. A fault ends it and leaves the state as it was
when the fault arose, so that the steps taken and the bytes charged can still be read.
-/

namespace SceneScript

/-- What a model builder has made so far. -/
structure Building where
  /-- The generated meshes; the number of a mesh is its part id. -/
  meshes : Array Mesh
  /-- All nodes in the order of their creation. -/
  nodes : Array Nat
  /-- The vertices of all meshes, generated and placed. -/
  vertices : Nat
  /-- The parts placed on nodes. -/
  placements : Nat
  ended : Bool

structure RunState where
  heap : Heap
  building : Building
  /-- The evaluation steps taken. -/
  steps : Nat
  /-- The bytes charged; they are never given back. -/
  heapBytes : Nat
  /-- The id of the next model. -/
  nextModel : Nat

def RunState.start (nextModel : Nat) : RunState where
  heap := .empty
  building := ⟨#[], #[], 0, 0, false⟩
  steps := 0
  heapBytes := 0
  nextModel := nextModel

abbrev Run := ReaderT Limits (EStateM Fault RunState)

namespace Run

def fault (cause : FaultCause) : Run α :=
  throw ⟨cause, none⟩

instance : MonadLift (Except FaultCause) Run where
  monadLift
    | .ok a => pure a
    | .error cause => fault cause

/-- Locates the faults of a run that have no position yet. -/
def located (p : Position) (run : Run α) : Run α := fun limits s =>
  match run limits s with
  | .ok a s => .ok a s
  | .error f s => .error (f.locate p) s

def limits : Run Limits := read

def heap : Run Heap :=
  return (← get).heap

def building : Run Building :=
  return (← get).building

def modifyHeap (f : Heap → Heap) : Run Unit :=
  modify fun s => { s with heap := f s.heap }

def modifyBuilding (f : Building → Building) : Run Unit :=
  modify fun s => { s with building := f s.building }

def tick : Run Unit := do
  modify fun s => { s with steps := s.steps + 1 }
  let limit := (← limits).maxSteps
  if (← get).steps > limit then fault (.stepLimit limit)

/-- Charges bytes. What goes beyond the limit stays charged. -/
def charge (bytes : Nat) : Run Unit := do
  modify fun s => { s with heapBytes := s.heapBytes + bytes }
  let limit := (← limits).maxHeapBytes
  if (← get).heapBytes > limit then fault (.heapLimit limit)

def string (s : String) : Run Value := do
  let limit := (← limits).maxStringLen
  if s.utf8ByteSize > limit then fault (.stringLimit s.utf8ByteSize limit)
  charge s.utf8ByteSize
  return .string s

/-- Adds an object without charging for it. -/
def addObject (o : Object) : Run Nat :=
  modifyGet fun s =>
    let (ref, heap) := s.heap.add o
    (ref, { s with heap })

def objectBytes : Nat := 96

def elementBytes : Nat := 24

def alloc (o : Object) : Run Value := do
  tick
  charge objectBytes
  return .object (← addObject o)

def display (v : Value) : Run String := do
  let lim ← limits
  let s ← get
  match Text.write s.heap v ⟨lim.maxStringLen, lim.maxSteps, .stepLimit lim.maxSteps⟩
      ⟨"", s.steps⟩ with
  | .ok _ sink =>
    modify fun s => { s with steps := sink.steps }
    return sink.text
  | .error cause sink =>
    modify fun s => { s with steps := sink.steps }
    fault cause

def newBuilder : Run Value :=
  return .object (← addObject .builder)

end Run

end SceneScript
