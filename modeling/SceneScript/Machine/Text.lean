import SceneScript.Machine.Heap

/-!
# The text of values

The text of a value shows the content of what it refers to; arrays are shown item by item, down to a
fixed depth of nesting. Writing is bounded: each value written takes a step, and the text must not
grow beyond a limit. Both bounds are checked before anything is added, so a text that does not fit
is left as far as it fits.
-/

namespace SceneScript.Text

structure Sink where
  text : String
  steps : Nat

structure Bounds where
  maxLen : Nat
  maxSteps : Nat
  outOfSteps : FaultCause

abbrev Writer := ReaderT Bounds (EStateM FaultCause Sink)

/-- The nesting down to which arrays are shown. -/
def maxDepth : Nat := 8

def step : Writer Unit := do
  modify fun s => { s with steps := s.steps + 1 }
  let b ← read
  if (← get).steps > b.maxSteps then throw b.outOfSteps

def add (t : String) : Writer Unit := do
  let size := (← get).text.utf8ByteSize + t.utf8ByteSize
  let limit := (← read).maxLen
  if size > limit then throw (.stringLimit size limit)
  modify fun s => { s with text := s.text ++ t }

def showVector (v : Vec3) : String :=
  "(" ++ ", ".intercalate (v.toList.map Value.numberLayout.float32) ++ ")"

def showColor (c : Rgba) : String :=
  "rgba(" ++ ", ".intercalate (c.toList.map Value.numberLayout.float32) ++ ")"

/-- Items behind the first one, each with a comma in front. -/
def writeTail (item : Value → Writer Unit) : List Value → Writer Unit
  | [] => return
  | v :: rest => do
    add ", "
    item v
    writeTail item rest

def writeItems (item : Value → Writer Unit) : List Value → Writer Unit
  | [] => return
  | v :: rest => do
    item v
    writeTail item rest

/-- Writes a value. The items of an array are written by `item`; without it the array is only
hinted at. -/
def writeOne (h : Heap) (item : Option (Value → Writer Unit)) (v : Value) : Writer Unit := do
  step
  match v with
  | .object ref =>
    match h.objects[ref]? with
    | some (.node n) => add s!"Node({n.id})"
    | some (.vector v) => add (showVector v)
    | some (.color c) => add (showColor c)
    | some (.material m) => add s!"Material({m.id})"
    | some (.array items) =>
      match item with
      | none => add "[...]"
      | some item =>
        add "["
        writeItems item items.toList
        add "]"
    | some o => add s!"{o.kind.describe}#{ref}"
    | none => add v.text
  | v => add v.text

def writeNested (h : Heap) : Nat → Value → Writer Unit
  | 0 => writeOne h none
  | depth + 1 => writeOne h (some (writeNested h depth))

def write (h : Heap) (v : Value) : Writer Unit :=
  writeNested h maxDepth v

end SceneScript.Text
