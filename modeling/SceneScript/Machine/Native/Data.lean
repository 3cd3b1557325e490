import SceneScript.Machine.Native.Language

/-!
# Vectors, colours and arrays
-/

namespace SceneScript.Native

open Run

/-! ## Vector3 -/

def vec3 (x y z : Value) : Run Vec3 :=
  return ⟨← x.asFloat32, ← y.asFloat32, ← z.asFloat32⟩

def vectorStatic (name : String) (args : List Value) : Run Value := do
  match name, args with
  | "new", [x, y, z] => alloc (.vector (← vec3 x y z))
  | "zero", [] => alloc (.vector .zero)
  | _, _ => unknown .staticMethod name

def vectorGet (name : String) (receiver : Value) : Run Value := do
  let v ← (← heap).vector (← receiver.asObject)
  match name with
  | "x" => return .float (Number.widen v.x)
  | "y" => return .float (Number.widen v.y)
  | "z" => return .float (Number.widen v.z)
  | _ => unknown .field name

def vectorSet (name : String) (receiver value : Value) : Run Unit := do
  let ref ← receiver.asObject
  let v ← (← heap).vector ref
  let x ← value.asFloat32
  match name with
  | "x" => modifyHeap (·.setVector ref { v with x := x })
  | "y" => modifyHeap (·.setVector ref { v with y := x })
  | "z" => modifyHeap (·.setVector ref { v with z := x })
  | _ => unknown .field name

def vectorArg (v : Value) : Run Vec3 := do
  (← heap).vector (← v.asObject)

/-- Methods that change a vector return it. -/
def vectorCall (name : String) (receiver : Value) (args : List Value) : Run Value := do
  let ref ← receiver.asObject
  let v ← (← heap).vector ref
  let update (w : Vec3) : Run Value := do
    modifyHeap (·.setVector ref w)
    return receiver
  match name, args with
  | "set", [x, y, z] => update (← vec3 x y z)
  | "add", [w] => update (v.add (← vectorArg w))
  | "sub", [w] => update (v.sub (← vectorArg w))
  | "scl", [s] => update (v.scale (← s.asFloat32))
  | "nor", [] => update v.normalizeOrZero
  | "crs", [w] => update (v.cross (← vectorArg w))
  | "len", [] => return .float (Number.widen v.length)
  | "dot", [w] => return .float (Number.widen (v.dot (← vectorArg w)))
  | "cpy", [] => alloc (.vector v)
  | _, _ => unknown .method name

/-! ## Color -/

def channel (v : Value) : Run Float32 := do
  let x ← v.asFloat32
  if !x.isFinite then fault (.invalidChannel x)
  return x

def colorStatic (name : String) (args : List Value) : Run Value := do
  match name, args with
  | "new", [r, g, b, a] =>
    alloc (.color ⟨← channel r, ← channel g, ← channel b, ← channel a⟩)
  | "rgb", [r, g, b] => alloc (.color ⟨← channel r, ← channel g, ← channel b, 1⟩)
  | _, _ => unknown .staticMethod name

/-- Each use of a constant makes a colour of its own. -/
def colorConstant (name : String) : Run Value :=
  match name with
  | "WHITE" => alloc (.color ⟨1, 1, 1, 1⟩)
  | "BLACK" => alloc (.color ⟨0, 0, 0, 1⟩)
  | "RED" => alloc (.color ⟨1, 0, 0, 1⟩)
  | "GREEN" => alloc (.color ⟨0, 1, 0, 1⟩)
  | "BLUE" => alloc (.color ⟨0, 0, 1, 1⟩)
  | "GRAY" => alloc (.color ⟨0.5, 0.5, 0.5, 1⟩)
  | "BROWN" => alloc (.color ⟨0.545, 0.271, 0.075, 1⟩)
  | _ => unknown .constant name

def colorGet (name : String) (receiver : Value) : Run Value := do
  let read (select : Rgba → Float32) : Run Value := do
    return .float (Number.widen (select (← (← heap).color (← receiver.asObject))))
  match name with
  | "r" => read Rgba.r
  | "g" => read Rgba.g
  | "b" => read Rgba.b
  | "a" => read Rgba.a
  | _ => unknown .field name

def colorSet (name : String) (receiver value : Value) : Run Unit := do
  let write (update : Rgba → Float32 → Rgba) : Run Unit := do
    let x ← channel value
    let ref ← receiver.asObject
    let c ← (← heap).color ref
    modifyHeap (·.setColor ref (update c x))
  match name with
  | "r" => write fun c x => { c with r := x }
  | "g" => write fun c x => { c with g := x }
  | "b" => write fun c x => { c with b := x }
  | "a" => write fun c x => { c with a := x }
  | _ => unknown .field name

def lerp (c target : Rgba) (t : Float32) : Rgba :=
  let step (a b : Float32) := a + (b - a) * t
  ⟨step c.r target.r, step c.g target.g, step c.b target.b, step c.a target.a⟩

def colorCall (name : String) (receiver : Value) (args : List Value) : Run Value := do
  let ref ← receiver.asObject
  match name, args with
  | "lerp", [target, t] =>
    let target ← (← heap).color (← target.asObject)
    let t ← channel t
    let c ← (← heap).color ref
    modifyHeap (·.setColor ref (lerp c target t))
    return receiver
  | "cpy", [] => alloc (.color (← (← heap).color ref))
  | _, _ => unknown .method name

/-! ## Array -/

def arrayStatic (name : String) (args : List Value) : Run Value :=
  match name, args with
  | "new", [] => alloc (.array #[])
  | _, _ => unknown .staticMethod name

/-- The bytes charged for a new element; a string is charged again. -/
def elementCost : Value → Nat
  | .string s => elementBytes + s.utf8ByteSize
  | _ => elementBytes

def arrayCall (name : String) (receiver : Value) (args : List Value) : Run Value := do
  let ref ← receiver.asObject
  let size := (← (← heap).array ref).size
  match name, args with
  | "add", [v] =>
    let limit := (← limits).maxArrayLen
    if size ≥ limit then fault (.arrayLimit limit)
    charge (elementCost v)
    modifyHeap (·.push ref v)
    return .void
  | "size", [] => return .int (Int64.ofNat size)
  | "get", [index] =>
    let i ← index.asInt
    let items ← (← heap).array ref
    match if 0 ≤ i.toInt then items[i.toInt.toNat]? else none with
    | some v => return v
    | none => fault (.outOfBounds i size)
  | _, _ => unknown .method name

end SceneScript.Native
