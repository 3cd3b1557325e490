import SceneScript.Json.Record
import SceneScript.Proofs.Gltf.Bytes
import SceneScript.Proofs.Number.Floats

/-!
# Reading documents

What a reader of a document gets at: the entries of its tables by their numbers, the ranges of the
buffer that its accessors refer to, and the primitives that the scene shows.
-/

namespace SceneScript.Gltf

/-! ## Values -/

def member? (name : String) : Json → Option Json
  | .object fields => fields.lookup name
  | _ => none

def nat? : Json → Option Nat
  | .number written => written.toNat?
  | _ => none

def natMember? (name : String) (j : Json) : Option Nat :=
  (member? name j).bind nat?

def itemsMember? (name : String) (j : Json) : Option (List Json) :=
  (member? name j).bind Json.items?

theorem nat?_nat (n : Nat) : nat? (.nat n) = some n :=
  Nat.toNat?_repr n

def entryAt? (table : String) (doc : Json) (i : Nat) : Option Json :=
  (itemsMember? table doc).bind (·[i]?)

/-! ## Views and accessors -/

def target? (code : Nat) : Option Target :=
  [.vertices, .indices].find? fun t => t.code == code

def view? (j : Json) : Option View := do
  let offset ← natMember? "byteOffset" j
  let length ← natMember? "byteLength" j
  let target ← target? (← natMember? "target" j)
  if natMember? "buffer" j = some 0 then some ⟨offset, length, target⟩ else none

def views? (doc : Json) : Option (List View) := do
  (← itemsMember? "bufferViews" doc).mapM view?

def Elements.size : Elements → Nat
  | .vectors => 12
  | .numbers => 4

def describes (elements : Elements) (accessor : Json) : Bool :=
  natMember? "componentType" accessor == some elements.componentCode &&
    match member? "type" accessor with
    | some (.string shape) => shape == elements.shape
    | _ => false

/-- The bytes that an accessor refers to. They must lie in the buffer and be as many as its elements
take up. -/
def elementBytes? (elements : Elements) (doc : Json) (buffer : List UInt8) (i : Nat) :
    Option (List UInt8) := do
  let accessor ← entryAt? "accessors" doc i
  let count ← natMember? "count" accessor
  let view ← view? (← entryAt? "bufferViews" doc (← natMember? "bufferView" accessor))
  if describes elements accessor ∧ view.length = count * elements.size ∧
      view.offset + view.length ≤ buffer.length then
    some ((buffer.drop view.offset).take view.length)
  else none

def vectorsAt? (doc : Json) (buffer : List UInt8) (i : Nat) : Option (List Vec3) := do
  vectors? (← words? (← elementBytes? .vectors doc buffer i))

def numbersAt? (doc : Json) (buffer : List UInt8) (i : Nat) : Option (List UInt32) := do
  words? (← elementBytes? .numbers doc buffer i)

/-! ## The scene -/

def primitive? (j : Json) : Option Primitive := do
  let attributes ← member? "attributes" j
  return ⟨← natMember? "POSITION" attributes, ← natMember? "NORMAL" attributes,
    ← natMember? "indices" j, ← natMember? "material" j⟩

def ownPrimitives? (doc node : Json) : Option (List Primitive) :=
  match member? "mesh" node with
  | none => some []
  | some mesh => do
    let entry ← entryAt? "meshes" doc (← nat? mesh)
    (← itemsMember? "primitives" entry).mapM primitive?

def children? (node : Json) : Option (List Nat) :=
  match member? "children" node with
  | none => some []
  | some numbers => Json.listOf? nat? numbers

/-- The primitives of a node and of what is at most so deep below it, a node before its children. -/
def primitivesBelow? (doc : Json) : Nat → Nat → Option (List Primitive)
  | 0, _ => none
  | depth + 1, i => do
    let node ← entryAt? "nodes" doc i
    let own ← ownPrimitives? doc node
    let below ← (← children? node).mapM (primitivesBelow? doc depth)
    return own ++ below.flatten

def scenePrimitives? (doc : Json) : Option (List Primitive) := do
  let nodes ← itemsMember? "nodes" doc
  let scene ← entryAt? "scenes" doc (← natMember? "scene" doc)
  let roots ← Json.listOf? nat? (← member? "nodes" scene)
  return (← roots.mapM (primitivesBelow? doc nodes.length)).flatten

def rangeAt? (doc : Json) (i : Nat) : Option (Json × Json) := do
  let accessor ← entryAt? "accessors" doc i
  return (← member? "min" accessor, ← member? "max" accessor)

def written (v : Vec3) : Json :=
  .array (v.toList.map fun x => .number (numberLayout.float (Number.widen x)))

/-- A primitive gives the geometry of a part and states its box. -/
structure Primitive.Shows (doc : Json) (buffer : List UInt8) (primitive : Primitive) (p : Part) :
    Prop where
  positions : vectorsAt? doc buffer primitive.positions = some p.mesh.positions
  normals : vectorsAt? doc buffer primitive.normals = some p.mesh.normals
  indices : numbersAt? doc buffer primitive.indices = some p.mesh.indices.toList
  range : ∃ box, p.mesh.bounds = some box ∧
    rangeAt? doc primitive.positions = some (written box.min, written box.max)

/-! ## What the writer puts there -/

theorem entryAt?_table {table : String} {doc : Json} {entries : Array α} {json : α → Json}
    (found : member? table doc = some (Gltf.table json entries)) (i : Nat) :
    entryAt? table doc i = entries[i]?.map json := by
  have items : itemsMember? table doc = some (entries.toList.map json) := by
    rw [itemsMember?, found]
    rfl
  simp [entryAt?, items]

theorem mapM_eq_some {f : α → Option β} {l : List α} {r : List β}
    (each : List.Forall₂ (fun x y => f x = some y) l r) : l.mapM f = some r := by
  induction each with
  | nil => rfl
  | cons first _ ih => simp [List.mapM_cons, first, ih]

theorem mapM_map_read {read : β → Option γ} {write : α → β} {f : α → γ}
    (reads : ∀ x, read (write x) = some (f x)) (l : List α) :
    (l.map write).mapM read = some (l.map f) := by
  apply mapM_eq_some
  rw [List.forall₂_map_left_iff, List.forall₂_map_right_iff]
  exact List.forall₂_same.mpr fun x _ => reads x

theorem mapM_map_inverse {read : β → Option α} {write : α → β}
    (inverse : ∀ x, read (write x) = some x) (l : List α) :
    (l.map write).mapM read = some l := by
  have all := mapM_map_read (f := id) inverse l
  rwa [List.map_id] at all

theorem single_of_isFinite {x : Float32} (finite : x.isFinite) :
    single x = .number (numberLayout.float (Number.widen x)) := by
  rw [single, number, if_pos (Number.widen_isFinite finite)]

theorem vector_of_isFinite {v : Vec3} (finite : v.isFinite) : vector v = written v := by
  simp only [Vec3.isFinite, Bool.and_eq_true] at finite
  simp only [vector, written, Vec3.toList, List.map_cons, List.map_nil,
    single_of_isFinite finite.1.1, single_of_isFinite finite.1.2, single_of_isFinite finite.2]

theorem target?_code (t : Target) : target? t.code = some t := by
  cases t <;> rfl

theorem view?_json (v : View) : view? v.json = some v := by
  have buffer : natMember? "buffer" v.json = nat? (.nat 0) := rfl
  have offset : natMember? "byteOffset" v.json = nat? (.nat v.offset) := rfl
  have length : natMember? "byteLength" v.json = nat? (.nat v.length) := rfl
  have target : natMember? "target" v.json = nat? (.nat v.target.code) := rfl
  simp [view?, buffer, offset, length, target, nat?_nat, target?_code]

theorem describes_json (a : Accessor) : describes a.elements a.json := by
  have component : natMember? "componentType" a.json = nat? (.nat a.elements.componentCode) := by
    cases h : a.range <;> rfl
  have shape : member? "type" a.json = some (.text a.elements.shape) := by
    rcases a with ⟨view, elements, count, _ | range⟩ <;> rfl
  rw [describes, component, shape, nat?_nat]
  cases a.elements <;> rfl

/-! ## Tables of a document -/

section Tables

variable (d : Document) (name : String) (roots : List Nat)

theorem entryAt?_views (i : Nat) :
    entryAt? "bufferViews" (d.json name roots) i = d.views[i]?.map View.json :=
  entryAt?_table rfl i

theorem entryAt?_accessors (i : Nat) :
    entryAt? "accessors" (d.json name roots) i = d.accessors[i]?.map Accessor.json :=
  entryAt?_table rfl i

theorem entryAt?_meshes (i : Nat) :
    entryAt? "meshes" (d.json name roots) i = d.meshes[i]?.map MeshEntry.json :=
  entryAt?_table rfl i

theorem entryAt?_nodes (i : Nat) :
    entryAt? "nodes" (d.json name roots) i = d.nodes[i]?.map NodeEntry.json :=
  entryAt?_table rfl i

theorem views?_json : views? (d.json name roots) = some d.views.toList := by
  have items : itemsMember? "bufferViews" (d.json name roots) =
    some (d.views.toList.map View.json) := rfl
  rw [views?, items]
  exact mapM_map_inverse view?_json d.views.toList

def Document.Stores (i : Nat) (bytes : List UInt8) : Prop :=
  ∃ v, d.views[i]? = some v ∧ v.length = bytes.length ∧
    v.offset + v.length ≤ d.buffer.data.toList.length ∧
    (d.buffer.data.toList.drop v.offset).take v.length = bytes

theorem elementBytes?_json {i : Nat} {a : Accessor} {bytes : List UInt8}
    (accessor : d.accessors[i]? = some a) (stored : d.Stores a.view bytes)
    (whole : bytes.length = a.count * a.elements.size) :
    elementBytes? a.elements (d.json name roots) d.buffer.data.toList i = some bytes := by
  have count : natMember? "count" a.json = nat? (.nat a.count) := by
    cases h : a.range <;> rfl
  have number : natMember? "bufferView" a.json = nat? (.nat a.view) := by
    cases h : a.range <;> rfl
  obtain ⟨v, view, length, fits, rfl⟩ := stored
  simp only [elementBytes?, entryAt?_accessors, accessor, entryAt?_views, view, count, number,
    nat?_nat, view?_json, Option.bind_eq_bind, Option.bind_some, Option.map_some]
  exact if_pos ⟨describes_json a, length.trans whole, fits⟩

theorem vectorsAt?_json {i v : Nat} {vectors : List Vec3} {range : Option (Vec3 × Vec3)}
    (accessor : d.accessors[i]? = some ⟨v, .vectors, vectors.length, range⟩)
    (stored : d.Stores v ((vectors.flatMap vectorWords).flatMap splitWord)) :
    vectorsAt? (d.json name roots) d.buffer.data.toList i = some vectors := by
  have bytes := elementBytes?_json d name roots accessor stored (length_vectorBytes vectors)
  change elementBytes? .vectors _ _ _ = _ at bytes
  simp only [vectorsAt?, bytes, Option.bind_eq_bind, Option.bind_some, words?_flatMap_splitWord,
    vectors?_flatMap_vectorWords]

theorem numbersAt?_json {i v : Nat} {numbers : List UInt32}
    (accessor : d.accessors[i]? = some ⟨v, .numbers, numbers.length, none⟩)
    (stored : d.Stores v (numbers.flatMap splitWord)) :
    numbersAt? (d.json name roots) d.buffer.data.toList i = some numbers := by
  have bytes := elementBytes?_json d name roots accessor stored
    ((length_flatMap_splitWord numbers).trans (Nat.mul_comm _ _))
  change elementBytes? .numbers _ _ _ = _ at bytes
  simp only [numbersAt?, bytes, Option.bind_eq_bind, Option.bind_some, words?_flatMap_splitWord]

theorem rangeAt?_json {i : Nat} {a : Accessor} {least greatest : Vec3}
    (accessor : d.accessors[i]? = some a) (range : a.range = some (least, greatest))
    (finite : least.isFinite ∧ greatest.isFinite) :
    rangeAt? (d.json name roots) i = some (written least, written greatest) := by
  obtain ⟨view, elements, count, _⟩ := a
  subst range
  rw [rangeAt?, entryAt?_accessors, accessor, ← vector_of_isFinite finite.1,
    ← vector_of_isFinite finite.2]
  rfl

theorem primitive?_json (p : Primitive) : primitive? p.json = some p := by
  have attributes : member? "attributes" p.json =
    some (object [("NORMAL", .nat p.normals), ("POSITION", .nat p.positions)]) := rfl
  have positions : natMember? "POSITION" (object [("NORMAL", .nat p.normals),
    ("POSITION", .nat p.positions)]) = nat? (.nat p.positions) := rfl
  have normals : natMember? "NORMAL" (object [("NORMAL", .nat p.normals),
    ("POSITION", .nat p.positions)]) = nat? (.nat p.normals) := rfl
  have indices : natMember? "indices" p.json = nat? (.nat p.indices) := rfl
  have material : natMember? "material" p.json = nat? (.nat p.material) := rfl
  simp [primitive?, attributes, positions, normals, indices, material, nat?_nat]

theorem member?_children (n : NodeEntry) :
    member? "children" n.json =
      if n.children.isEmpty then none else some (.array (n.children.map .nat)) := by
  obtain ⟨_, _, _, _, mesh, children⟩ := n
  cases mesh <;> cases children <;> rfl

theorem member?_mesh (n : NodeEntry) : member? "mesh" n.json = n.mesh.map .nat := by
  obtain ⟨_, _, _, _, mesh, children⟩ := n
  cases mesh <;> cases children <;> rfl

theorem children?_json (n : NodeEntry) : children? n.json = some n.children := by
  rw [children?, member?_children]
  cases n.children with
  | nil => rfl
  | cons first rest => exact mapM_map_inverse nat?_nat (first :: rest)

theorem ownPrimitives?_of_none {n : NodeEntry} (absent : n.mesh = none) :
    ownPrimitives? (d.json name roots) n.json = some [] := by
  rw [ownPrimitives?, member?_mesh, absent]
  rfl

theorem ownPrimitives?_of_some {n : NodeEntry} {i : Nat} {m : MeshEntry} (present : n.mesh = some i)
    (found : d.meshes[i]? = some m) :
    ownPrimitives? (d.json name roots) n.json = some m.primitives := by
  have items : itemsMember? "primitives" m.json = some (m.primitives.map Primitive.json) := rfl
  have all := mapM_map_inverse primitive?_json m.primitives
  rw [ownPrimitives?, member?_mesh, present]
  simp only [Option.map_some, nat?_nat, entryAt?_meshes, found, items, Option.bind_eq_bind,
    Option.bind_some, all]

end Tables

end SceneScript.Gltf
