import SceneScript.Proofs.Geometry.Circles
import SceneScript.Proofs.Geometry.Normals
import SceneScript.Proofs.PrimitiveMeshes

/-!
# Drawn shapes

The meshes of the primitives with any cosine and sine. Nothing is wrong with such a mesh if its
vertices are counted in 32 bits and each of them is sound (`Shape.issues_eq_nil_iff`). Which
vertices are the corners of triangles does not depend on where they are.
-/

namespace SceneScript

open Number

/-! ## Sound vertices -/

structure Vertex.Sound (v : Vertex) : Prop where
  position : v.position.isFinite
  normal : v.normal.isFinite
  unit : v.normal.IsUnit
  color : v.color.isFinite

namespace Mesh

theorem issues_eq_nil_iff (m : Mesh) : m.issues = [] ↔ m.hasWholeVertices ∧ m.hasWholeTriangles ∧
    m.indicesInRange ∧ m.isFinite ∧ (0 < m.vertexCount → m.normalsNormalized 0.1) := by
  simp [issues]

variable (vertices : List Vertex) (indices : List UInt32)

theorem getElem?_toList {i k : ℕ} (entry : k < 9) :
    (vertices.flatMap Vertex.toList)[9 * i + k]? = vertices[i]?.bind (·.toList[k]?) := by
  induction vertices generalizing i with
  | nil => simp
  | cons v vertices ih =>
    have nine : v.toList.length = 9 := rfl
    rw [List.flatMap_cons]
    cases i with
    | zero => rw [List.getElem?_append_left (by omega)]; simp
    | succ i =>
      rw [List.getElem?_append_right (by omega), nine]
      have place : 9 * (i + 1) + k - 9 = 9 * i + k := by omega
      rw [place, ih]
      simp

theorem normals_ofVertices :
    (ofVertices vertices indices).normals = vertices.map Vertex.normal := by
  apply List.ext_getElem
  · simp [normals, vertexCount_ofVertices]
  · intro i _ within
    have within : i < vertices.length := by simpa using within
    have entry {k : ℕ} (entry : k < 9) :
        (ofVertices vertices indices).buffer[9 * i + k]? = vertices[i].toList[k]? := by
      rw [ofVertices, List.getElem?_toArray, getElem?_toList vertices entry,
        List.getElem?_eq_getElem within]
      rfl
    simp [normals, normal, triple, vertexSize, Array.getD_eq_getD_getElem?, Nat.add_assoc, entry,
      Vertex.toList, Vec3.toList]

theorem isFinite_ofVertices : (ofVertices vertices indices).isFinite ↔
    ∀ v ∈ vertices, v.position.isFinite ∧ v.normal.isFinite ∧ v.color.isFinite := by
  simp [isFinite, ofVertices, Vertex.toList, Vec3.toList, Vec3.isFinite, forall_and, and_assoc]

theorem sound_ofVertices :
    (ofVertices vertices indices).isFinite ∧ (0 < (ofVertices vertices indices).vertexCount →
      (ofVertices vertices indices).normalsNormalized 0.1) ↔ ∀ v ∈ vertices, v.Sound := by
  have unit : (0 < (ofVertices vertices indices).vertexCount →
      (ofVertices vertices indices).normalsNormalized 0.1) ↔ ∀ v ∈ vertices, v.normal.IsUnit := by
    rw [vertexCount_ofVertices, normalsNormalized, normals_ofVertices]
    cases vertices with
    | nil => simp
    | cons v vertices => simp [Vec3.IsUnit]
  rw [isFinite_ofVertices, unit]
  constructor
  · rintro ⟨finite, unit⟩ v mem
    obtain ⟨position, normal, color⟩ := finite v mem
    exact ⟨position, normal, unit v mem, color⟩
  · intro sound
    exact ⟨fun v mem => ⟨(sound v mem).position, (sound v mem).normal, (sound v mem).color⟩,
      fun v mem => (sound v mem).unit⟩

end Mesh

/-! ## Shapes -/

namespace Trigonometry

variable (t : Trigonometry)

def discVertices (radius y : Float32) (sectors : Nat) (normal color : Vec3) : List Vertex :=
  ⟨⟨0, y, 0⟩, normal, color⟩ ::
    (List.range sectors).map fun i =>
      let (c, s) := t.circlePoint i sectors
      ⟨⟨radius * c, y, radius * s⟩, normal, color⟩

def cylinderSide (radius y : Float32) (sectors : Nat) (color : Vec3) (i : Nat) : List Vertex :=
  let (c₀, s₀) := t.circlePoint i sectors
  let (c₁, s₁) := t.circlePoint (i + 1) sectors
  let n₀ : Vec3 := ⟨c₀, 0, s₀⟩
  let n₁ : Vec3 := ⟨c₁, 0, s₁⟩
  [ ⟨⟨radius * c₀, -y, radius * s₀⟩, n₀, color⟩, ⟨⟨radius * c₁, -y, radius * s₁⟩, n₁, color⟩,
    ⟨⟨radius * c₁, y, radius * s₁⟩, n₁, color⟩, ⟨⟨radius * c₀, y, radius * s₀⟩, n₀, color⟩ ]

def sphereNormal (rings sectors r s : Nat) : Vec3 :=
  let phi := Primitive.pi * Primitive.ofIndex r / Primitive.ofIndex rings
  let theta := Primitive.tau * Primitive.ofIndex s / Primitive.ofIndex sectors
  ⟨t.sin phi * t.cos theta, t.cos phi, t.sin phi * t.sin theta⟩

def sphereVertex (radius : Float32) (rings sectors : Nat) (color : Vec3) (r s : Nat) : Vertex :=
  let n := t.sphereNormal rings sectors r s
  ⟨n.scale radius, n, color⟩

def coneSide (radius height y : Float32) (sectors : Nat) (color : Vec3) (i : Nat) :
    List Vertex :=
  let slope := radius / height
  let (c₀, s₀) := t.circlePoint i sectors
  let (c₁, s₁) := t.circlePoint (i + 1) sectors
  let n₀ := Vec3.normalize ⟨c₀, slope, s₀⟩
  let n₁ := Vec3.normalize ⟨c₁, slope, s₁⟩
  [ ⟨⟨0, y, 0⟩, (n₀.add n₁).normalize, color⟩,
    ⟨⟨radius * c₀, -y, radius * s₀⟩, n₀, color⟩,
    ⟨⟨radius * c₁, -y, radius * s₁⟩, n₁, color⟩ ]

end Trigonometry

inductive Shape where
  | box (width height depth : Float32)
  | plane (width depth : Float32)
  | sphere (radius : Float32) (divisions : UInt32)
  | cylinder (radius height : Float32) (sectors : UInt32)
  | cone (radius height : Float32) (sectors : UInt32)

namespace Shape

open Primitive (axisY negAxisY)

def sizes : Shape → List Float32
  | box width height depth => [width, height, depth]
  | plane width depth => [width, depth]
  | sphere radius _ => [radius]
  | cylinder radius height _ => [radius, height]
  | cone radius height _ => [radius, height]

def Divided : Shape → Prop
  | box .. | plane .. => True
  | sphere _ n | cylinder _ _ n | cone _ _ n => 3 ≤ n.toNat

def drawn (color : Vec3) : Shape → Mesh
  | box width height depth => Primitive.box width height depth color
  | plane width depth => Primitive.plane width depth color
  | sphere radius divisions => Primitive.sphere radius divisions color
  | cylinder radius height sectors => Primitive.cylinder radius height sectors color
  | cone radius height sectors => Primitive.cone radius height sectors color

def vertices (t : Trigonometry) (color : Vec3) : Shape → List Vertex
  | box width height depth =>
    (Primitive.boxSides (width * 0.5) (height * 0.5) (depth * 0.5)).flatMap
      fun (corners, normal) => corners.map fun p => ⟨p, normal, color⟩
  | plane width depth =>
    let x := width * 0.5
    let z := depth * 0.5
    [⟨-x, 0, z⟩, ⟨x, 0, z⟩, ⟨x, 0, -z⟩, ⟨-x, 0, -z⟩].map fun p => ⟨p, axisY, color⟩
  | sphere radius divisions =>
    let rings := (Primitive.sphereRings divisions).toNat
    (List.range (rings + 1)).flatMap fun r =>
      (List.range (divisions.toNat + 1)).map (t.sphereVertex radius rings divisions.toNat color r)
  | cylinder radius height sectors =>
    let n := sectors.toNat
    let y := height * 0.5
    (List.range n).flatMap (t.cylinderSide radius y n color) ++
      t.discVertices radius y n axisY color ++ t.discVertices radius (-y) n negAxisY color
  | cone radius height sectors =>
    let n := sectors.toNat
    let y := height * 0.5
    (List.range n).flatMap (t.coneSide radius height y n color) ++
      t.discVertices radius (-y) n negAxisY color

variable (t : Trigonometry) (color : Vec3) (shape : Shape)

def mesh : Mesh :=
  .ofVertices (shape.vertices t color) (shape.drawn color).indices.toList

theorem mesh_platform : shape.mesh .platform color = shape.drawn color := by
  cases shape <;> rfl

theorem length_vertices : (shape.vertices t color).length = (shape.drawn color).vertexCount := by
  rw [← mesh_platform, mesh, Mesh.vertexCount_ofVertices]
  cases shape with
  | box | plane => rfl
  | sphere => simp [vertices]
  | cylinder => simp [vertices, Trigonometry.discVertices, Trigonometry.cylinderSide]
  | cone => simp [vertices, Trigonometry.discVertices, Trigonometry.coneSide]

theorem vertexCount_mesh : (shape.mesh t color).vertexCount = (shape.drawn color).vertexCount := by
  rw [mesh, Mesh.vertexCount_ofVertices, length_vertices]

theorem formed {shape : Shape} (divided : shape.Divided)
    (fits : (shape.drawn color).vertexCount < 2 ^ 32) :
    ∃ vertices entries, (shape.drawn color).Formed vertices entries := by
  cases shape with
  | box width height depth => exact ⟨_, _, Primitive.formed_box width height depth color⟩
  | plane width depth => exact ⟨_, _, Primitive.formed_plane width depth color⟩
  | sphere radius n =>
    have small := n.toNat_lt
    have whole := UInt32.ofNat_toNat (x := n)
    rw [drawn, Primitive.vertexCount_sphere] at fits
    rw [← whole, Primitive.toNat_sphereRings small, UInt32.toNat_ofNat_of_lt' small] at fits
    have := Primitive.formed_sphere radius color divided fits
    rw [whole] at this
    exact ⟨_, _, this⟩
  | cylinder radius height n =>
    rw [drawn, Primitive.vertexCount_cylinder] at fits
    have := Primitive.formed_cylinder radius height color divided fits
    rw [UInt32.ofNat_toNat] at this
    exact ⟨_, _, this⟩
  | cone radius height n =>
    rw [drawn, Primitive.vertexCount_cone] at fits
    have := Primitive.formed_cone radius height color divided fits
    rw [UInt32.ofNat_toNat] at this
    exact ⟨_, _, this⟩

/-! ## Buffers -/

theorem mem_sides {α : Type} {width n k : ℕ} {f : ℕ → List α} {g : ℕ → α}
    (within : k < width * n) (each : ∀ i j, j < width → g (width * i + j) ∈ f i) :
    g k ∈ (List.range n).flatMap f := by
  have some : 0 < width := Nat.pos_of_ne_zero fun none => by simp [none] at within
  apply List.mem_flatMap.2
  refine ⟨k / width, List.mem_range.2 (Nat.div_lt_of_lt_mul within), ?_⟩
  have mem := each (k / width) (k % width) (Nat.mod_lt k some)
  rwa [Nat.div_add_mod] at mem

theorem mem_disc {center n k : ℕ} {up : Bool} (least : center ≤ k) (most : k < center + (n + 1))
    (some : 0 < n) : UInt32.ofNat k ∈ Primitive.discIndices center n up := by
  apply Primitive.mem_discIndices.2
  by_cases first : k = center
  · exact ⟨0, some, .inl (by rw [first])⟩
  · refine ⟨k - (center + 1), by omega, .inr (.inl ?_)⟩
    congr 1
    omega

theorem mem_indices {shape : Shape} (divided : shape.Divided) {k : ℕ}
    (within : k < (shape.drawn color).vertexCount) :
    UInt32.ofNat k ∈ (shape.drawn color).indices.toList := by
  cases shape with
  | box width height depth =>
    rw [drawn, Primitive.vertexCount_box] at within
    exact (Primitive.formed_box width height depth color).covers.all k (Nat.zero_le k) within
  | plane width depth =>
    rw [drawn, Primitive.vertexCount_plane] at within
    exact (Primitive.formed_plane width depth color).covers.all k (Nat.zero_le k) within
  | sphere radius n =>
    have rings := Primitive.toNat_sphereRings n.toNat_lt
    rw [UInt32.ofNat_toNat] at rings
    rw [drawn, Primitive.vertexCount_sphere] at within
    exact Primitive.mem_sphereCells (by omega) (Nat.zero_lt_of_lt divided) within
  | cylinder radius height n =>
    rw [drawn, Primitive.vertexCount_cylinder] at within
    have some : 0 < n.toNat := Nat.zero_lt_of_lt divided
    have sides (i j : ℕ) (corner : j < 4) :
        UInt32.ofNat (4 * i + j) ∈ Primitive.cylinderSideIndices i :=
      List.mem_map_of_mem ((by decide : ∀ j < 4, j ∈ [0, 2, 1, 0, 3, 2]) j corner)
    apply List.mem_append.2
    -- The vertices of the sides come first, then those of the top, then those of the bottom.
    by_cases bottom : 4 * n.toNat + (n.toNat + 1) ≤ k
    · exact .inr (mem_disc bottom (by omega) some)
    · apply Or.inl
      apply List.mem_append.2
      by_cases top : 4 * n.toNat ≤ k
      · exact .inr (mem_disc top (by omega) some)
      · exact .inl (mem_sides (by omega) sides)
  | cone radius height n =>
    rw [drawn, Primitive.vertexCount_cone] at within
    have some : 0 < n.toNat := Nat.zero_lt_of_lt divided
    have sides (i j : ℕ) (corner : j < 3) :
        UInt32.ofNat (3 * i + j) ∈ Primitive.coneSideIndices i :=
      List.mem_map_of_mem ((by decide : ∀ j < 3, j ∈ [0, 2, 1]) j corner)
    apply List.mem_append.2
    by_cases bottom : 3 * n.toNat ≤ k
    · exact .inr (mem_disc bottom (by omega) some)
    · exact .inl (mem_sides (by omega) sides)

/-- The checks on the buffers pass if the vertices are counted in 32 bits. Where there are more of
them, the last number of 32 bits is an index, and it is not less than what is left of the count. -/
theorem buffers_iff {shape : Shape} (divided : shape.Divided) :
    ((shape.mesh t color).hasWholeVertices ∧ (shape.mesh t color).hasWholeTriangles ∧
      (shape.mesh t color).indicesInRange) ↔ (shape.drawn color).vertexCount < 2 ^ 32 := by
  constructor
  · rintro ⟨_, _, inRange⟩
    by_contra many
    have mem := mem_indices color divided (k := 2 ^ 32 - 1) (by omega)
    have below := Array.all_eq_true_iff_forall_mem.1 inRange _ (List.mem_toArray.2 mem)
    have below := UInt32.lt_iff_toNat_lt.1 (of_decide_eq_true below)
    have top := (shape.mesh t color).indexBound.toNat_lt
    change 2 ^ 32 - 1 < _ at below
    omega
  · intro fits
    obtain ⟨vertices, entries, formed⟩ := formed color divided fits
    have same : (shape.mesh t color).Formed vertices entries := by
      have counted := formed.vertexCount
      rw [← vertexCount_mesh t color shape] at counted
      exact .ofVertices counted formed.indexCount formed.whole formed.covers formed.fits
    exact ⟨same.hasWholeVertices, same.hasWholeTriangles, same.indicesInRange⟩

theorem issues_eq_nil_iff {shape : Shape} (divided : shape.Divided) :
    (shape.mesh t color).issues = [] ↔
      (shape.drawn color).vertexCount < 2 ^ 32 ∧ ∀ v ∈ shape.vertices t color, v.Sound := by
  rw [Mesh.issues_eq_nil_iff, ← buffers_iff t color divided, ← Mesh.sound_ofVertices _
    (shape.drawn color).indices.toList, mesh]
  tauto

end Shape

end SceneScript
