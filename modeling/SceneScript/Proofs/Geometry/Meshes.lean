import Mathlib.Algebra.BigOperators.Group.List.Basic
import SceneScript.Geometry.Mesh
import SceneScript.Geometry.Primitive

/-!
# Meshes

A coloured mesh has one colour at every vertex and is otherwise the same mesh. The number of
vertices that is predicted for a primitive is the number that it gets, counted in 32 bits. It is the
number itself for all primitives if they have no more than 92680 divisions
(`Primitive.countsFit_iff`).
-/

namespace SceneScript

/-! ## Colours -/

namespace Mesh

variable (m : Mesh) (c : Vec3) {i k : Nat}

theorem indices_withColor : (m.withColor c).indices = m.indices := rfl

theorem vertexCount_withColor : (m.withColor c).vertexCount = m.vertexCount := by
  simp [vertexCount, withColor]

theorem getD_withColor (vertex : i < m.vertexCount) (entry : k < vertexSize) :
    (m.withColor c).buffer.getD (vertexSize * i + k) 0 =
      if k = 6 then c.x else if k = 7 then c.y else if k = 8 then c.z
      else m.buffer.getD (vertexSize * i + k) 0 := by
  have last : vertexSize * (i + 1) ≤ vertexSize * m.vertexCount := Nat.mul_le_mul_left _ vertex
  have whole : vertexSize * m.vertexCount ≤ m.buffer.size := Nat.mul_div_le _ _
  have colored : vertexSize * i + k < vertexSize * m.vertexCount := by
    rw [Nat.mul_succ] at last
    omega
  have within : vertexSize * i + k < m.buffer.size := Nat.lt_of_lt_of_le colored whole
  have offset : (vertexSize * i + k) % vertexSize = k := by
    rw [Nat.mul_add_mod, Nat.mod_eq_of_lt entry]
  simp only [withColor, Array.getD_eq_getD_getElem?, Array.getElem?_mapIdx,
    Array.getElem?_eq_getElem within, Option.map_some, Option.getD_some, if_pos colored, offset]
  split <;> simp_all

theorem triple_withColor (vertex : i < m.vertexCount) (plain : k + 2 < 6) :
    (m.withColor c).triple (vertexSize * i + k) = m.triple (vertexSize * i + k) := by
  have first := m.getD_withColor c vertex (k := k) (by simp [vertexSize]; omega)
  have second := m.getD_withColor c vertex (k := k + 1) (by simp [vertexSize]; omega)
  have third := m.getD_withColor c vertex (k := k + 2) (by simp [vertexSize]; omega)
  rw [if_neg (by omega), if_neg (by omega), if_neg (by omega)] at first second third
  rw [triple, triple, Nat.add_assoc, Nat.add_assoc, first, second, third]

theorem positions_withColor : (m.withColor c).positions = m.positions := by
  rw [positions, positions, vertexCount_withColor]
  apply List.map_congr_left
  intro i mem
  exact m.triple_withColor c (List.mem_range.1 mem) (k := 0) (by decide)

theorem normals_withColor : (m.withColor c).normals = m.normals := by
  rw [normals, normals, vertexCount_withColor]
  apply List.map_congr_left
  intro i mem
  exact m.triple_withColor c (List.mem_range.1 mem) (k := 3) (by decide)

theorem color_withColor (vertex : i < m.vertexCount) : (m.withColor c).color i = c := by
  have red := m.getD_withColor c vertex (k := 6) (by decide)
  have green := m.getD_withColor c vertex (k := 7) (by decide)
  have blue := m.getD_withColor c vertex (k := 8) (by decide)
  rw [color, triple, Nat.add_assoc, Nat.add_assoc, red, green, blue]
  rfl

theorem colors_withColor : (m.withColor c).colors = List.replicate m.vertexCount c := by
  have each : ∀ i ∈ List.range m.vertexCount, (m.withColor c).color i = c := by
    intro i mem
    exact m.color_withColor c (List.mem_range.1 mem)
  rw [colors, vertexCount_withColor, List.map_congr_left each, List.map_const', List.length_range]

end Mesh

/-! ## Counting vertices -/

theorem Mesh.size_ofVertices (vertices : List Vertex) (indices : List UInt32) :
    (ofVertices vertices indices).buffer.size = vertexSize * vertices.length := by
  have nine : ∀ v ∈ vertices, v.toList.length = 9 := fun v _ => rfl
  rw [ofVertices, List.size_toArray, List.length_flatMap, List.map_congr_left nine]
  simp [vertexSize, Nat.mul_comm]

theorem Mesh.vertexCount_ofVertices (vertices : List Vertex) (indices : List UInt32) :
    (ofVertices vertices indices).vertexCount = vertices.length := by
  rw [vertexCount, size_ofVertices]
  exact Nat.mul_div_cancel_left _ (by decide)

namespace Primitive

/-- The meshes of primitives with up to the given number of divisions, each with the number of
vertices that is predicted for it. -/
inductive Sized (divisions : Nat) : Mesh → Nat → Prop
  | box (width height depth : Float32) (color : Vec3) :
      Sized divisions (box width height depth color) boxVertices
  | plane (width depth : Float32) (color : Vec3) :
      Sized divisions (plane width depth color) planeVertices
  | sphere (radius : Float32) {n : Nat} (color : Vec3) : 3 ≤ n → n ≤ divisions →
      Sized divisions (sphere radius (.ofNat n) color) (sphereVertices (.ofNat n))
  | cylinder (radius height : Float32) {n : Nat} (color : Vec3) : 3 ≤ n → n ≤ divisions →
      Sized divisions (cylinder radius height (.ofNat n) color) (cylinderVertices (.ofNat n))
  | cone (radius height : Float32) {n : Nat} (color : Vec3) : 3 ≤ n → n ≤ divisions →
      Sized divisions (cone radius height (.ofNat n) color) (coneVertices (.ofNat n))

def CountsFit (divisions : Nat) : Prop :=
  ∀ n, 3 ≤ n → n ≤ divisions →
    (max (n / 2) 2 + 1) * (n + 1) < 2 ^ 32 ∧ 4 * n + 2 * (n + 1) < 2 ^ 32 ∧
      3 * n + n + 1 < 2 ^ 32

theorem CountsFit.of_small {divisions : Nat} (small : divisions ≤ 92680) : CountsFit divisions := by
  intro n _ most
  have rings : max (n / 2) 2 + 1 ≤ 46341 := by omega
  have sectors : n + 1 ≤ 92681 := by omega
  have product := Nat.mul_le_mul rings sectors
  exact ⟨by omega, by omega, by omega⟩

theorem countsFit_iff {divisions : Nat} : CountsFit divisions ↔ divisions ≤ 92680 := by
  refine ⟨fun fit => ?_, .of_small⟩
  by_contra many
  obtain ⟨sphere, -⟩ := fit 92681 (by decide) (by omega)
  revert sphere
  decide

/-! ## Predictions -/

variable {n : Nat}

theorem toNat_sphereRings (small : n < 2 ^ 32) :
    (sphereRings (.ofNat n)).toNat = max (n / 2) 2 := by
  have half : (UInt32.ofNat n / 2).toNat = n / 2 := by
    rw [UInt32.toNat_div, UInt32.toNat_ofNat_of_lt' small]
    rfl
  change (if UInt32.ofNat n / 2 ≤ 2 then 2 else UInt32.ofNat n / 2).toNat = _
  have few : UInt32.ofNat n / 2 ≤ 2 ↔ n / 2 ≤ 2 := by
    rw [UInt32.le_iff_toNat_le, half]
    rfl
  rw [Nat.max_def]
  by_cases isFew : n / 2 ≤ 2
  · rw [if_pos (few.2 isFew), if_pos isFew]
    rfl
  · rw [if_neg (isFew ∘ few.1), if_neg isFew, half]

theorem sphereVertices_mod (divisions : UInt32) : sphereVertices divisions =
    ((sphereRings divisions).toNat + 1) * (divisions.toNat + 1) % 2 ^ 32 := by
  rw [sphereVertices, UInt32.toNat_mul, UInt32.toNat_add, UInt32.toNat_add]
  exact (Nat.mul_mod _ _ _).symm

theorem cylinderVertices_mod (sectors : UInt32) : cylinderVertices sectors =
    (4 * sectors.toNat + 2 * (sectors.toNat + 1)) % 2 ^ 32 := by
  simp only [cylinderVertices, UInt32.toNat_add, UInt32.toNat_mul]
  change (4 * sectors.toNat % 2 ^ 32 + 2 * ((sectors.toNat + 1) % 2 ^ 32) % 2 ^ 32) % 2 ^ 32 = _
  omega

theorem coneVertices_mod (sectors : UInt32) : coneVertices sectors =
    (3 * sectors.toNat + sectors.toNat + 1) % 2 ^ 32 := by
  simp only [coneVertices, UInt32.toNat_add, UInt32.toNat_mul]
  change ((3 * sectors.toNat % 2 ^ 32 + sectors.toNat) % 2 ^ 32 + 1) % 2 ^ 32 = _
  omega

theorem sphereVertices_eq (fits : (max (n / 2) 2 + 1) * (n + 1) < 2 ^ 32) :
    sphereVertices (.ofNat n) = (max (n / 2) 2 + 1) * (n + 1) := by
  have small : n + 1 < 2 ^ 32 := Nat.lt_of_le_of_lt (Nat.le_mul_of_pos_left _ (by omega)) fits
  rw [sphereVertices_mod, toNat_sphereRings (Nat.lt_of_succ_lt small),
    UInt32.toNat_ofNat_of_lt' (Nat.lt_of_succ_lt small), Nat.mod_eq_of_lt fits]

theorem cylinderVertices_eq (fits : 4 * n + 2 * (n + 1) < 2 ^ 32) :
    cylinderVertices (.ofNat n) = 4 * n + 2 * (n + 1) := by
  rw [cylinderVertices_mod, UInt32.toNat_ofNat_of_lt' (show n < 2 ^ 32 by omega),
    Nat.mod_eq_of_lt fits]

theorem coneVertices_eq (fits : 3 * n + n + 1 < 2 ^ 32) :
    coneVertices (.ofNat n) = 3 * n + n + 1 := by
  rw [coneVertices_mod, UInt32.toNat_ofNat_of_lt' (show n < 2 ^ 32 by omega),
    Nat.mod_eq_of_lt fits]

/-! ## Meshes -/

theorem length_flatMap_range {α : Type} {k : Nat} {f : Nat → List α}
    (each : ∀ i, (f i).length = k) (n : Nat) : ((List.range n).flatMap f).length = k * n := by
  rw [List.length_flatMap, List.map_congr_left fun i _ => each i]
  simp [Nat.mul_comm]

theorem length_discVertices (radius y : Float32) (sectors : Nat) (normal color : Vec3) :
    (discVertices radius y sectors normal color).length = sectors + 1 := by
  simp [discVertices]

theorem vertexCount_box (width height depth : Float32) (color : Vec3) :
    (box width height depth color).vertexCount = boxVertices :=
  Mesh.vertexCount_ofVertices _ _

theorem vertexCount_plane (width depth : Float32) (color : Vec3) :
    (plane width depth color).vertexCount = planeVertices :=
  Mesh.vertexCount_ofVertices _ _

theorem vertexCount_sphere (radius : Float32) (color : Vec3) (divisions : UInt32) :
    (sphere radius divisions color).vertexCount =
      ((sphereRings divisions).toNat + 1) * (divisions.toNat + 1) := by
  rw [sphere, Mesh.vertexCount_ofVertices, length_flatMap_range (fun r => by simp; rfl),
    Nat.mul_comm]

theorem vertexCount_cylinder (radius height : Float32) (color : Vec3) (sectors : UInt32) :
    (cylinder radius height sectors color).vertexCount =
      4 * sectors.toNat + 2 * (sectors.toNat + 1) := by
  simp only [cylinder, Mesh.vertexCount_ofVertices, List.length_append, length_discVertices]
  rw [length_flatMap_range (k := 4) fun i => rfl]
  omega

theorem vertexCount_cone (radius height : Float32) (color : Vec3) (sectors : UInt32) :
    (cone radius height sectors color).vertexCount = 3 * sectors.toNat + sectors.toNat + 1 := by
  simp only [cone, Mesh.vertexCount_ofVertices, List.length_append, length_discVertices]
  rw [length_flatMap_range (k := 3) fun i => rfl]
  rfl

namespace Sized

variable {divisions count : Nat} {mesh : Mesh}

theorem remainder (sized : Sized divisions mesh count) : count = mesh.vertexCount % 2 ^ 32 := by
  cases sized with
  | box =>
    rw [vertexCount_box]
    rfl
  | plane =>
    rw [vertexCount_plane]
    rfl
  | sphere =>
    rw [vertexCount_sphere]
    exact sphereVertices_mod _
  | cylinder =>
    rw [vertexCount_cylinder]
    exact cylinderVertices_mod _
  | cone =>
    rw [vertexCount_cone]
    exact coneVertices_mod _

theorem fits (sized : Sized divisions mesh count) (fit : CountsFit divisions) :
    mesh.vertexCount < 2 ^ 32 := by
  cases sized with
  | box =>
    rw [vertexCount_box]
    decide
  | plane =>
    rw [vertexCount_plane]
    decide
  | @sphere radius n color least most =>
    obtain ⟨fits, _, small⟩ := fit n least most
    rwa [vertexCount_sphere, toNat_sphereRings (by omega),
      UInt32.toNat_ofNat_of_lt' (show n < 2 ^ 32 by omega)]
  | @cylinder radius height n color least most =>
    obtain ⟨-, fits, _⟩ := fit n least most
    rwa [vertexCount_cylinder, UInt32.toNat_ofNat_of_lt' (show n < 2 ^ 32 by omega)]
  | @cone radius height n color least most =>
    obtain ⟨-, -, fits⟩ := fit n least most
    rwa [vertexCount_cone, UInt32.toNat_ofNat_of_lt' (show n < 2 ^ 32 by omega)]

theorem vertexCount (sized : Sized divisions mesh count) (fit : CountsFit divisions) :
    count = mesh.vertexCount := by
  rw [sized.remainder]
  exact Nat.mod_eq_of_lt (sized.fits fit)

end Sized

end Primitive

end SceneScript
