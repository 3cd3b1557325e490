import SceneScript.Geometry.Validation
import SceneScript.Proofs.Geometry.Meshes

/-!
# The meshes of primitives

The triangles of a primitive use just the vertices that are predicted for it, however it is divided
(`Primitive.Drawn.wellFormed`). The vertices of each part of a shape follow those of the parts
before it, and the indices of the part cover them (`Covers`).
-/

namespace SceneScript

/-! ## Covering vertices -/

structure Covers (first last : Nat) (indices : List UInt32) : Prop where
  within : ∀ i ∈ indices, first ≤ i.toNat ∧ i.toNat < last
  all : ∀ k, first ≤ k → k < last → UInt32.ofNat k ∈ indices

theorem within_ofNat {first last k : Nat} (least : first ≤ k) (most : k < last)
    (fits : last ≤ 2 ^ 32) :
    first ≤ (UInt32.ofNat k).toNat ∧ (UInt32.ofNat k).toNat < last := by
  rw [UInt32.toNat_ofNat_of_lt' (Nat.lt_of_lt_of_le most fits)]
  exact ⟨least, most⟩

namespace Covers

variable {first middle last : Nat} {indices more : List UInt32}

theorem append (covers : Covers first middle indices) (rest : Covers middle last more)
    (below : first ≤ middle) (above : middle ≤ last) : Covers first last (indices ++ more) where
  within i mem := by
    rcases List.mem_append.1 mem with mem | mem
    · have within := covers.within i mem
      omega
    · have within := rest.within i mem
      omega
  all k least most := by
    apply List.mem_append.2
    rcases Nat.lt_or_ge k middle with before | after
    · exact .inl (covers.all k least before)
    · exact .inr (rest.all k after most)

theorem blocks {width n : Nat} {block : Nat → List UInt32}
    (each : ∀ i < n, Covers (width * i) (width * (i + 1)) (block i)) :
    Covers 0 (width * n) ((List.range n).flatMap block) := by
  induction n with
  | zero => exact ⟨nofun, fun k _ most => absurd most (Nat.not_lt_zero k)⟩
  | succ n ih =>
    rw [List.range_succ, List.flatMap_append, List.flatMap_singleton]
    have before := ih fun i less => each i (Nat.lt_succ_of_lt less)
    apply before.append (each n (Nat.lt_succ_self n)) (Nat.zero_le _)
    exact Nat.mul_le_mul_left width (Nat.le_succ n)

theorem offsets {width : Nat} {offsets : List Nat} (inside : ∀ k ∈ offsets, k < width)
    (every : ∀ k < width, k ∈ offsets) (fits : first + width ≤ 2 ^ 32) :
    Covers first (first + width) (offsets.map fun k => UInt32.ofNat (first + k)) where
  within i mem := by
    obtain ⟨k, isOffset, rfl⟩ := List.mem_map.1 mem
    have less := inside k isOffset
    exact within_ofNat (by omega) (by omega) fits
  all k least most := by
    refine List.mem_map.2 ⟨k - first, every _ (by omega), ?_⟩
    rw [Nat.add_sub_cancel' least]

end Covers

namespace Primitive

variable {n center rings sectors : Nat}

theorem covers_quad {base : Nat} (fits : base + 4 ≤ 2 ^ 32) :
    Covers base (base + 4) (quadIndices base) :=
  .offsets (by decide) (by decide) fits

theorem covers_cylinderSides (fits : 4 * n ≤ 2 ^ 32) :
    Covers 0 (4 * n) ((List.range n).flatMap cylinderSideIndices) := by
  apply Covers.blocks
  intro i less
  exact .offsets (by decide) (by decide) (by omega)

theorem covers_coneSides (fits : 3 * n ≤ 2 ^ 32) :
    Covers 0 (3 * n) ((List.range n).flatMap coneSideIndices) := by
  apply Covers.blocks
  intro i less
  exact .offsets (by decide) (by decide) (by omega)

theorem mem_discIndices {up : Bool} {x : UInt32} : x ∈ discIndices center n up ↔
    ∃ i < n, x = .ofNat center ∨ x = .ofNat (center + 1 + i) ∨
      x = .ofNat (center + 1 + (i + 1) % n) := by
  cases up with
  | false => simp [discIndices]
  | true => simp [discIndices, or_comm]

theorem covers_disc (center : Nat) (up : Bool) (some : 0 < n)
    (fits : center + (n + 1) ≤ 2 ^ 32) :
    Covers center (center + (n + 1)) (discIndices center n up) where
  within x mem := by
    obtain ⟨i, less, is⟩ := mem_discIndices.1 mem
    have next : (i + 1) % n < n := Nat.mod_lt _ some
    rcases is with rfl | rfl | rfl
    · exact within_ofNat (by omega) (by omega) fits
    · exact within_ofNat (by omega) (by omega) fits
    · exact within_ofNat (by omega) (by omega) fits
  all k least most := by
    apply mem_discIndices.2
    rcases Nat.eq_or_lt_of_le least with rfl | above
    · exact ⟨0, some, .inl rfl⟩
    · obtain ⟨i, rfl⟩ := Nat.exists_eq_add_of_le above
      exact ⟨i, by omega, .inr (.inl rfl)⟩

theorem mem_sphereCell {r s : Nat} {x : UInt32} : x ∈ sphereCell sectors r s ↔
    x = .ofNat (r * (sectors + 1) + s) ∨ x = .ofNat (r * (sectors + 1) + (s + 1)) ∨
      x = .ofNat ((r + 1) * (sectors + 1) + s) ∨
      x = .ofNat ((r + 1) * (sectors + 1) + (s + 1)) := by
  have below : (r + 1) * (sectors + 1) + s = r * (sectors + 1) + s + sectors + 1 := by
    rw [Nat.succ_mul]
    omega
  rw [← Nat.add_assoc, ← Nat.add_assoc ((r + 1) * _), below]
  simp only [sphereCell, List.map_cons, List.map_nil, List.mem_cons, List.not_mem_nil]
  grind

theorem grid_lt {row column : Nat} (ofRow : row ≤ rings) (ofColumn : column ≤ sectors) :
    row * (sectors + 1) + column < (rings + 1) * (sectors + 1) := by
  have rows := Nat.mul_le_mul_right (sectors + 1) ofRow
  rw [Nat.succ_mul]
  omega

theorem mem_sphereCells (rows : 0 < rings) (columns : 0 < sectors) {k : Nat}
    (most : k < (rings + 1) * (sectors + 1)) :
    UInt32.ofNat k ∈ (List.range rings).flatMap fun r =>
      (List.range sectors).flatMap (sphereCell sectors r) := by
  have inCell {r s : Nat} (row : r < rings) (column : s < sectors)
      (corner : UInt32.ofNat k ∈ sphereCell sectors r s) :
      UInt32.ofNat k ∈ (List.range rings).flatMap fun r =>
        (List.range sectors).flatMap (sphereCell sectors r) :=
    List.mem_flatMap.2 ⟨r, List.mem_range.2 row,
      List.mem_flatMap.2 ⟨s, List.mem_range.2 column, corner⟩⟩
  have whole : k / (sectors + 1) * (sectors + 1) + k % (sectors + 1) = k := Nat.div_add_mod' _ _
  have row : k / (sectors + 1) < rings + 1 := Nat.div_lt_of_lt_mul (Nat.mul_comm _ _ ▸ most)
  have column : k % (sectors + 1) < sectors + 1 := Nat.mod_lt _ (Nat.succ_pos _)
  -- A vertex in the last row or column is a corner of the cells before it only.
  generalize k / (sectors + 1) = r at whole row
  generalize k % (sectors + 1) = s at whole column
  subst whole
  by_cases lastRow : r = rings
  · obtain ⟨r, rfl⟩ := Nat.exists_eq_add_of_le' (lastRow ▸ rows : 0 < r)
    by_cases lastColumn : s = sectors
    · obtain ⟨s, rfl⟩ := Nat.exists_eq_add_of_le' (lastColumn ▸ columns : 0 < s)
      exact inCell (by omega) (by omega) (mem_sphereCell.2 (.inr (.inr (.inr rfl))))
    · exact inCell (by omega) (by omega) (mem_sphereCell.2 (.inr (.inr (.inl rfl))))
  · by_cases lastColumn : s = sectors
    · obtain ⟨s, rfl⟩ := Nat.exists_eq_add_of_le' (lastColumn ▸ columns : 0 < s)
      exact inCell (by omega) (by omega) (mem_sphereCell.2 (.inr (.inl rfl)))
    · exact inCell (by omega) (by omega) (mem_sphereCell.2 (.inl rfl))

theorem covers_sphere (rows : 0 < rings) (columns : 0 < sectors)
    (fits : (rings + 1) * (sectors + 1) ≤ 2 ^ 32) :
    Covers 0 ((rings + 1) * (sectors + 1)) ((List.range rings).flatMap fun r =>
      (List.range sectors).flatMap (sphereCell sectors r)) where
  within x mem := by
    obtain ⟨r, ofRange, mem⟩ := List.mem_flatMap.1 mem
    obtain ⟨s, ofRange', mem⟩ := List.mem_flatMap.1 mem
    have row := List.mem_range.1 ofRange
    have column := List.mem_range.1 ofRange'
    have onGrid {row column : Nat} (ofRow : row ≤ rings) (ofColumn : column ≤ sectors)
        (is : x = .ofNat (row * (sectors + 1) + column)) :
        0 ≤ x.toNat ∧ x.toNat < (rings + 1) * (sectors + 1) := by
      rw [is]
      exact within_ofNat (Nat.zero_le _) (grid_lt ofRow ofColumn) fits
    rcases mem_sphereCell.1 mem with is | is | is | is
    · exact onGrid (by omega) (by omega) is
    · exact onGrid (by omega) (by omega) is
    · exact onGrid (by omega) (by omega) is
    · exact onGrid (by omega) (by omega) is
  all _ _ most := mem_sphereCells rows columns most

end Primitive

/-! ## Well-formed meshes -/

structure Mesh.Formed (m : Mesh) (vertices entries : Nat) : Prop where
  size : m.buffer.size = vertexSize * vertices
  indexCount : m.indices.size = entries
  whole : 3 ∣ entries
  covers : Covers 0 vertices m.indices.toList
  fits : vertices < 2 ^ 32

namespace Mesh.Formed

variable {m : Mesh} {vertices entries : Nat}

theorem ofVertices {corners : List Vertex} {indices : List UInt32}
    (counted : (Mesh.ofVertices corners indices).vertexCount = vertices)
    (length : indices.length = entries) (whole : 3 ∣ entries) (covers : Covers 0 vertices indices)
    (fits : vertices < 2 ^ 32) : Formed (.ofVertices corners indices) vertices entries where
  size := by rw [size_ofVertices, ← counted, vertexCount_ofVertices]
  indexCount := length
  whole := whole
  covers := covers
  fits := fits

variable (formed : Formed m vertices entries)
include formed

theorem vertexCount : m.vertexCount = vertices := by
  rw [Mesh.vertexCount, formed.size]
  exact Nat.mul_div_cancel_left _ (by decide)

theorem hasWholeVertices : m.hasWholeVertices = true := by
  rw [Mesh.hasWholeVertices, formed.size, Nat.mul_mod_right]
  rfl

theorem hasWholeTriangles : m.hasWholeTriangles = true := by
  rw [Mesh.hasWholeTriangles, formed.indexCount, Nat.mod_eq_zero_of_dvd formed.whole]
  rfl

theorem inRange {i : UInt32} (mem : i ∈ m.indices) : i.toNat < vertices :=
  (formed.covers.within i (Array.mem_toList_iff.2 mem)).2

theorem indicesInRange : m.indicesInRange = true := by
  apply Array.all_eq_true_iff_forall_mem.2
  intro i mem
  apply decide_eq_true
  rw [UInt32.lt_iff_toNat_lt, indexBound, formed.vertexCount,
    UInt32.toNat_ofNat_of_lt' formed.fits]
  exact formed.inRange mem

theorem used {k : Nat} (vertex : k < vertices) : ∃ t < m.triangleCount, ∃ corner < 3,
    m.indices[3 * t + corner]? = some (.ofNat k) := by
  have mem := formed.covers.all k (Nat.zero_le k) vertex
  obtain ⟨place, isAt⟩ := List.mem_iff_getElem?.1 mem
  rw [Array.getElem?_toList] at isAt
  obtain ⟨within, -⟩ := Array.getElem?_eq_some_iff.1 isAt
  refine ⟨place / 3, ?_, place % 3, Nat.mod_lt _ (by decide), ?_⟩
  · have whole := formed.whole
    rw [← formed.indexCount] at whole
    exact Nat.div_lt_div_of_lt_of_dvd whole within
  · rw [Nat.div_add_mod]
    exact isAt

end Mesh.Formed

namespace Primitive

variable {n : Nat}

theorem length_discIndices (center sectors : Nat) (up : Bool) :
    (discIndices center sectors up).length = 3 * sectors :=
  length_flatMap_range (fun _ => by cases up <;> rfl) sectors

theorem formed_box (width height depth : Float32) (color : Vec3) :
    (box width height depth color).Formed boxVertices 36 := by
  have sides : Covers 0 (4 * 6) ((List.range 6).flatMap fun side => quadIndices (4 * side)) := by
    apply Covers.blocks
    intro i less
    exact covers_quad (by omega)
  exact .ofVertices (vertexCount_box width height depth color) rfl (by decide) sides (by decide)

theorem formed_plane (width depth : Float32) (color : Vec3) :
    (plane width depth color).Formed planeVertices 6 :=
  .ofVertices (vertexCount_plane width depth color) rfl (by decide) (covers_quad (by decide))
    (by decide)

theorem formed_sphere (radius : Float32) (color : Vec3) (least : 3 ≤ n)
    (fits : (max (n / 2) 2 + 1) * (n + 1) < 2 ^ 32) :
    (sphere radius (.ofNat n) color).Formed (sphereVertices (.ofNat n))
      (6 * max (n / 2) 2 * n) := by
  have small : n + 1 < 2 ^ 32 := Nat.lt_of_le_of_lt (Nat.le_mul_of_pos_left _ (by omega)) fits
  have rings := toNat_sphereRings (Nat.lt_of_succ_lt small)
  have sectors := UInt32.toNat_ofNat_of_lt' (Nat.lt_of_succ_lt small)
  have counted := vertexCount_sphere radius color (.ofNat n)
  rw [rings, sectors] at counted
  rw [sphereVertices_eq fits]
  refine .ofVertices counted ?_ ?_ ?_ fits
  · rw [rings, sectors, Nat.mul_right_comm]
    exact length_flatMap_range (fun r => length_flatMap_range (k := 6) (fun s => rfl) n) _
  · rw [Nat.mul_assoc]
    exact Nat.dvd_mul_right_of_dvd (by decide) _
  · rw [rings, sectors]
    exact covers_sphere (by omega) (by omega) (Nat.le_of_lt fits)

theorem formed_cylinder (radius height : Float32) (color : Vec3) (least : 3 ≤ n)
    (fits : 4 * n + 2 * (n + 1) < 2 ^ 32) :
    (cylinder radius height (.ofNat n) color).Formed (cylinderVertices (.ofNat n)) (12 * n) := by
  have sectors := UInt32.toNat_ofNat_of_lt' (show n < 2 ^ 32 by omega)
  have counted := vertexCount_cylinder radius height color (.ofNat n)
  rw [sectors] at counted
  rw [cylinderVertices_eq fits]
  have last : 4 * n + (n + 1) + (n + 1) = 4 * n + 2 * (n + 1) := by omega
  have sides := covers_cylinderSides (n := n) (by omega)
  have top := covers_disc (4 * n) true (n := n) (by omega) (by omega)
  have bottom := covers_disc (4 * n + (n + 1)) false (n := n) (by omega) (by omega)
  refine .ofVertices counted ?_ (by omega) ?_ fits
  · rw [sectors, List.length_append, List.length_append, length_discIndices, length_discIndices,
      length_flatMap_range (k := 6) fun _ => rfl]
    omega
  · rw [sectors, ← last]
    exact (sides.append top (by omega) (by omega)).append bottom (by omega) (by omega)

theorem formed_cone (radius height : Float32) (color : Vec3) (least : 3 ≤ n)
    (fits : 3 * n + n + 1 < 2 ^ 32) :
    (cone radius height (.ofNat n) color).Formed (coneVertices (.ofNat n)) (6 * n) := by
  have sectors := UInt32.toNat_ofNat_of_lt' (show n < 2 ^ 32 by omega)
  have counted := vertexCount_cone radius height color (.ofNat n)
  rw [sectors] at counted
  rw [coneVertices_eq fits]
  have sides := covers_coneSides (n := n) (by omega)
  have bottom := covers_disc (3 * n) false (n := n) (by omega) (by omega)
  refine .ofVertices counted ?_ (by omega) ?_ fits
  · rw [sectors, List.length_append, length_discIndices,
      length_flatMap_range (k := 3) fun _ => rfl]
    omega
  · rw [sectors]
    exact sides.append bottom (by omega) (by omega)

/-- The meshes of primitives whose vertices are counted in 32 bits, each with the number of vertices
that is predicted for it and the number of its index entries. -/
inductive Drawn : Mesh → Nat → Nat → Prop
  | box (width height depth : Float32) (color : Vec3) :
      Drawn (box width height depth color) boxVertices 36
  | plane (width depth : Float32) (color : Vec3) :
      Drawn (plane width depth color) planeVertices 6
  | sphere (radius : Float32) {n : Nat} (color : Vec3) : 3 ≤ n →
      (max (n / 2) 2 + 1) * (n + 1) < 2 ^ 32 →
      Drawn (sphere radius (.ofNat n) color) (sphereVertices (.ofNat n)) (6 * max (n / 2) 2 * n)
  | cylinder (radius height : Float32) {n : Nat} (color : Vec3) : 3 ≤ n →
      4 * n + 2 * (n + 1) < 2 ^ 32 →
      Drawn (cylinder radius height (.ofNat n) color) (cylinderVertices (.ofNat n)) (12 * n)
  | cone (radius height : Float32) {n : Nat} (color : Vec3) : 3 ≤ n → 3 * n + n + 1 < 2 ^ 32 →
      Drawn (cone radius height (.ofNat n) color) (coneVertices (.ofNat n)) (6 * n)

namespace Drawn

variable {mesh : Mesh} {vertices entries : Nat}

theorem formed (drawn : Drawn mesh vertices entries) : mesh.Formed vertices entries := by
  cases drawn with
  | box width height depth color => exact formed_box width height depth color
  | plane width depth color => exact formed_plane width depth color
  | sphere radius color least fits => exact formed_sphere radius color least fits
  | cylinder radius height color least fits => exact formed_cylinder radius height color least fits
  | cone radius height color least fits => exact formed_cone radius height color least fits

/-- The mesh of a primitive has as many vertices and index entries as it should, its triangles have
just its vertices as corners, it passes the checks on its buffers, and colouring it changes nothing
but the colour of each vertex. -/
theorem wellFormed (drawn : Drawn mesh vertices entries) :
    mesh.buffer.size = 9 * vertices ∧ mesh.indices.size = entries ∧
      (∀ i ∈ mesh.indices, i.toNat < vertices) ∧
      (∀ k < vertices, ∃ t < mesh.triangleCount, ∃ corner < 3,
        mesh.indices[3 * t + corner]? = some (.ofNat k)) ∧
      (mesh.hasWholeVertices = true ∧ mesh.hasWholeTriangles = true ∧
        mesh.indicesInRange = true) ∧
      ∀ c, (mesh.withColor c).positions = mesh.positions ∧
        (mesh.withColor c).normals = mesh.normals ∧
        (mesh.withColor c).indices = mesh.indices ∧
        (mesh.withColor c).colors = List.replicate vertices c := by
  have formed := drawn.formed
  refine ⟨formed.size, formed.indexCount, fun i => formed.inRange, fun k => formed.used,
    ⟨formed.hasWholeVertices, formed.hasWholeTriangles, formed.indicesInRange⟩, fun c => ?_⟩
  have colors := mesh.colors_withColor c
  rw [formed.vertexCount] at colors
  exact ⟨mesh.positions_withColor c, mesh.normals_withColor c, mesh.indices_withColor c, colors⟩

/-- A sphere with an odd number of divisions. -/
theorem wellFormed_pentagonal :
    sphereVertices 5 = 18 ∧ (Primitive.sphere 1 5 .one).buffer.size = 9 * 18 ∧
      (Primitive.sphere 1 5 .one).indices.size = 60 ∧
      (Primitive.sphere 1 5 .one).indicesInRange = true := by
  have drawn : Drawn (Primitive.sphere 1 5 .one) (sphereVertices 5) 60 :=
    .sphere 1 .one (n := 5) (by decide) (by decide)
  obtain ⟨size, indexCount, _, _, ⟨_, _, inRange⟩, _⟩ := wellFormed drawn
  exact ⟨rfl, size, indexCount, inRange⟩

end Drawn

end Primitive

end SceneScript
