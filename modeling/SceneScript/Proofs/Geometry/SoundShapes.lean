import Mathlib
import SceneScript.Proofs.Geometry.Drawing

/-!
# Sound shapes

With accurate functions every vertex of a shape of finite sizes is sound, a cone apart whose slope
has no square in single precision (`Shape.sound_vertices`). No cone with such a slope has sound
vertices, whatever the functions give (`Shape.slopeFits_of_sound`). So nothing else can be wrong
with a shape whose vertices are counted in 32 bits (`Shape.issues_iff`).
-/

namespace SceneScript

open Number

/-! ## Normals of round shapes -/

theorem half_finite {x : Float32} (finite : x.isFinite) : (x * 0.5).isFinite := by
  have shape : (0.5 : Float32).toModel.unpack = .finite .positive 8388608 (-24) (by decide) := rfl
  apply scale_finite finite rfl
  right
  rw [toReal_of_shape shape]
  norm_num [Float.Model.UnpackedFloat.Sign.apply]

theorem neg_finite {x : Float32} (finite : x.isFinite) : (-x).isFinite := by
  rwa [isFinite_neg_single]

theorem axes_unit : ∀ n ∈ [Primitive.axisX, Primitive.axisY, Primitive.axisZ, Primitive.negAxisX,
    Primitive.negAxisY, Primitive.negAxisZ], n.isFinite ∧ n.IsUnit := by
  unfold Vec3.IsUnit
  decide +kernel

namespace OnCircle

variable {p q : Float32 × Float32} {a b : ℝ} {slope : Float32}

theorem radial (on : OnCircle p a) :
    Vec3.IsNear ⟨p.1, 0, p.2⟩ (Real.cos a) 0 (Real.sin a) (1 / 2 ^ 20) :=
  have zero : Near 0 0 (1 / 2 ^ 20) := ⟨rfl, by simp⟩
  ⟨on.cos, zero, on.sin⟩

theorem radial_isUnit (on : OnCircle p a) : Vec3.IsUnit ⟨p.1, 0, p.2⟩ := by
  apply on.radial.isUnit (by norm_num)
  linarith [Real.cos_sq_add_sin_sq a]

theorem sq_add_sq (on : OnCircle p a) : 99 / 100 ≤ toReal p.1 ^ 2 + toReal p.2 ^ 2 := by
  have cosine := (abs_le.1 (Vec3.IsNear.sq_close on.cos (by norm_num)
    (by linarith [Real.abs_cos_le_one a]))).1
  have sine := (abs_le.1 (Vec3.IsNear.sq_close on.sin (by norm_num)
    (by linarith [Real.abs_sin_le_one a]))).1
  have unit := Real.cos_sq_add_sin_sq a
  norm_num at cosine sine
  linarith

theorem slanted_large (on : OnCircle p a) : 99 / 100 ≤ Vec3.normSq ⟨p.1, slope, p.2⟩ := by
  have square := sq_nonneg (toReal slope)
  simp only [Vec3.normSq]
  linarith [on.sq_add_sq]

theorem slanted_finite (on : OnCircle p a) (fits : (slope * slope).isFinite) :
    (Vec3.dot ⟨p.1, slope, p.2⟩ ⟨p.1, slope, p.2⟩).isFinite := by
  have cosine := scale_finite on.cos.finite on.cos.finite (.inl on.cos_le)
  have sine := scale_finite on.sin.finite on.sin.finite (.inl on.sin_le)
  have cosine' := abs_mul_le_one cosine on.cos_le on.cos_le
  have sine' := abs_mul_le_one sine on.sin_le on.sin_le
  exact shift_finite (shift_finite cosine fits (.inl cosine')) sine (.inr sine')

theorem slanted_isUnit (on : OnCircle p a) (fits : (slope * slope).isFinite) :
    (Vec3.normalize ⟨p.1, slope, p.2⟩).isFinite ∧ (Vec3.normalize ⟨p.1, slope, p.2⟩).IsUnit := by
  have large : 99 / 100 ≤ Vec3.normSq ⟨p.1, slope, p.2⟩ := on.slanted_large
  exact Vec3.normalize_isUnit (on.slanted_finite fits) (by linarith)

theorem slanted_dot (first : OnCircle p a) (second : OnCircle q b)
    (apart : -(51 / 100) ≤ Real.cos (b - a)) :
    -(52 / 100) ≤ toReal p.1 * toReal q.1 + toReal slope * toReal slope +
      toReal p.2 * toReal q.2 := by
  have close {x y : Float32} {c d : ℝ} (left : Near x c (1 / 2 ^ 20))
      (right : Near y d (1 / 2 ^ 20)) (sizeX : |toReal x| ≤ 1) (sizeD : |d| ≤ 1) :
      |toReal x * toReal y - c * d| ≤ 1 / 2 ^ 19 := by
    have split : toReal x * toReal y - c * d =
        toReal x * (toReal y - d) + (toReal x - c) * d := by ring
    have one : |toReal x| * |toReal y - d| ≤ 1 * (1 / 2 ^ 20) := by
      gcongr
      exact right.close
    have two : |toReal x - c| * |d| ≤ 1 / 2 ^ 20 * 1 := by
      gcongr
      exact left.close
    rw [split]
    apply (abs_add_le _ _).trans
    rw [abs_mul, abs_mul]
    linarith
  have cosines := (abs_le.1 (close first.cos second.cos first.cos_le (Real.abs_cos_le_one b))).1
  have sines := (abs_le.1 (close first.sin second.sin first.sin_le (Real.abs_sin_le_one b))).1
  have square := mul_self_nonneg (toReal slope)
  rw [Real.cos_sub] at apart
  norm_num at cosines sines
  linarith

theorem sum_large {v w : Vec3} (hv : 99 / 100 ≤ v.normSq) (hw : 99 / 100 ≤ w.normSq)
    (dot : -(52 / 100) ≤ toReal v.x * toReal w.x + toReal v.y * toReal w.y +
      toReal v.z * toReal w.z) :
    9 / 10 ≤ (toReal v.x / √v.normSq + toReal w.x / √w.normSq) ^ 2 +
      (toReal v.y / √v.normSq + toReal w.y / √w.normSq) ^ 2 +
      (toReal v.z / √v.normSq + toReal w.z / √w.normSq) ^ 2 := by
  have root {x : ℝ} (large : 99 / 100 ≤ x) : 99 / 100 ≤ √x :=
    Real.le_sqrt_of_sq_le (by linarith)
  have unitV := Vec3.direction_unit (v := v) (by linarith)
  have unitW := Vec3.direction_unit (v := w) (by linarith)
  have product : 98 / 100 ≤ √v.normSq * √w.normSq := by
    have := mul_le_mul (root hv) (root hw) (by norm_num) (Real.sqrt_nonneg _)
    linarith
  have cosine : -(54 / 100) ≤ toReal v.x / √v.normSq * (toReal w.x / √w.normSq) +
      toReal v.y / √v.normSq * (toReal w.y / √w.normSq) +
      toReal v.z / √v.normSq * (toReal w.z / √w.normSq) := by
    rw [div_mul_div_comm, div_mul_div_comm, div_mul_div_comm, ← add_div, ← add_div,
      le_div_iff₀ (by linarith)]
    linarith
  linarith

theorem apex_isUnit {v w : Vec3} (finiteV : (v.dot v).isFinite) (finiteW : (w.dot w).isFinite)
    (hv : 99 / 100 ≤ v.normSq) (hw : 99 / 100 ≤ w.normSq)
    (dot : -(52 / 100) ≤ toReal v.x * toReal w.x + toReal v.y * toReal w.y +
      toReal v.z * toReal w.z) :
    (v.normalize.add w.normalize).normalize.isFinite ∧
      (v.normalize.add w.normalize).normalize.IsUnit := by
  have unitV := Vec3.direction_unit (v := v) (by linarith)
  have unitW := Vec3.direction_unit (v := w) (by linarith)
  have near := (Vec3.normalize_near finiteV (by linarith)).add
    (Vec3.normalize_near finiteW (by linarith)) le_rfl unitV unitW
  have large := sum_large hv hw dot
  have bounded {x y : ℝ} (hx : |x| ≤ 1) (hy : |y| ≤ 1) : |x + y| ≤ 2 := by
    linarith [abs_add_le x y]
  obtain ⟨vx, vy, vz⟩ := Vec3.IsNear.components_le_one unitV
  obtain ⟨wx, wy, wz⟩ := Vec3.IsNear.components_le_one unitW
  have x := bounded vx wx
  have y := bounded vy wy
  have z := bounded vz wz
  obtain ⟨low, high⟩ := abs_le.1 (near.normSq_close (by norm_num) x y z)
  rw [← sq_le_sq₀ (abs_nonneg _) zero_le_two, sq_abs] at x y z
  apply Vec3.normalize_isUnit
  · apply Vec3.dot_isFinite near.isFinite
    norm_num at high ⊢
    linarith
  · norm_num at low
    linarith

end OnCircle

/-! ## Vertices -/

namespace Trigonometry

variable {t : Trigonometry} {color : Vec3} {radius height y : Float32} {i n : ℕ}

theorem onRim_finite {p : Float32 × Float32} {a : ℝ} (on : OnCircle p a) (r : radius.isFinite)
    (y' : y.isFinite) : Vec3.isFinite ⟨radius * p.1, y, radius * p.2⟩ := by
  have x := scale_finite r on.cos.finite (.inr on.cos_le)
  have z := scale_finite r on.sin.finite (.inr on.sin_le)
  simp [Vec3.isFinite, x, y', z]

theorem onAxis_finite (y' : y.isFinite) : Vec3.isFinite ⟨0, y, 0⟩ := by
  have zero : (0 : Float32).isFinite = true := rfl
  simp [Vec3.isFinite, y', zero]

theorem discVertices_sound (accurate : t.Accurate) (fits : n < 2 ^ 32) (r : radius.isFinite)
    (y' : y.isFinite) (colored : color.isFinite) {normal : Vec3}
    (unit : normal.isFinite ∧ normal.IsUnit) :
    ∀ v ∈ t.discVertices radius y n normal color, v.Sound := by
  intro v mem
  rcases List.mem_cons.1 mem with rfl | mem
  · exact ⟨onAxis_finite y', unit.1, unit.2, colored⟩
  · obtain ⟨i, within, rfl⟩ := List.mem_map.1 mem
    have within := List.mem_range.1 within
    obtain ⟨a, -, on⟩ := accurate.circlePoint (by omega) fits within.le
    exact ⟨onRim_finite on r y', unit.1, unit.2, colored⟩

theorem cylinderSide_sound (accurate : t.Accurate) (fits : n < 2 ^ 32) (within : i < n)
    (r : radius.isFinite) (y' : y.isFinite) (colored : color.isFinite) :
    ∀ v ∈ t.cylinderSide radius y n color i, v.Sound := by
  obtain ⟨a, -, first⟩ := accurate.circlePoint (by omega) fits within.le
  obtain ⟨b, -, second⟩ := accurate.circlePoint (by omega) fits (by omega : i + 1 ≤ n)
  have below := neg_finite y'
  intro v mem
  simp only [cylinderSide, List.mem_cons, List.not_mem_nil, or_false] at mem
  rcases mem with rfl | rfl | rfl | rfl
  · exact ⟨onRim_finite first r below, first.radial.isFinite, first.radial_isUnit, colored⟩
  · exact ⟨onRim_finite second r below, second.radial.isFinite, second.radial_isUnit, colored⟩
  · exact ⟨onRim_finite second r y', second.radial.isFinite, second.radial_isUnit, colored⟩
  · exact ⟨onRim_finite first r y', first.radial.isFinite, first.radial_isUnit, colored⟩

theorem coneSide_sound (accurate : t.Accurate) (sectors : 3 ≤ n) (fits : n < 2 ^ 32)
    (within : i < n) (r : radius.isFinite) (y' : y.isFinite) (colored : color.isFinite)
    (slope : (radius / height * (radius / height)).isFinite) :
    ∀ v ∈ t.coneSide radius height y n color i, v.Sound := by
  obtain ⟨a, atA, first⟩ := accurate.circlePoint (by omega) fits within.le
  obtain ⟨b, atB, second⟩ := accurate.circlePoint (by omega) fits (by omega : i + 1 ≤ n)
  have apart := cos_next sectors atA atB
  have apex := OnCircle.apex_isUnit (first.slanted_finite slope) (second.slanted_finite slope)
    first.slanted_large second.slanted_large (first.slanted_dot second apart)
  have left := first.slanted_isUnit slope
  have right := second.slanted_isUnit slope
  have below := neg_finite y'
  intro v mem
  simp only [coneSide, List.mem_cons, List.not_mem_nil, or_false] at mem
  rcases mem with rfl | rfl | rfl
  · exact ⟨onAxis_finite y', apex.1, apex.2, colored⟩
  · exact ⟨onRim_finite first r below, left.1, left.2, colored⟩
  · exact ⟨onRim_finite second r below, right.1, right.2, colored⟩

theorem slope_of_side (sound : ∀ v ∈ t.coneSide radius height y n color i, v.Sound) :
    (radius / height * (radius / height)).isFinite := by
  let rim : Vec3 := ⟨(t.circlePoint i n).1, radius / height, (t.circlePoint i n).2⟩
  obtain ⟨v, mem, normal⟩ : ∃ v ∈ t.coneSide radius height y n color i,
      v.normal = rim.normalize :=
    ⟨_, List.mem_cons_of_mem _ List.mem_cons_self, rfl⟩
  obtain ⟨-, finite, unit, -⟩ := sound v mem
  rw [normal] at finite unit
  have square : (rim.dot rim).isFinite := by
    by_contra infinite
    exact Vec3.not_isUnit_of_infinite infinite finite unit
  exact (isFinite_of_add_single (isFinite_of_add_single square).1).2

theorem sphereNormal_near (accurate : t.Accurate) {rings sectors row column : ℕ} (rows : 0 < rings)
    (columns : 0 < sectors) (fits : rings < 2 ^ 32) (fits' : sectors < 2 ^ 32)
    (ofRow : row ≤ rings) (ofColumn : column ≤ sectors) :
    ∃ a b, (t.sphereNormal rings sectors row column).IsNear (Real.sin a * Real.cos b) (Real.cos a)
        (Real.sin a * Real.sin b) (1 / 2 ^ 18) ∧
      |toReal (t.sphereNormal rings sectors row column).x| ≤ 1 ∧
      |toReal (t.sphereNormal rings sectors row column).y| ≤ 1 ∧
      |toReal (t.sphereNormal rings sectors row column).z| ≤ 1 := by
  have pi := Real.pi_pos
  have polar := accurate.pointAt (Primitive.arc_near rows fits ofRow pi.le
    (by linarith [two_pi_le]) Primitive.pi_near).1 rows ofRow pi.le (by linarith)
  have around := accurate.pointAt (Primitive.arc_near columns fits' ofColumn Real.two_pi_pos.le
    two_pi_le Primitive.tau_near).1 columns ofColumn Real.two_pi_pos.le le_rfl
  have x := scale_finite polar.sin.finite around.cos.finite (.inl polar.sin_le)
  have z := scale_finite polar.sin.finite around.sin.finite (.inl polar.sin_le)
  have product {u v : Float32} {c d : ℝ} (left : Near u c (1 / 2 ^ 20))
      (right : Near v d (1 / 2 ^ 20)) (finite : (u * v).isFinite) (hc : |c| ≤ 1) (hd : |d| ≤ 1) :
      Near (u * v) (c * d) (1 / 2 ^ 18) := by
    have size : |c * d| ≤ 1 := by
      rw [abs_mul]
      exact mul_le_one₀ hc (abs_nonneg d) hd
    apply (left.mul right finite).mono
    linarith
  refine ⟨toReal (Primitive.pi * Primitive.ofIndex row / Primitive.ofIndex rings),
    toReal (Primitive.tau * Primitive.ofIndex column / Primitive.ofIndex sectors), ⟨?_, ?_, ?_⟩,
    ?_, ?_, ?_⟩
  · exact product polar.sin around.cos x (Real.abs_sin_le_one _) (Real.abs_cos_le_one _)
  · exact polar.cos.mono (by norm_num)
  · exact product polar.sin around.sin z (Real.abs_sin_le_one _) (Real.abs_sin_le_one _)
  · exact abs_mul_le_one x polar.sin_le around.cos_le
  · exact polar.cos_le
  · exact abs_mul_le_one z polar.sin_le around.sin_le

theorem sphereVertex_sound (accurate : t.Accurate) {rings sectors row column : ℕ} (rows : 0 < rings)
    (columns : 0 < sectors) (fits : rings < 2 ^ 32) (fits' : sectors < 2 ^ 32)
    (ofRow : row ≤ rings) (ofColumn : column ≤ sectors) (r : radius.isFinite)
    (colored : color.isFinite) : (t.sphereVertex radius rings sectors color row column).Sound := by
  obtain ⟨a, b, near, x, y, z⟩ :=
    sphereNormal_near accurate rows columns fits fits' ofRow ofColumn
  refine ⟨?_, near.isFinite, ?_, colored⟩
  · have x := scale_finite near.x.finite r (.inl x)
    have y := scale_finite near.y.finite r (.inl y)
    have z := scale_finite near.z.finite r (.inl z)
    simp [sphereVertex, Vec3.isFinite, Vec3.scale, Vec3.map, x, y, z]
  · apply near.isUnit (by norm_num)
    have polar := Real.cos_sq_add_sin_sq a
    have around := Real.cos_sq_add_sin_sq b
    rw [mul_pow, mul_pow, add_right_comm, ← mul_add, around]
    linarith

end Trigonometry

/-! ## Shapes -/

namespace Shape

theorem boxSides_sound {x y z : Float32} (x' : x.isFinite) (y' : y.isFinite) (z' : z.isFinite) :
    ∀ side ∈ Primitive.boxSides x y z, (∀ p ∈ side.1, p.isFinite) ∧
      side.2.isFinite ∧ side.2.IsUnit := by
  have axes := axes_unit
  simp only [List.forall_mem_cons, Vec3.isFinite, Bool.and_eq_true] at axes
  simp [Primitive.boxSides, Vec3.isFinite, neg_finite, x', y', z', axes]

/-- The sizes are positive, and none of them is that much greater than another. -/
def Proportioned (shape : Shape) : Prop :=
  ∀ x ∈ shape.sizes, 0 < real x ∧ ∀ y ∈ shape.sizes, real y ≤ 2 ^ 63 * real x

/-- Whether the square of a slope is a number in single precision. Only cones have a slope. -/
def SlopeFits : Shape → Prop
  | cone radius height _ => (radius / height * (radius / height)).isFinite
  | box .. | plane .. | sphere .. | cylinder .. => True

section

variable {t : Trigonometry} {color : Vec3} {width height depth radius : Float32} {n : UInt32}

theorem sound_box (w : width.isFinite) (h : height.isFinite) (d : depth.isFinite)
    (colored : color.isFinite) : ∀ v ∈ (box width height depth).vertices t color, v.Sound := by
  intro v mem
  obtain ⟨side, isSide, mem⟩ := List.mem_flatMap.1 mem
  obtain ⟨p, isCorner, rfl⟩ := List.mem_map.1 mem
  obtain ⟨corners, axis⟩ :=
    boxSides_sound (half_finite w) (half_finite h) (half_finite d) side isSide
  exact ⟨corners p isCorner, axis.1, axis.2, colored⟩

theorem sound_plane (w : width.isFinite) (d : depth.isFinite) (colored : color.isFinite) :
    ∀ v ∈ (plane width depth).vertices t color, v.Sound := by
  have zero : (0 : Float32).isFinite = true := rfl
  have axis := axes_unit Primitive.axisY (by simp)
  have sound {x z : Float32} (x' : x.isFinite) (z' : z.isFinite) :
      Vertex.Sound ⟨⟨x, 0, z⟩, Primitive.axisY, color⟩ :=
    ⟨by simp [Vec3.isFinite, x', z', zero], axis.1, axis.2, colored⟩
  have x := half_finite w
  have z := half_finite d
  intro v mem
  simp only [vertices, List.map_cons, List.map_nil, List.mem_cons, List.not_mem_nil,
    or_false] at mem
  rcases mem with rfl | rfl | rfl | rfl
  · exact sound (neg_finite x) z
  · exact sound x z
  · exact sound x (neg_finite z)
  · exact sound (neg_finite x) (neg_finite z)

theorem sound_sphere (accurate : t.Accurate) (divided : (sphere radius n).Divided)
    (r : radius.isFinite) (colored : color.isFinite) :
    ∀ v ∈ (sphere radius n).vertices t color, v.Sound := by
  have rings := Primitive.toNat_sphereRings n.toNat_lt
  rw [UInt32.ofNat_toNat] at rings
  have count := n.toNat_lt
  have some : 0 < n.toNat := Nat.zero_lt_of_lt divided
  intro v mem
  obtain ⟨row, inRows, mem⟩ := List.mem_flatMap.1 mem
  obtain ⟨column, inColumns, rfl⟩ := List.mem_map.1 mem
  have ofRow := List.mem_range.1 inRows
  have ofColumn := List.mem_range.1 inColumns
  exact Trigonometry.sphereVertex_sound accurate (by omega) some (by omega) count (by omega)
    (by omega) r colored

theorem sound_cylinder (accurate : t.Accurate) (r : radius.isFinite) (h : height.isFinite)
    (colored : color.isFinite) : ∀ v ∈ (cylinder radius height n).vertices t color, v.Sound := by
  have y := half_finite h
  have count := n.toNat_lt
  intro v mem
  rcases List.mem_append.1 mem with mem | mem
  · rcases List.mem_append.1 mem with mem | mem
    · obtain ⟨i, within, mem⟩ := List.mem_flatMap.1 mem
      exact Trigonometry.cylinderSide_sound accurate count (List.mem_range.1 within) r y colored
        v mem
    · exact Trigonometry.discVertices_sound accurate count r y colored
        (axes_unit Primitive.axisY (by simp)) v mem
  · exact Trigonometry.discVertices_sound accurate count r (neg_finite y) colored
      (axes_unit Primitive.negAxisY (by simp)) v mem

theorem sound_cone (accurate : t.Accurate) (divided : (cone radius height n).Divided)
    (r : radius.isFinite) (h : height.isFinite) (colored : color.isFinite)
    (fits : (cone radius height n).SlopeFits) :
    ∀ v ∈ (cone radius height n).vertices t color, v.Sound := by
  have y := half_finite h
  have count := n.toNat_lt
  intro v mem
  rcases List.mem_append.1 mem with mem | mem
  · obtain ⟨i, within, mem⟩ := List.mem_flatMap.1 mem
    exact Trigonometry.coneSide_sound accurate divided count (List.mem_range.1 within) r y colored
      fits v mem
  · exact Trigonometry.discVertices_sound accurate count r (neg_finite y) colored
      (axes_unit Primitive.negAxisY (by simp)) v mem

end

theorem sound_vertices {t : Trigonometry} {color : Vec3} {shape : Shape} (accurate : t.Accurate)
    (divided : shape.Divided) (finite : ∀ x ∈ shape.sizes, x.isFinite) (colored : color.isFinite)
    (fits : shape.SlopeFits) : ∀ v ∈ shape.vertices t color, v.Sound := by
  cases shape with
  | box =>
    simp only [sizes, List.forall_mem_cons] at finite
    exact sound_box finite.1 finite.2.1 finite.2.2.1 colored
  | plane =>
    simp only [sizes, List.forall_mem_cons] at finite
    exact sound_plane finite.1 finite.2.1 colored
  | sphere radius =>
    exact sound_sphere accurate divided (finite radius (List.mem_singleton_self radius)) colored
  | cylinder =>
    simp only [sizes, List.forall_mem_cons] at finite
    exact sound_cylinder accurate finite.1 finite.2.1 colored
  | cone =>
    simp only [sizes, List.forall_mem_cons] at finite
    exact sound_cone accurate divided finite.1 finite.2.1 colored fits

theorem slopeFits_of_proportioned {shape : Shape} (finite : ∀ x ∈ shape.sizes, x.isFinite)
    (proportioned : shape.Proportioned) : shape.SlopeFits := by
  cases shape with
  | box | plane | sphere | cylinder => trivial
  | cone radius height n =>
    simp only [Proportioned, sizes, List.forall_mem_cons] at finite proportioned
    obtain ⟨r, h, -⟩ := finite
    obtain ⟨⟨positive, -⟩, ⟨above, ratio, -⟩, -⟩ := proportioned
    have least : 0 ≤ real radius / real height := by positivity
    have most : real radius / real height ≤ 2 ^ 63 := (div_le_iff₀ above).2 ratio
    have slope := Rounded.div r h above.ne' (by
      rw [abs_of_nonneg least]
      exact most.trans_lt (by norm_num [finiteBound]))
    have zero : Representable .binary32 0 := ⟨0, 0, by decide, by decide, by simp⟩
    have top : Representable .binary32 (2 ^ 63) := ⟨1, 63, by decide, by decide, by norm_num⟩
    have low := Rounds.mono (.self zero) slope.rounds least
    have high := Rounds.mono slope.rounds (.self top) most
    apply mul_finite slope.finite slope.finite
    rw [abs_of_nonneg (mul_nonneg low low)]
    apply (mul_le_mul high high low (by positivity)).trans_lt
    norm_num [finiteBound]

theorem slopeFits_of_sound {t : Trigonometry} {color : Vec3} {shape : Shape}
    (divided : shape.Divided) (sound : ∀ v ∈ shape.vertices t color, v.Sound) :
    shape.SlopeFits := by
  cases shape with
  | box | plane | sphere | cylinder => trivial
  | cone radius height n =>
    apply Trigonometry.slope_of_side (i := 0)
    intro v mem
    apply sound v
    have first := List.mem_range.2 (Nat.zero_lt_of_lt divided)
    exact List.mem_append_left _ (List.mem_flatMap.2 ⟨0, first, mem⟩)

/-- With accurate functions nothing is wrong with a shape but what is too large to be counted or
squared. -/
theorem issues_iff {t : Trigonometry} {color : Vec3} {shape : Shape} (accurate : t.Accurate)
    (divided : shape.Divided) (finite : ∀ x ∈ shape.sizes, x.isFinite) (colored : color.isFinite) :
    (shape.mesh t color).issues = [] ↔
      (shape.drawn color).vertexCount < 2 ^ 32 ∧ shape.SlopeFits := by
  rw [issues_eq_nil_iff t color divided, and_congr_right_iff]
  intro _
  exact ⟨slopeFits_of_sound divided, sound_vertices accurate divided finite colored⟩

theorem fits_of_valid {color : Vec3} {shape : Shape} (divided : shape.Divided)
    (valid : (shape.drawn color).issues = []) :
    (shape.drawn color).vertexCount < 2 ^ 32 ∧ shape.SlopeFits := by
  rw [← mesh_platform] at valid
  obtain ⟨fits, sound⟩ := (issues_eq_nil_iff .platform color divided).1 valid
  exact ⟨fits, slopeFits_of_sound divided sound⟩

end Shape

end SceneScript
