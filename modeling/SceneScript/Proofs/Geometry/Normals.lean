import Mathlib
import SceneScript.Geometry.Vector
import SceneScript.Proofs.Number.Errors

/-!
# Normals

The length of a vector is near the real one if the sum of the squares is no overflow, and so is the
vector that it is scaled to unit length (`Vec3.normalize_near`). Where that sum is an overflow, what
comes out is not finite or has no length (`Vec3.not_isUnit_of_infinite`).
-/

namespace SceneScript.Vec3

open Number Float.Model

variable {v : Vec3}

noncomputable def normSq (v : Vec3) : ℝ :=
  toReal v.x ^ 2 + toReal v.y ^ 2 + toReal v.z ^ 2

def IsUnit (v : Vec3) : Prop :=
  (v.length - 1).abs ≤ 0.1

/-! ## Lengths -/

theorem square_near {x : Float32} (finite : (x * x).isFinite) :
    Near (x * x) (toReal x ^ 2) (toReal x ^ 2 / 2 ^ 24 + 1 / 2 ^ 150) := by
  have exact := Near.self (isFinite_of_mul_single finite).1
  have near := exact.mul exact finite
  rw [← sq] at near
  apply near.mono
  rw [abs_of_nonneg (sq_nonneg (toReal x))]
  linarith

theorem dot_near (finite : (v.dot v).isFinite) :
    Near (v.dot v) v.normSq (v.normSq / 2 ^ 22 + 1 / 2 ^ 147) := by
  obtain ⟨finiteSum, finiteZ⟩ := isFinite_of_add_single finite
  obtain ⟨finiteX, finiteY⟩ := isFinite_of_add_single finiteSum
  have x := sq_nonneg (toReal v.x)
  have y := sq_nonneg (toReal v.y)
  have z := sq_nonneg (toReal v.z)
  have sum := (square_near finiteX).add (square_near finiteY) finiteSum
  have near := sum.add (square_near finiteZ) finite
  apply near.mono
  rw [normSq, abs_of_nonneg (by positivity), abs_of_nonneg (by positivity)]
  linarith

theorem normSq_nonneg (v : Vec3) : 0 ≤ v.normSq := by
  rw [normSq]
  positivity

theorem dot_isFinite (finite : v.isFinite) (small : v.normSq ≤ 2 ^ 100) :
    (v.dot v).isFinite := by
  obtain ⟨⟨x, y⟩, z⟩ : (v.x.isFinite ∧ v.y.isFinite) ∧ v.z.isFinite := by
    simpa [isFinite] using finite
  have sizeX := sq_nonneg (toReal v.x)
  have sizeY := sq_nonneg (toReal v.y)
  have sizeZ := sq_nonneg (toReal v.z)
  rw [normSq] at small
  have square {a : Float32} (finite : a.isFinite) (small : toReal a ^ 2 ≤ 2 ^ 100) :
      (a * a).isFinite := by
    apply (Near.self finite).mul_finite (.self finite)
    rw [← sq, abs_of_nonneg (sq_nonneg (toReal a))]
    norm_num at small ⊢
    linarith
  have first := square_near (square x (by linarith))
  have second := square_near (square y (by linarith))
  have third := square_near (square z (by linarith))
  have sum : (v.x * v.x + v.y * v.y).isFinite := by
    apply first.add_finite second
    rw [abs_of_nonneg (by positivity)]
    norm_num at small ⊢
    linarith
  apply (first.add second sum).add_finite third
  rw [abs_of_nonneg (by positivity), abs_of_nonneg (by positivity)]
  norm_num at small ⊢
  linarith

theorem abs_sqrt_sub_mul_le {a b : ℝ} (ha : 0 ≤ a) (hb : 0 ≤ b) :
    |√a - √b| * √b ≤ |a - b| := by
  have product : a - b = (√a - √b) * (√a + √b) := by
    rw [← sub_eq_zero]
    ring_nf
    rw [Real.sq_sqrt ha, Real.sq_sqrt hb]
    ring
  rw [product, abs_mul]
  gcongr
  rw [abs_of_nonneg (by positivity)]
  linarith [Real.sqrt_nonneg a]

theorem half_le_sqrt {a : ℝ} (large : 1 / 2 ≤ a) : 1 / 2 ≤ √a :=
  Real.le_sqrt_of_sq_le (by linarith)

theorem length_near (finite : (v.dot v).isFinite) (large : 1 / 2 ≤ v.normSq) :
    Near v.length √v.normSq (√v.normSq / 2 ^ 20) := by
  have dot := dot_near finite
  have low := (abs_le.1 dot.close).1
  have positive : 0 < toReal (v.dot v) := by
    norm_num at low
    linarith
  have root : Near v.length _ _ := sqrt_near positive
  have half := half_le_sqrt large
  have square := Real.sq_sqrt v.normSq_nonneg
  -- Dividing by the length turns the error of the square into one of the length.
  have gap : |√(toReal (v.dot v)) - √v.normSq| ≤ √v.normSq / 2 ^ 21 := by
    have product := (abs_sqrt_sub_mul_le positive.le v.normSq_nonneg).trans dot.close
    apply le_of_mul_le_mul_right _ (by linarith : 0 < √v.normSq)
    norm_num at product ⊢
    nlinarith
  refine ⟨root.finite, (abs_sub_le _ √(toReal (v.dot v)) _).trans ?_⟩
  have high := (abs_le.1 gap).2
  have close := root.close
  norm_num at *
  linarith

/-! ## Unit length -/

theorem toReal_abs {a : Float32} (finite : a.isFinite) : toReal a.abs = |toReal a| := by
  rw [toReal, (abs_single finite).2, toReal]
  push_cast
  rfl

theorem deviation_near {l : Float32} {r ε : ℝ} (near : Near l r ε) (small : |r| + ε ≤ 3) :
    Near (l - 1).abs |r - 1| (ε + 1 / 2 ^ 20) := by
  have minusOne : Near (-1) (-1) 0 := by
    simpa using (Near.self (x := 1) rfl).neg
  have positive := abs_nonneg (toReal l - r)
  have triangle := abs_add_le r (-1)
  rw [abs_neg, abs_one] at triangle
  have difference := near.add minusOne (near.add_finite minusOne (by norm_num; linarith))
  rw [← sub_single, ← sub_eq_add_neg] at difference
  refine ⟨(abs_single difference.finite).1, ?_⟩
  rw [toReal_abs difference.finite]
  apply ((abs_abs_sub_abs_le _ _).trans difference.close).trans
  rw [← sub_eq_add_neg] at triangle
  norm_num
  linarith [near.close]

theorem toReal_tenth : toReal 0.1 = 13421773 / 2 ^ 27 := by
  have shape : (0.1 : Float32).toModel.unpack = .finite .positive 13421773 (-27) (by decide) := rfl
  rw [toReal_of_shape shape]
  norm_num [Float.Model.UnpackedFloat.Sign.apply]

theorem isUnit_of_normSq (finite : v.isFinite) (close : |v.normSq - 1| ≤ 1 / 32) : v.IsUnit := by
  obtain ⟨low, high⟩ := abs_le.1 close
  have length := length_near (dot_isFinite finite (by norm_num; linarith)) (by linarith)
  have root : |√v.normSq - 1| ≤ 1 / 32 := by
    have product := abs_sqrt_sub_mul_le v.normSq_nonneg zero_le_one
    rw [Real.sqrt_one, mul_one] at product
    exact product.trans close
  have above := (abs_le.1 root).2
  have deviation := deviation_near length (by
    rw [abs_of_nonneg (Real.sqrt_nonneg _)]
    norm_num
    linarith)
  have most := (abs_le.1 deviation.close).2
  rw [IsUnit, le_iff_toReal deviation.finite rfl, toReal_tenth]
  norm_num at most ⊢
  linarith

/-! ## Scaling to unit length -/

theorem inverse_near {l : Float32} {r : ℝ} (near : Near l r (r / 2 ^ 20)) (low : 1 / 2 ≤ r)
    (high : r ≤ 2 ^ 70) : Near (1 / l) (1 / r) (1 / r / 2 ^ 18) := by
  obtain ⟨below, above⟩ := abs_le.1 near.close
  have size : 0 < r := by linarith
  have positive : 0 < toReal l := by
    norm_num at below
    linarith
  have nonzero : real l ≠ 0 := by
    intro zero
    simp [toReal, zero] at positive
  have inverse : 1 / 2 ^ 70 ≤ 1 / r := one_div_le_one_div_of_le size high
  have most : 1 / r ≤ 2 := by
    rw [div_le_iff₀ size]
    linarith
  have close : |((real 1 / real l : ℚ) : ℝ) - 1 / r| ≤ 1 / r / 2 ^ 19 := by
    have quotient : ((real 1 / real l : ℚ) : ℝ) - 1 / r = (r - toReal l) / (toReal l * r) := by
      rw [real_one, toReal]
      push_cast
      rw [toReal] at positive
      field_simp
    have scaled : 1 / r / 2 ^ 19 * (toReal l * r) = toReal l / 2 ^ 19 := by field_simp
    rw [quotient, abs_div, abs_sub_comm, abs_of_pos (by positivity : 0 < toReal l * r),
      div_le_iff₀ (by positivity), scaled]
    refine near.close.trans ?_
    norm_num at below ⊢
    linarith
  have small : |real 1 / real l| < finiteBound := by
    apply Near.lt_finiteBound close
    rw [abs_of_pos (by positivity)]
    linarith
  apply (Near.of_rounded (.div rfl near.finite nonzero small) close).mono
  rw [abs_of_pos (by positivity)]
  linarith

theorem component_near {c i : Float32} {r : ℝ} (finite : c.isFinite)
    (near : Near i (1 / r) (1 / r / 2 ^ 18)) (positive : 0 < r) (within : |toReal c / r| ≤ 1) :
    Near (c * i) (toReal c / r) (1 / 2 ^ 17) := by
  have exact := Near.self finite
  have size : |toReal c * (1 / r)| = |toReal c| * (1 / r) := by
    rw [abs_mul, abs_of_pos (by positivity : 0 < 1 / r)]
  have error : |toReal c| * (1 / r / 2 ^ 18) = |toReal c| * (1 / r) / 2 ^ 18 := by ring
  rw [← mul_one_div] at within ⊢
  rw [size] at within
  have product := exact.mul near (exact.mul_finite near (by
    rw [size, error]
    linarith))
  apply product.mono
  rw [size, error]
  linarith

/-! ## Vectors near real ones -/

structure IsNear (v : Vec3) (x y z ε : ℝ) : Prop where
  x : Near v.x x ε
  y : Near v.y y ε
  z : Near v.z z ε

namespace IsNear

variable {w : Vec3} {x y z x' y' z' δ ε : ℝ}

theorem isFinite (near : v.IsNear x y z ε) : v.isFinite := by
  simp [Vec3.isFinite, near.x.finite, near.y.finite, near.z.finite]

theorem sq_close {a : Float32} {r : ℝ} (near : Near a r ε) (small : ε ≤ 1 / 2 ^ 12)
    (size : |r| ≤ 2) : |toReal a ^ 2 - r ^ 2| ≤ 1 / 2 ^ 7 / 3 := by
  have product : toReal a ^ 2 - r ^ 2 = (toReal a - r) * (toReal a + r) := by ring
  have sum : |toReal a + r| ≤ 5 := by
    have triangle := abs_add_le (toReal a) r
    have value := near.abs_le
    norm_num at small
    linarith
  rw [product, abs_mul]
  calc |toReal a - r| * |toReal a + r| ≤ 1 / 2 ^ 12 * 5 := by
        gcongr
        exact near.close.trans small
    _ ≤ _ := by norm_num

theorem normSq_close (near : v.IsNear x y z ε) (small : ε ≤ 1 / 2 ^ 12) (hx : |x| ≤ 2)
    (hy : |y| ≤ 2) (hz : |z| ≤ 2) : |v.normSq - (x ^ 2 + y ^ 2 + z ^ 2)| ≤ 1 / 2 ^ 7 := by
  have split : v.normSq - (x ^ 2 + y ^ 2 + z ^ 2) = (toReal v.x ^ 2 - x ^ 2) +
      (toReal v.y ^ 2 - y ^ 2) + (toReal v.z ^ 2 - z ^ 2) := by
    rw [normSq]
    ring
  rw [split]
  apply (abs_add_three _ _ _).trans
  linarith [sq_close near.x small hx, sq_close near.y small hy, sq_close near.z small hz]

theorem abs_le_one {a b c : ℝ} (unit : a ^ 2 + b ^ 2 + c ^ 2 = 1) : |a| ≤ 1 := by
  rw [← sq_le_one_iff_abs_le_one]
  linarith [sq_nonneg b, sq_nonneg c]

theorem components_le_one (unit : x ^ 2 + y ^ 2 + z ^ 2 = 1) : |x| ≤ 1 ∧ |y| ≤ 1 ∧ |z| ≤ 1 :=
  ⟨abs_le_one unit, abs_le_one (by linarith : y ^ 2 + x ^ 2 + z ^ 2 = 1),
    abs_le_one (by linarith : z ^ 2 + x ^ 2 + y ^ 2 = 1)⟩

theorem isUnit (near : v.IsNear x y z ε) (small : ε ≤ 1 / 2 ^ 12)
    (unit : x ^ 2 + y ^ 2 + z ^ 2 = 1) : v.IsUnit := by
  obtain ⟨hx, hy, hz⟩ := components_le_one unit
  have close := near.normSq_close small (by linarith) (by linarith) (by linarith)
  rw [unit] at close
  apply isUnit_of_normSq near.isFinite
  norm_num at close ⊢
  linarith

theorem component_add {a b : Float32} {r r' : ℝ} (left : Near a r ε) (right : Near b r' ε)
    (small : ε ≤ 1 / 2 ^ 17) (hr : |r| ≤ 1) (hr' : |r'| ≤ 1) :
    Near (a + b) (r + r') (1 / 2 ^ 15) := by
  have triangle := abs_add_le r r'
  have sum := left.add right (left.add_finite right (by norm_num at small ⊢; linarith))
  apply sum.mono
  norm_num at small ⊢
  linarith

theorem add (left : v.IsNear x y z ε) (right : w.IsNear x' y' z' ε) (small : ε ≤ 1 / 2 ^ 17)
    (unit : x ^ 2 + y ^ 2 + z ^ 2 = 1) (unit' : x' ^ 2 + y' ^ 2 + z' ^ 2 = 1) :
    (v.add w).IsNear (x + x') (y + y') (z + z') (1 / 2 ^ 15) := by
  obtain ⟨hx, hy, hz⟩ := components_le_one unit
  obtain ⟨hx', hy', hz'⟩ := components_le_one unit'
  exact ⟨component_add left.x right.x small hx hx', component_add left.y right.y small hy hy',
    component_add left.z right.z small hz hz'⟩

end IsNear

/-! ## Normalised vectors -/

theorem direction_unit (large : 1 / 2 ≤ v.normSq) :
    (toReal v.x / √v.normSq) ^ 2 + (toReal v.y / √v.normSq) ^ 2 + (toReal v.z / √v.normSq) ^ 2 =
      1 := by
  rw [div_pow, div_pow, div_pow, Real.sq_sqrt v.normSq_nonneg, ← add_div, ← add_div, ← normSq,
    div_self (by linarith)]

/-- A vector that is not short is scaled to nearly unit length in its direction. -/
theorem normalize_near (finite : (v.dot v).isFinite) (large : 1 / 2 ≤ v.normSq) :
    v.normalize.IsNear (toReal v.x / √v.normSq) (toReal v.y / √v.normSq) (toReal v.z / √v.normSq)
      (1 / 2 ^ 17) := by
  have length := length_near finite large
  have half := half_le_sqrt large
  obtain ⟨finiteSum, finiteZ⟩ := isFinite_of_add_single finite
  obtain ⟨finiteX, finiteY⟩ := isFinite_of_add_single finiteSum
  have most : √v.normSq ≤ 2 ^ 70 := by
    have close := (abs_le.1 (dot_near finite).close).1
    have largest : |toReal (v.dot v)| ≤ 2 ^ 128 - 2 ^ 104 := abs_toReal_le finite
    have top := (abs_le.1 largest).2
    apply Real.sqrt_le_iff.2
    constructor
    · positivity
    · norm_num at close top ⊢
      linarith
  have inverse := inverse_near length half most
  have positive : 0 < √v.normSq := by linarith
  obtain ⟨x, y, z⟩ := IsNear.components_le_one (direction_unit large)
  exact ⟨component_near (isFinite_of_mul_single finiteX).1 inverse positive x,
    component_near (isFinite_of_mul_single finiteY).1 inverse positive y,
    component_near (isFinite_of_mul_single finiteZ).1 inverse positive z⟩

theorem normalize_isUnit (finite : (v.dot v).isFinite) (large : 1 / 2 ≤ v.normSq) :
    v.normalize.isFinite ∧ v.normalize.IsUnit := by
  have near := normalize_near finite large
  exact ⟨near.isFinite, near.isUnit (by norm_num) (direction_unit large)⟩

/-! ## Overflow -/

theorem unpack_sqrt_of_infinite {d : Float32} (infinite : ¬d.isFinite) :
    d.sqrt.toModel.unpack = .infinity .positive ∨ d.sqrt.toModel.unpack = .notANumber := by
  have root : d.sqrt.toModel.unpack = repacked .binary32 (.sqrt .binary32 d.toModel.unpack) := rfl
  change ¬d.toModel.unpack.isFinite = true at infinite
  rw [root]
  cases shape : d.toModel.unpack with
  | finite | zero =>
    rw [shape] at infinite
    exact absurd rfl infinite
  | infinity s =>
    cases s with
    | positive => exact .inl (repacked_infinity _ _)
    | negative => exact .inr (repacked_notANumber _)
  | notANumber => exact .inr (repacked_notANumber _)

/-- The inverse of a root that is infinite is zero, and the one of a root that does not exist is
not finite. -/
theorem inverse_of_infinite {d : Float32} (infinite : ¬d.isFinite)
    (finite : (1 / d.sqrt).isFinite) : real (1 / d.sqrt) = 0 := by
  have shape : (1 : Float32).toModel.unpack = .finite .positive 8388608 (-23) (by decide) := rfl
  have quotient : (1 / d.sqrt).toModel.unpack =
      repacked .binary32 (.div .binary32 (1 : Float32).toModel.unpack d.sqrt.toModel.unpack) := rfl
  change (1 / d.sqrt).toModel.unpack.isFinite = true at finite
  rw [real, quotient, shape]
  rw [quotient, shape] at finite
  rcases unpack_sqrt_of_infinite infinite with root | root
  · rw [root, UnpackedFloat.div, repacked_zero]
    rfl
  · rw [root] at finite
    change (repacked .binary32 .notANumber).isFinite = true at finite
    rw [repacked_notANumber] at finite
    cases finite

theorem real_mul_zero {a b : Float32} (finite : (a * b).isFinite) (zero : real b = 0) :
    real (a * b) = 0 := by
  have rounds := mul_single finite
  rw [zero, mul_zero] at rounds
  exact rounds.unique (.zero _)

theorem real_add_zero {a b : Float32} (finite : (a + b).isFinite) (left : real a = 0)
    (right : real b = 0) : real (a + b) = 0 := by
  have rounds := add_single finite
  rw [left, right, add_zero] at rounds
  exact rounds.unique (.zero _)

theorem sqrt_zero {d : Float32} (finite : d.isFinite) (zero : real d = 0) :
    Near d.sqrt 0 0 := by
  change d.toModel.unpack.isFinite = true at finite
  rw [real] at zero
  suffices root : ∃ s, d.sqrt.toModel.unpack = .zero s by
    obtain ⟨s, root⟩ := root
    constructor
    · change d.sqrt.toModel.unpack.isFinite = true
      rw [root]
      rfl
    · simp [toReal, real, root, value]
  change ∃ s, repacked .binary32 (.sqrt .binary32 d.toModel.unpack) = .zero s
  cases shape : d.toModel.unpack with
  | zero s => exact ⟨s, repacked_zero _ s⟩
  | finite s m e pos =>
    have size := abs_value_finite (s := s) (e := e) pos
    rw [shape] at zero
    rw [zero, abs_zero] at size
    exact absurd size (by positivity)
  | infinity | notANumber =>
    rw [shape] at finite
    cases finite

theorem not_isUnit_of_zero (finite : v.isFinite)
    (zero : real v.x = 0 ∧ real v.y = 0 ∧ real v.z = 0) : ¬v.IsUnit := by
  obtain ⟨x, y, z⟩ := zero
  have dot : (v.dot v).isFinite := by
    apply dot_isFinite finite
    simp [normSq, toReal, x, y, z]
  obtain ⟨finiteSum, finiteZ⟩ := isFinite_of_add_single dot
  obtain ⟨finiteX, finiteY⟩ := isFinite_of_add_single finiteSum
  have sum := real_add_zero finiteSum (real_mul_zero finiteX x) (real_mul_zero finiteY y)
  have length := sqrt_zero dot (real_add_zero dot sum (real_mul_zero finiteZ z))
  have deviation : Near (v.length - 1).abs _ _ := deviation_near length (by norm_num)
  have least := (abs_le.1 deviation.close).1
  rw [IsUnit, le_iff_toReal deviation.finite rfl, toReal_tenth]
  norm_num at least ⊢
  linarith

theorem not_isUnit_of_infinite (infinite : ¬(v.dot v).isFinite) (finite : v.normalize.isFinite) :
    ¬v.normalize.IsUnit := by
  obtain ⟨⟨x, y⟩, z⟩ : (v.normalize.x.isFinite ∧ v.normalize.y.isFinite) ∧
      v.normalize.z.isFinite := by
    simpa [isFinite] using finite
  have inverse := inverse_of_infinite infinite (isFinite_of_mul_single x).2
  exact not_isUnit_of_zero finite ⟨real_mul_zero x inverse, real_mul_zero y inverse,
    real_mul_zero z inverse⟩

end SceneScript.Vec3
