import Mathlib
import SceneScript.Gltf.Assembly
import SceneScript.Proofs.Number.Floats

/-!
# The extremes of points

The least and the greatest components of finite points, found from the ends of the range of numbers
on, are the corners of their box.
-/

namespace SceneScript.Gltf

open Float.Model

theorem floatMax_unpack :
    floatMax.toModel.unpack = .finite .positive (2 ^ 24 - 1) 104 (by decide) := by
  rfl

theorem neg_floatMax_unpack :
    (-floatMax).toModel.unpack = .finite .negative (2 ^ 24 - 1) 104 (by decide) := by
  rfl

theorem unpack_inj {x y : Float32} (same : x.toModel.unpack = y.toModel.unpack) : x = y := by
  apply Float32.toBits_inj.mp
  apply UInt32.toBitVec_inj.mp
  exact (UnpackedFloat.unpack_inj_of_valid x.toModel.valid y.toModel.valid).mp same

theorem lt_iff_compare (x y : Float32) :
    x < y ↔ x.toModel.unpack.compare y.toModel.unpack = some .lt := by
  simp [LT.lt, Float32.lt, Float32.Model.lt, UnpackedFloat.lt]

theorem compare_then_lt {e f : Int} {m n : Nat} (exponents : e ≤ f) (significands : m ≤ n) :
    (compare e f).then (compare m n) = .lt ∨ e = f ∧ m = n := by
  rcases Int.lt_or_eq_of_le exponents with below | rfl
  · left
    rw [compare_lt_iff_lt.mpr below]
    rfl
  · rcases Nat.lt_or_eq_of_le significands with below | rfl
    · left
      rw [compare_lt_iff_lt.mpr below, compare_eq_iff_eq.mpr rfl]
      rfl
    · exact .inr ⟨rfl, rfl⟩

theorem between_floatMax {x : Float32} (finite : x.isFinite) :
    (x < floatMax ∨ x = floatMax) ∧ (-floatMax < x ∨ x = -floatMax) := by
  rw [lt_iff_compare, lt_iff_compare, floatMax_unpack, neg_floatMax_unpack]
  change x.toModel.unpack.isFinite = true at finite
  cases shape : x.toModel.unpack with
  | notANumber => simp [shape, UnpackedFloat.isFinite] at finite
  | infinity => simp [shape, UnpackedFloat.isFinite] at finite
  | zero => exact ⟨.inl rfl, .inl rfl⟩
  | finite sign significand exponent positive =>
    obtain ⟨short, -, low⟩ := Number.unpack_bounded shape
    have ends := compare_then_lt low short
    cases sign with
    | positive =>
      refine ⟨?_, .inl rfl⟩
      rcases ends with below | ⟨rfl, rfl⟩
      · exact .inl (congrArg some below)
      · exact .inr (unpack_inj (shape.trans floatMax_unpack.symm))
    | negative =>
      refine ⟨.inl rfl, ?_⟩
      rcases ends with below | ⟨rfl, rfl⟩
      · left
        show some ((compare (104 : Int) exponent).then
          (compare (2 ^ 24 - 1) significand)).swap = some .lt
        rw [Ordering.swap_then, Int.compare_swap, Nat.compare_swap, below]
      · exact .inr (unpack_inj (shape.trans neg_floatMax_unpack.symm))

theorem smaller32_floatMax {x : Float32} (finite : x.isFinite) :
    Number.smaller32 floatMax x = x := by
  rcases (between_floatMax finite).1 with below | rfl
  · simp [Number.smaller32, below]
  · simp [Number.smaller32]

theorem larger32_neg_floatMax {x : Float32} (finite : x.isFinite) :
    Number.larger32 (-floatMax) x = x := by
  rcases (between_floatMax finite).2 with above | rfl
  · simp [Number.larger32, above]
  · simp [Number.larger32]

/-! ## Boxes -/

theorem foldl_includePoint (points : List Vec3) (b : Bounds) :
    points.foldl Bounds.includePoint b =
      ⟨points.foldl Vec3.min b.min, points.foldl Vec3.max b.max⟩ := by
  induction points generalizing b with
  | nil => rfl
  | cons p points ih => exact ih (b.includePoint p)

theorem ofPoints_eq_range {points : List Vec3} (nonempty : points ≠ [])
    (finite : ∀ p ∈ points, p.isFinite) :
    Bounds.ofPoints points = some ⟨(range points).1, (range points).2⟩ := by
  cases points with
  | nil => contradiction
  | cons p rest =>
    have parts : p.x.isFinite ∧ p.y.isFinite ∧ p.z.isFinite := by
      simpa [Vec3.isFinite, and_assoc] using finite p (by simp)
    have least : Vec3.min ⟨floatMax, floatMax, floatMax⟩ p = p := by
      simp only [Vec3.min, Vec3.zipWith, smaller32_floatMax parts.1,
        smaller32_floatMax parts.2.1, smaller32_floatMax parts.2.2]
    have greatest : Vec3.max ⟨-floatMax, -floatMax, -floatMax⟩ p = p := by
      simp only [Vec3.max, Vec3.zipWith, larger32_neg_floatMax parts.1,
        larger32_neg_floatMax parts.2.1, larger32_neg_floatMax parts.2.2]
    simp only [Bounds.ofPoints, foldl_includePoint, range, List.foldl_cons, least, greatest]

theorem zipWith_isFinite {op : Float32 → Float32 → Float32} (picks : ∀ x y, op x y = x ∨ op x y = y)
    {v w : Vec3} (first : v.isFinite) (second : w.isFinite) : (Vec3.zipWith op v w).isFinite := by
  have component {x y : Float32} (left : x.isFinite) (right : y.isFinite) : (op x y).isFinite := by
    rcases picks x y with same | same <;> rwa [same]
  simp only [Vec3.isFinite, Vec3.zipWith, Bool.and_eq_true] at first second ⊢
  exact ⟨⟨component first.1.1 second.1.1, component first.1.2 second.1.2⟩,
    component first.2 second.2⟩

theorem smaller32_picks (x y : Float32) : Number.smaller32 x y = x ∨ Number.smaller32 x y = y := by
  unfold Number.smaller32
  split_ifs <;> simp

theorem larger32_picks (x y : Float32) : Number.larger32 x y = x ∨ Number.larger32 x y = y := by
  unfold Number.larger32
  split_ifs <;> simp

theorem foldl_zipWith_isFinite {op : Float32 → Float32 → Float32}
    (picks : ∀ x y, op x y = x ∨ op x y = y) {points : List Vec3} {start : Vec3}
    (finite : ∀ p ∈ points, p.isFinite) (first : start.isFinite) :
    (points.foldl (Vec3.zipWith op) start).isFinite := by
  induction points generalizing start with
  | nil => exact first
  | cons p points ih =>
    exact ih (fun q member => finite q (by simp [member]))
      (zipWith_isFinite picks first (finite p (by simp)))

theorem range_isFinite {points : List Vec3} (finite : ∀ p ∈ points, p.isFinite) :
    (range points).1.isFinite ∧ (range points).2.isFinite :=
  ⟨foldl_zipWith_isFinite smaller32_picks finite (by decide +kernel),
    foldl_zipWith_isFinite larger32_picks finite (by decide +kernel)⟩

end SceneScript.Gltf
