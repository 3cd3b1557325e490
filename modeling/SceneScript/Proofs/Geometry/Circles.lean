import Mathlib
import SceneScript.Geometry.Primitive
import SceneScript.Proofs.Number.Errors

/-!
# Points of a circle

The angle of a point is near the part of a turn that it stands for (`Primitive.angle_near`). Its
cosine and sine come from the platform. Here they may come from anywhere, and what is said of them
holds if they are accurate (`Trigonometry.Accurate`), as there are functions that are
(`Trigonometry.rounded_accurate`).
-/

namespace SceneScript

open Number Float.Model UnpackedFloat

/-! ## Cosine and sine -/

structure Trigonometry where
  cos : Float32 → Float32
  sin : Float32 → Float32

namespace Trigonometry

def platform : Trigonometry := ⟨Float32.cos, Float32.sin⟩

/-- A function computed in single precision for angles of up to a bit more than a turn. It is off by
some units in the last place, and no result is greater than one. -/
structure Follows (f : Float32 → Float32) (g : ℝ → ℝ) : Prop where
  near : ∀ x, x.isFinite → |toReal x| ≤ 7 → Near (f x) (g (toReal x)) (1 / 2 ^ 20)
  le_one : ∀ x, x.isFinite → |toReal x| ≤ 7 → |toReal (f x)| ≤ 1

structure Accurate (t : Trigonometry) : Prop where
  cos : Follows t.cos Real.cos
  sin : Follows t.sin Real.sin

/-! ## Functions that are accurate -/

/-- About a millionth. -/
def step : Float32 := Float32.ofBits 0x35800000

noncomputable def lower (r : ℝ) : Float32 :=
  let size := (UInt32.ofNat ⌊r * 2 ^ 20⌋.natAbs).toFloat32 * step
  if ⌊r * 2 ^ 20⌋ < 0 then -size else size

noncomputable def rounded : Trigonometry :=
  ⟨fun x => lower (Real.cos (toReal x)), fun x => lower (Real.sin (toReal x))⟩

theorem steps_exact {k : ℕ} (few : k ≤ 2 ^ 20) :
    ((UInt32.ofNat k).toFloat32 * step).isFinite ∧
      toReal ((UInt32.ofNat k).toFloat32 * step) = k / 2 ^ 20 := by
  have most : (k : ℚ) * (1 / 2 ^ 20) ≤ 1 := by
    rw [mul_one_div, div_le_one (by positivity)]
    exact_mod_cast few
  have short : |(k : ℤ)| < 2 ^ Format.binary32.mantissaBits := by
    rw [Nat.abs_cast]
    exact_mod_cast few.trans_lt (by decide)
  have whole : Representable .binary32 k := ⟨k, 0, short, by decide, by simp⟩
  have product : Representable .binary32 (k * (1 / 2 ^ 20)) :=
    ⟨k, -20, short, by decide, by norm_num⟩
  have index := Rounded.ofIndex (few.trans_lt (by decide : 2 ^ 20 < 2 ^ 32))
  have count : real (UInt32.ofNat k).toFloat32 = k := index.rounds.unique (.self whole)
  have unit : real step = 1 / 2 ^ 20 := by
    have shape : step.toModel.unpack = .finite .positive 8388608 (-43) (by decide) := rfl
    rw [real, shape, value_finite]
    norm_num [Sign.apply]
  have rounded := Rounded.mul index.finite (rfl : step.isFinite = true) (by
    rw [count, unit, abs_of_nonneg (by positivity)]
    exact most.trans_lt (by norm_num [finiteBound]))
  rw [count, unit] at rounded
  refine ⟨rounded.finite, ?_⟩
  rw [toReal, rounded.rounds.unique (.self product)]
  push_cast
  ring

theorem lower_exact {r : ℝ} (small : |r| ≤ 1) :
    (lower r).isFinite ∧ toReal (lower r) = ⌊r * 2 ^ 20⌋ / 2 ^ 20 ∧
      |(⌊r * 2 ^ 20⌋ : ℝ)| ≤ 2 ^ 20 := by
  obtain ⟨low, high⟩ := abs_le.1 small
  have least : -2 ^ 20 ≤ ⌊r * 2 ^ 20⌋ := by
    apply Int.le_floor.2
    push_cast
    linarith
  have most : ⌊r * 2 ^ 20⌋ ≤ 2 ^ 20 := by
    apply Int.lt_add_one_iff.1 (Int.floor_lt.2 _)
    push_cast
    linarith
  obtain ⟨finite, value⟩ := steps_exact (k := ⌊r * 2 ^ 20⌋.natAbs) (by omega)
  rw [lower]
  generalize ⌊r * 2 ^ 20⌋ = k at *
  have size : |(k : ℝ)| ≤ 2 ^ 20 := by exact_mod_cast abs_le.2 ⟨least, most⟩
  rw [Nat.cast_natAbs] at value
  split_ifs with negative
  · rw [abs_of_neg negative] at value
    rw [isFinite_neg_single, toReal_neg, value]
    exact ⟨finite, by push_cast; ring, size⟩
  · rw [abs_of_nonneg (not_lt.1 negative)] at value
    exact ⟨finite, value, size⟩

theorem follows_lower {g : ℝ → ℝ} (small : ∀ a, |g a| ≤ 1) :
    Follows (fun x => lower (g (toReal x))) g where
  near x _ _ := by
    obtain ⟨finite, value, -⟩ := lower_exact (small (toReal x))
    refine ⟨finite, ?_⟩
    have low := Int.floor_le (g (toReal x) * 2 ^ 20)
    have high := Int.lt_floor_add_one (g (toReal x) * 2 ^ 20)
    rw [value, abs_le]
    generalize ⌊g (toReal x) * 2 ^ 20⌋ = k at *
    norm_num at low high ⊢
    constructor <;> linarith
  le_one x _ _ := by
    obtain ⟨-, value, size⟩ := lower_exact (small (toReal x))
    rw [value, abs_div, abs_of_pos (by positivity : (0 : ℝ) < 2 ^ 20)]
    exact (div_le_one (by positivity)).2 size

theorem rounded_accurate : rounded.Accurate :=
  ⟨follows_lower Real.abs_cos_le_one, follows_lower Real.abs_sin_le_one⟩

end Trigonometry

/-! ## Angles -/

namespace Primitive

theorem index_near {i : ℕ} (fits : i < 2 ^ 32) :
    Near (ofIndex i) i (i / 2 ^ 24 + 1 / 2 ^ 150) := by
  have near := Near.of_rounded (ε := 0) (r := i) (Rounded.ofIndex fits) (by simp)
  apply near.mono
  rw [Nat.abs_cast]
  linarith

theorem pi_digits : |(13176795 / 2 ^ 22 : ℝ) - Real.pi| ≤ 1 / 2 ^ 22 := by
  have low := Real.pi_gt_d20
  have high := Real.pi_lt_d20
  rw [abs_le]
  norm_num at *
  constructor <;> linarith

theorem pi_near : Near pi Real.pi (1 / 2 ^ 21) := by
  have shape : pi.toModel.unpack = .finite .positive 13176795 (-22) (by decide) := rfl
  have value : toReal pi = 13176795 / 2 ^ 22 := by
    rw [toReal_of_shape shape]
    norm_num [Sign.apply]
  refine ⟨rfl, ?_⟩
  rw [value]
  linarith [pi_digits]

theorem tau_near : Near tau (2 * Real.pi) (1 / 2 ^ 21) := by
  have shape : tau.toModel.unpack = .finite .positive 13176795 (-21) (by decide) := rfl
  have value : toReal tau = 2 * (13176795 / 2 ^ 22) := by
    rw [toReal_of_shape shape]
    norm_num [Sign.apply]
  refine ⟨rfl, ?_⟩
  rw [value, ← mul_sub, abs_mul, abs_two]
  linarith [pi_digits]

section

variable {c p : Float32} {turn : ℝ} {i n : ℕ}

theorem part_le (some : 0 < n) (within : i ≤ n) (positive : 0 ≤ turn) :
    0 ≤ turn * i / n ∧ turn * i / n ≤ turn := by
  have size : (0 : ℝ) < n := by exact_mod_cast some
  have within : (i : ℝ) ≤ n := by exact_mod_cast within
  constructor
  · positivity
  · rw [div_le_iff₀ size]
    gcongr

theorem part_near (some : 0 < n) (fits : n < 2 ^ 32) (within : i ≤ n) (positive : 0 ≤ turn)
    (small : turn ≤ 7) (near : Near p (turn * i) (n / 2 ^ 19)) :
    Near (p / ofIndex n) (turn * i / n) (1 / 2 ^ 17) := by
  obtain ⟨finite, steps⟩ := index_near fits
  obtain ⟨low, high⟩ := abs_le.1 steps
  obtain ⟨partLow, partHigh⟩ := part_le some within positive
  have one : (1 : ℝ) ≤ n := by exact_mod_cast some
  have product : turn * i / n * n = turn * i := div_mul_cancel₀ _ (by positivity)
  have scaled : turn * i / n * |toReal (ofIndex n) - n| ≤ 7 * (n / 2 ^ 24 + 1 / 2 ^ 150) := by
    gcongr
    linarith
  have divisor : 0 < toReal (ofIndex n) := by
    norm_num at low
    linarith
  have nonzero : real (ofIndex n) ≠ 0 := by
    intro zero
    simp [toReal, zero] at divisor
  generalize turn * i / n = r at *
  have close : |((real p / real (ofIndex n) : ℚ) : ℝ) - r| ≤ 1 / 2 ^ 18 := by
    -- The error of the quotient is that of the product, less what the divisor is off.
    have quotient : ((real p / real (ofIndex n) : ℚ) : ℝ) - r =
        ((toReal p - turn * i) - r * (toReal (ofIndex n) - n)) / toReal (ofIndex n) := by
      rw [← product, toReal, toReal]
      push_cast
      rw [toReal] at divisor
      field_simp
      ring
    rw [quotient, abs_div, abs_of_pos divisor, div_le_iff₀ divisor]
    apply (abs_sub _ _).trans
    rw [abs_mul, abs_of_nonneg partLow]
    have close := near.close
    norm_num at low scaled close ⊢
    linarith
  have bounded := Near.lt_finiteBound close (by
    rw [abs_of_nonneg partLow]
    norm_num
    linarith)
  apply (Near.of_rounded (.div near.finite finite nonzero bounded) close).mono
  rw [abs_of_nonneg partLow]
  norm_num
  linarith

theorem arc_near (some : 0 < n) (fits : n < 2 ^ 32) (within : i ≤ n) (positive : 0 ≤ turn)
    (small : turn ≤ 7) (near : Near c turn (1 / 2 ^ 21)) :
    Near (c * ofIndex i / ofIndex n) (turn * i / n) (1 / 2 ^ 17) ∧
      Near (ofIndex i * c / ofIndex n) (turn * i / n) (1 / 2 ^ 17) := by
  have index := index_near (within.trans_lt fits)
  have one : (1 : ℝ) ≤ n := by exact_mod_cast some
  have top : (n : ℝ) ≤ 4294967296 := by exact_mod_cast fits.le
  have within' : (i : ℝ) ≤ n := by exact_mod_cast within
  have least : (0 : ℝ) ≤ i := by positivity
  have productHigh : turn * i ≤ 7 * n := by gcongr
  have productLow : 0 ≤ turn * i := by positivity
  have product : Near (c * ofIndex i) (turn * i) (n / 2 ^ 19) ∧
      Near (ofIndex i * c) (turn * i) (n / 2 ^ 19) := by
    apply near.mul_either index
    · rw [abs_of_nonneg productLow, abs_of_nonneg positive, abs_of_nonneg least]
      norm_num
      linarith
    · rw [abs_of_nonneg productLow, abs_of_nonneg positive, abs_of_nonneg least]
      norm_num
      linarith
  exact ⟨part_near some fits within positive small product.1,
    part_near some fits within positive small product.2⟩

end

end Primitive

/-! ## Points -/

structure OnCircle (p : Float32 × Float32) (a : ℝ) : Prop where
  cos : Near p.1 (Real.cos a) (1 / 2 ^ 20)
  sin : Near p.2 (Real.sin a) (1 / 2 ^ 20)
  cos_le : |toReal p.1| ≤ 1
  sin_le : |toReal p.2| ≤ 1

namespace Trigonometry

variable {t : Trigonometry} {i n : ℕ}

def pointAt (t : Trigonometry) (x : Float32) : Float32 × Float32 :=
  (t.cos x, t.sin x)

def circlePoint (t : Trigonometry) (i n : ℕ) : Float32 × Float32 :=
  t.pointAt (Primitive.ofIndex i * Primitive.tau / Primitive.ofIndex n)

theorem Accurate.pointAt (accurate : t.Accurate) {x : Float32} {turn : ℝ}
    (near : Near x (turn * i / n) (1 / 2 ^ 17)) (some : 0 < n) (within : i ≤ n)
    (positive : 0 ≤ turn) (small : turn ≤ 2 * Real.pi) :
    OnCircle (t.pointAt x) (toReal x) := by
  have size : |toReal x| ≤ 7 := by
    obtain ⟨low, high⟩ := Primitive.part_le some within positive
    have most := near.abs_le
    have circle := Real.pi_lt_d2
    rw [abs_of_nonneg low] at most
    norm_num at most circle
    linarith
  exact ⟨accurate.cos.near x near.finite size, accurate.sin.near x near.finite size,
    accurate.cos.le_one x near.finite size, accurate.sin.le_one x near.finite size⟩

theorem two_pi_le : 2 * Real.pi ≤ 7 := by
  have := Real.pi_lt_d2
  norm_num at this
  linarith

theorem Accurate.circlePoint (accurate : t.Accurate) (some : 0 < n) (fits : n < 2 ^ 32)
    (within : i ≤ n) :
    ∃ a, |a - 2 * Real.pi * i / n| ≤ 1 / 2 ^ 17 ∧ OnCircle (t.circlePoint i n) a := by
  have near := (Primitive.arc_near some fits within Real.two_pi_pos.le two_pi_le
    Primitive.tau_near).2
  exact ⟨_, near.close, accurate.pointAt near some within Real.two_pi_pos.le le_rfl⟩

theorem cos_next {a b : ℝ} (sectors : 3 ≤ n) (first : |a - 2 * Real.pi * i / n| ≤ 1 / 2 ^ 17)
    (second : |b - 2 * Real.pi * (i + 1 : ℕ) / n| ≤ 1 / 2 ^ 17) :
    -(51 / 100) ≤ Real.cos (b - a) := by
  have circle := Real.pi_gt_d2
  have many : (3 : ℝ) ≤ n := by exact_mod_cast sectors
  have step : 2 * Real.pi * (i + 1 : ℕ) / n - 2 * Real.pi * i / n = 2 * Real.pi / n := by
    push_cast
    ring
  have most : 2 * Real.pi / n ≤ 2 * Real.pi / 3 := by gcongr
  have least : 0 ≤ 2 * Real.pi / n := by positivity
  have apart : |b - a| ≤ 2 * Real.pi / 3 + 1 / 2 ^ 16 := by
    obtain ⟨lowA, highA⟩ := abs_le.1 first
    obtain ⟨lowB, highB⟩ := abs_le.1 second
    rw [abs_le]
    norm_num at *
    constructor <;> linarith
  have third : Real.cos (2 * Real.pi / 3) = -(1 / 2) := by
    rw [← Real.cos_pi_div_three, ← Real.cos_pi_sub]
    congr 1
    ring
  -- With both errors the angles are at most a third of a turn and a little more apart.
  have beyond : -(51 / 100) ≤ Real.cos (2 * Real.pi / 3 + 1 / 2 ^ 16) := by
    have sine := Real.sin_le (by positivity : (0 : ℝ) ≤ 1 / 2 ^ 16)
    have sine' := Real.sin_nonneg_of_nonneg_of_le_pi (by positivity : (0 : ℝ) ≤ 1 / 2 ^ 16)
      (by norm_num at circle ⊢; linarith)
    have cosine := Real.cos_le_one (1 / 2 ^ 16)
    have product := mul_le_mul (Real.sin_le_one (2 * Real.pi / 3)) sine sine' zero_le_one
    rw [Real.cos_add, third]
    norm_num at *
    linarith
  rw [← Real.cos_abs]
  apply beyond.trans (Real.cos_le_cos_of_nonneg_of_le_pi (abs_nonneg _) _ apart)
  norm_num at circle ⊢
  linarith

end Trigonometry

end SceneScript
