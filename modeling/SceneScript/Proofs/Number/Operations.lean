import Mathlib
import SceneScript.Proofs.Number.Arithmetic

/-!
# Operations in single precision

What the operations on finite numbers give is the number that the exact result is rounded to
(`Rounded`), as long as that is less than `finiteBound`. The number that is rounded to is off by a
small part of the exact one and a bit of the least number that there is (`Rounds.error`).
-/

namespace SceneScript.Number

open Float.Model UnpackedFloat

/-! ## Numbers that are rounded to finite ones -/

/-- The middle between the largest number and the power of two behind it. -/
def finiteBound : ℚ := 2 ^ 128 - 2 ^ 103

theorem representable_largest : Representable .binary32 (2 ^ 128 - 2 ^ 104) := by
  refine ⟨2 ^ 24 - 1, 104, by decide, by decide, ?_⟩
  norm_num

theorem Rounds.lt_overflow {q v : ℚ} (rounds : Rounds .binary32 q v) (small : q < finiteBound) :
    v < overflow .binary32 := by
  have top : overflow .binary32 = 2 ^ 128 := rfl
  rw [finiteBound] at small
  rw [top]
  rcases le_or_gt q (2 ^ 128 - 2 ^ 104) with below | above
  · have le := rounds.mono (.self representable_largest) below
    linarith
  · by_contra! large
    have nearest := (rounds.nearest representable_largest).1
    rw [abs_of_nonpos (by linarith), abs_of_pos (by linarith)] at nearest
    linarith

theorem RoundsTo.isFinite {s : Sign} {q : ℚ} {x : UnpackedFloat}
    (rounds : RoundsTo .binary32 s q x) (small : q < finiteBound) : x.isFinite = true := by
  cases rounds with
  | zero | finite => rfl
  | infinite rounds large => exact absurd (rounds.lt_overflow small) large.not_gt

theorem abs_value_finite {s : Sign} {m : ℕ} {e : ℤ} (pos : 0 < m) :
    |value (.finite s m e pos)| = m * 2 ^ e := by
  have size : (0 : ℚ) < m * 2 ^ e := by positivity
  rw [value_finite]
  cases s with
  | positive => simp [Sign.apply, abs_of_pos size]
  | negative => simp [Sign.apply, abs_of_pos size]

theorem normalize_isFinite {n e : ℤ} (small : |(n : ℚ) * 2 ^ e| < finiteBound) :
    (repacked .binary32 (UnpackedFloat.normalize .binary32 n e .positive)).isFinite = true := by
  have unit : (0 : ℚ) < 2 ^ e := by positivity
  rw [abs_mul, abs_of_pos unit, ← Int.cast_abs] at small
  rw [UnpackedFloat.normalize]
  rcases order : compare n 0 with _ | _ | _
  · have negative := compare_lt_iff_lt.1 order
    have size : (((-n).toNat : ℕ) : ℚ) = (|n| : ℤ) := by
      rw [abs_of_neg negative]
      exact_mod_cast Int.toNat_of_nonneg (by omega)
    apply (round_roundsTo (by decide) (by omega) .negative).isFinite
    rwa [size]
  · dsimp only
    rw [repacked_zero]
    rfl
  · have positive := compare_gt_iff_gt.1 order
    have size : ((n.toNat : ℕ) : ℚ) = (|n| : ℤ) := by
      rw [abs_of_pos positive]
      exact_mod_cast Int.toNat_of_nonneg (by omega)
    apply (round_roundsTo (by decide) (by omega) .positive).isFinite
    rwa [size]

theorem Rounds.pos_iff {q v : ℚ} (rounds : Rounds .binary32 q v) : 0 < v ↔ 1 / 2 ^ 150 < q := by
  have least : Representable .binary32 (1 / 2 ^ 149) :=
    ⟨1, -149, by decide, by decide, by norm_num⟩
  constructor
  · intro positive
    by_contra! small
    have place : lastPlace .binary32 (1 / 2 ^ 150) = -149 := by
      have dyadic := lastPlace_dyadic (f := .binary32) (m := 1) (e := -150) (by decide)
      norm_num at dyadic ⊢
      rw [dyadic]
      decide
    have tie : Rounds .binary32 (1 / 2 ^ 150) 0 := by
      refine ⟨0, ?_, by simp⟩
      rw [place]
      norm_num [NearestEven]
    exact (rounds.mono tie small).not_gt positive
  · intro more
    rcases le_or_gt (1 / 2 ^ 149) q with above | below
    · have le := Rounds.mono (.self least) rounds above
      exact lt_of_lt_of_le (by norm_num) le
    · by_contra! negative
      have nearest := (rounds.nearest least).1
      rw [abs_of_nonneg (by linarith), abs_of_neg (by linarith)] at nearest
      linarith

theorem Rounds.error {q v : ℚ} (rounds : Rounds .binary32 q v) :
    |v - q| ≤ |q| / 2 ^ 24 + 1 / 2 ^ 150 := by
  by_cases zero : q = 0
  · rw [zero] at rounds ⊢
    rw [rounds.unique (.zero _)]
    norm_num
  have away := le_abs_of_lastPlace (f := .binary32) (q := q)
  have least := minExponent_le_lastPlace .binary32 q
  obtain ⟨n, near, rfl⟩ := rounds
  have unit : (0 : ℚ) < 2 ^ lastPlace .binary32 q := by positivity
  have half : |n * 2 ^ lastPlace .binary32 q - q| ≤ 1 / 2 * 2 ^ lastPlace .binary32 q := by
    rw [abs_sub_comm, abs_sub_grid]
    exact mul_le_mul_of_nonneg_right near.1 unit.le
  generalize lastPlace .binary32 q = t at *
  have bottom : Format.binary32.minExponent = -149 := rfl
  have digits : Format.binary32.mantissaBits = 24 := rfl
  rw [bottom] at least away
  have size := abs_nonneg q
  rcases least.eq_or_lt with rfl | above
  · norm_num at half ⊢
    linarith
  · have large := away above zero
    have split : t + (24 : ℕ) - 1 = t + 23 := by omega
    rw [digits, split, zpow_add₀ two_ne_zero] at large
    norm_num at large ⊢
    linarith

/-! ## Rounded results -/

structure Rounded (z : Float32) (q : ℚ) : Prop where
  finite : z.isFinite
  rounds : Rounds .binary32 q (real z)

variable {x y : Float32}

theorem repacked_single (x : Float32) : repacked .binary32 x.toModel.unpack = x.toModel.unpack :=
  unpack_pack_unpack _ (by decide)

theorem abs_real_le (finite : x.isFinite) : |real x| ≤ 2 ^ 128 - 2 ^ 104 := by
  change x.toModel.unpack.isFinite = true at finite
  rw [real]
  cases shape : x.toModel.unpack with
  | finite s m e pos =>
    obtain ⟨short, -, high⟩ := unpack_bounded shape
    have digits : (m : ℚ) ≤ (2 ^ 24 - 1 : ℕ) := by exact_mod_cast short
    rw [abs_value_finite]
    calc (m : ℚ) * 2 ^ e ≤ (2 ^ 24 - 1 : ℕ) * 2 ^ (104 : ℤ) := by
          gcongr
          exact one_le_two
      _ = 2 ^ 128 - 2 ^ 104 := by norm_num
  | zero =>
    norm_num [value]
  | infinity | notANumber =>
    rw [shape] at finite
    cases finite

theorem add_finite (left : x.isFinite) (right : y.isFinite)
    (small : |real x + real y| < finiteBound) : (x + y).isFinite := by
  change (repacked .binary32 (.add .binary32 x.toModel.unpack y.toModel.unpack)).isFinite = true
  have same := repacked_single x
  have same' := repacked_single y
  simp only [real] at small
  change x.toModel.unpack.isFinite = true at left
  change y.toModel.unpack.isFinite = true at right
  generalize x.toModel.unpack = x at *
  generalize y.toModel.unpack = y at *
  match x, y with
  | .zero s, .zero t =>
    rw [UnpackedFloat.add]
    split_ifs
    · rw [repacked_zero]
      rfl
    · rw [repacked_zero]
      rfl
  | .zero s, .finite t m e pos =>
    change (repacked .binary32 (.finite t m e pos)).isFinite = true
    rw [same']
    rfl
  | .finite s m e pos, .zero t =>
    change (repacked .binary32 (.finite s m e pos)).isFinite = true
    rw [same]
    rfl
  | .finite s m e pos, .finite s' m' e' pos' =>
    apply normalize_isFinite
    rw [Int.cast_add, add_mul, shiftLeft_value s m (min_le_left e e'),
      shiftLeft_value s' m' (min_le_right e e')]
    exact small

theorem mul_finite (left : x.isFinite) (right : y.isFinite)
    (small : |real x * real y| < finiteBound) : (x * y).isFinite := by
  change (repacked .binary32 (.mul .binary32 x.toModel.unpack y.toModel.unpack)).isFinite = true
  have canonical := canonical_single x
  have canonical' := canonical_single y
  rw [abs_mul, real, real] at small
  change x.toModel.unpack.isFinite = true at left
  change y.toModel.unpack.isFinite = true at right
  generalize x.toModel.unpack = x at *
  generalize y.toModel.unpack = y at *
  match x, y with
  | .zero s, .zero t | .zero s, .finite t m e pos | .finite s m e pos, .zero t =>
    rw [UnpackedFloat.mul, repacked_zero]
    rfl
  | .finite s m e pos, .finite s' m' e' pos' =>
    apply (mul_roundsTo (by decide)
      (exponents_le_lastPlace (by decide) canonical canonical')).isFinite
    rw [abs_value_finite, abs_value_finite] at small
    rw [zpow_add₀ two_ne_zero]
    push_cast
    linarith

theorem Rounded.mul (left : x.isFinite) (right : y.isFinite)
    (small : |real x * real y| < finiteBound) : Rounded (x * y) (real x * real y) :=
  have finite := mul_finite left right small
  ⟨finite, mul_single finite⟩

theorem add_finite_of_le_one (left : x.isFinite) (right : y.isFinite)
    (small : |real x| ≤ 1 ∨ |real y| ≤ 1) : (x + y).isFinite := by
  have triangle := abs_add_le (real x) (real y)
  have largestX := abs_real_le left
  have largestY := abs_real_le right
  apply add_finite left right
  rw [finiteBound]
  rcases small with small | small <;> linarith

theorem mul_finite_of_le_one (left : x.isFinite) (right : y.isFinite)
    (small : |real x| ≤ 1 ∨ |real y| ≤ 1) : (x * y).isFinite := by
  have largestX := abs_real_le left
  have largestY := abs_real_le right
  apply mul_finite left right
  rw [finiteBound, abs_mul]
  rcases small with small | small
  · linarith [mul_le_of_le_one_left (abs_nonneg (real y)) small]
  · linarith [mul_le_of_le_one_right (abs_nonneg (real x)) small]

theorem sign_div (s t : Sign) : (s / t).apply 1 = s.apply 1 * t.apply 1 := by
  cases s <;> cases t <;> rfl

theorem Rounded.div (left : x.isFinite) (right : y.isFinite) (nonzero : real y ≠ 0)
    (small : |real x / real y| < finiteBound) : Rounded (x / y) (real x / real y) := by
  suffices both : (repacked .binary32 (.div .binary32 x.toModel.unpack y.toModel.unpack)).isFinite =
      true ∧ Rounds .binary32 (real x / real y)
        (value (repacked .binary32 (.div .binary32 x.toModel.unpack y.toModel.unpack))) from
    ⟨both.1, both.2⟩
  rw [real, real] at *
  change x.toModel.unpack.isFinite = true at left
  change y.toModel.unpack.isFinite = true at right
  generalize x.toModel.unpack = x at *
  generalize y.toModel.unpack = y at *
  match x, y with
  | .zero s, .zero t | .finite s m e pos, .zero t => exact absurd rfl nonzero
  | .zero s, .finite t m e pos =>
    rw [UnpackedFloat.div, repacked_zero]
    constructor
    · rfl
    · simpa [value] using Rounds.zero .binary32
  | .finite s m e pos, .finite s' m' e' pos' =>
    have rounds : RoundsTo .binary32 (s / s') (m * 2 ^ e / (m' * 2 ^ e')) (repacked .binary32
        (.div .binary32 (.finite s m e pos) (.finite s' m' e' pos'))) := div_roundsTo (by decide)
    rw [abs_div, abs_value_finite, abs_value_finite] at small
    have finite := rounds.isFinite small
    have quotient : (((s / s').apply 1 : ℤ) : ℚ) * (m * 2 ^ e / (m' * 2 ^ e')) =
        value (.finite s m e pos) / value (.finite s' m' e' pos') := by
      rw [sign_div, value_finite, value_finite]
      cases s <;> cases s' <;> simp [Sign.apply, neg_div, div_neg]
    exact ⟨finite, quotient ▸ rounds.value finite⟩

theorem unpack_neg_single (x : Float32) : (-x).toModel.unpack = x.toModel.unpack.neg :=
  unpack_pack_neg _ (by decide)

theorem isFinite_neg_single (x : Float32) : (-x).isFinite = x.isFinite := by
  change (-x).toModel.unpack.isFinite = x.toModel.unpack.isFinite
  rw [unpack_neg_single]
  cases x.toModel.unpack <;> rfl

theorem real_neg (x : Float32) : real (-x) = -real x := by
  rw [real, real, unpack_neg_single]
  cases x.toModel.unpack with
  | finite s m e pos => cases s <;> simp [UnpackedFloat.neg, value, Sign.apply]
  | zero | infinity | notANumber => simp [UnpackedFloat.neg, value]

theorem sub_unpacked (f : Format) (x y : UnpackedFloat) :
    UnpackedFloat.sub f x y = UnpackedFloat.add f x y.neg := by
  have opposite (s : Sign) (m : ℤ) : (-s).apply m = -s.apply m := by
    cases s
    · exact (neg_neg m).symm
    · rfl
  cases x <;> cases y <;> try rfl
  simp only [UnpackedFloat.sub, UnpackedFloat.add, UnpackedFloat.neg, opposite, sub_eq_add_neg]

theorem sub_single (x y : Float32) : x - y = x + -y := by
  change Float32.ofModel (.pack (.sub .binary32 x.toModel.unpack y.toModel.unpack)) =
    .ofModel (.pack (.add .binary32 x.toModel.unpack (-y).toModel.unpack))
  rw [sub_unpacked, unpack_neg_single]

theorem abs_single (finite : x.isFinite) : x.abs.isFinite ∧ real x.abs = |real x| := by
  change (repacked .binary32 x.toModel.unpack.abs).isFinite = true ∧
    value (repacked .binary32 x.toModel.unpack.abs) = |value x.toModel.unpack|
  have same := repacked_single x
  have opposite : repacked .binary32 x.toModel.unpack.neg = x.toModel.unpack.neg :=
    unpack_neg_single x
  change x.toModel.unpack.isFinite = true at finite
  generalize x.toModel.unpack = x at *
  cases x with
  | zero s =>
    rw [UnpackedFloat.abs, repacked_zero]
    simp [value, UnpackedFloat.isFinite]
  | finite s m e pos =>
    have absolute : repacked .binary32 (.finite .positive m e pos) = .finite .positive m e pos := by
      cases s with
      | negative => exact opposite
      | positive => exact same
    rw [UnpackedFloat.abs, absolute, abs_value_finite, value_finite]
    simp [Sign.apply, UnpackedFloat.isFinite]
  | infinity | notANumber => cases finite

/-! ## Conversions -/

theorem Rounded.ofIndex {n : ℕ} (small : n < 2 ^ 32) :
    Rounded (UInt32.ofNat n).toFloat32 n := by
  have whole : (UInt32.ofNat n).toNat = n := UInt32.toNat_ofNat_of_lt' small
  have size : (n : ℚ) < 2 ^ 32 := by exact_mod_cast small
  have finite : (repacked .binary32 (UnpackedFloat.normalize .binary32 n 0 .positive)).isFinite =
      true := by
    apply normalize_isFinite
    rw [finiteBound, zpow_zero, mul_one, Int.cast_natCast, abs_of_nonneg (Nat.cast_nonneg n)]
    linarith
  have rounds := normalize_rounds (by decide) finite
  rw [zpow_zero, mul_one, Int.cast_natCast] at rounds
  constructor
  · change (repacked .binary32 (.normalize .binary32 (UInt32.ofNat n).toNat 0 .positive)).isFinite =
      true
    rwa [whole]
  · change Rounds .binary32 n
      (value (repacked .binary32 (.normalize .binary32 (UInt32.ofNat n).toNat 0 .positive)))
    rwa [whole]

theorem Rounded.narrow {x : Float} (finite : x.isFinite) (narrowed : (narrow x).isFinite) :
    Rounded (narrow x) (value x.toModel.unpack) := by
  refine ⟨narrowed, ?_⟩
  change x.toModel.unpack.isFinite = true at finite
  change (Number.narrow x).toModel.unpack.isFinite = true at narrowed
  rw [real]
  cases shape : x.toModel.unpack with
  | finite s m e pos =>
    have is : (Number.narrow x).toModel = .pack (.round .binary32 s m e) := by
      simp only [Number.narrow, shape]
    rw [is] at narrowed ⊢
    have rounds := round_roundsTo (f := .binary32) (e := e) (by decide) pos s
    rw [value_finite]
    exact rounds.value narrowed
  | zero s =>
    have is : (Number.narrow x).toModel = .pack (.zero s) := by
      simp only [Number.narrow, shape]
    rw [is]
    have zero : (Float32.Model.pack (.zero s)).unpack = .zero s := unpack_packedZero
    rw [zero]
    exact Rounds.zero .binary32
  | infinity | notANumber =>
    rw [shape] at finite
    cases finite

theorem value_pos {y : Float} (finite : y.isFinite) (positive : ¬y ≤ 0) :
    0 < value y.toModel.unpack := by
  have is : y ≤ 0 ↔
      (y.toModel.unpack.compare (0 : Float).toModel.unpack).any (·.isLE) = true :=
    decide_eq_true_iff
  have zero : (0 : Float).toModel.unpack = .zero .positive := rfl
  change y.toModel.unpack.isFinite = true at finite
  rw [is, zero] at positive
  cases shape : y.toModel.unpack with
  | finite s m e pos =>
    rw [shape] at positive
    cases s with
    | positive =>
      rw [value_finite]
      simp only [Sign.apply, Int.cast_one, one_mul]
      positivity
    | negative => exact absurd rfl positive
  | zero s =>
    rw [shape] at positive
    exact absurd rfl positive
  | infinity | notANumber =>
    rw [shape] at finite
    cases finite

end SceneScript.Number
