import Mathlib
import SceneScript.Proofs.Number.Operations

/-!
# Errors in single precision

How far the results of operations on numbers in single precision are from real numbers: each
operation adds a small part of its result to the errors of its operands (`Near`). A square root is
the one operation whose exact result is no rational number (`sqrt_near`).
-/

namespace SceneScript.Number

open Float.Model UnpackedFloat

/-! ## Real values -/

noncomputable def toReal (x : Float32) : ℝ :=
  (real x : ℚ)

variable {x y z : Float32} {q : ℚ} {a b r δ ε η : ℝ}

@[simp]
theorem toReal_neg (x : Float32) : toReal (-x) = -toReal x := by
  simp [toReal, real_neg]

theorem lt_iff_toReal (left : x.isFinite) (right : y.isFinite) : x < y ↔ toReal x < toReal y := by
  rw [lt_iff_real left right, toReal, toReal, Rat.cast_lt]

theorem le_iff_toReal (left : x.isFinite) (right : y.isFinite) : x ≤ y ↔ toReal x ≤ toReal y := by
  rw [le_iff_real left right, toReal, toReal, Rat.cast_le]

theorem toReal_of_shape {s : Sign} {m : ℕ} {e : ℤ} {pos : 0 < m}
    (shape : x.toModel.unpack = .finite s m e pos) :
    toReal x = (s.apply 1 : ℤ) * (m * 2 ^ e) := by
  rw [toReal, real, shape, value_finite]
  push_cast
  rfl

@[simp]
theorem toReal_zero : toReal 0 = 0 := by
  have shape : (0 : Float32).toModel.unpack = .zero .positive := rfl
  simp [toReal, real, shape, value]

theorem real_one : real 1 = 1 := by
  have shape : (1 : Float32).toModel.unpack = .finite .positive 8388608 (-23) (by decide) := rfl
  rw [real, shape, value_finite]
  norm_num [Sign.apply]

@[simp]
theorem toReal_one : toReal 1 = 1 := by
  simp [toReal, real_one]

theorem abs_toReal_le (finite : x.isFinite) : |toReal x| ≤ 2 ^ 128 - 2 ^ 104 := by
  have largest := (Rat.cast_le (K := ℝ)).2 (abs_real_le finite)
  push_cast at largest
  exact largest

theorem Rounded.error (rounded : Rounded z q) :
    |toReal z - q| ≤ |(q : ℝ)| / 2 ^ 24 + 1 / 2 ^ 150 := by
  have error := (Rat.cast_le (K := ℝ)).2 rounded.rounds.error
  push_cast at error
  exact error

theorem narrow_pos_iff {y : Float} (finite : y.isFinite) (narrowed : (narrow y).isFinite) :
    0 < narrow y ↔ 1 / 2 ^ 150 < value y.toModel.unpack := by
  rw [← (Rounded.narrow finite narrowed).rounds.pos_iff, lt_iff_toReal rfl narrowed, toReal_zero,
    toReal, Rat.cast_pos]

/-! ## Numbers near real ones -/

/-- A finite number whose value differs from `r` by no more than `ε`. -/
structure Near (x : Float32) (r ε : ℝ) : Prop where
  finite : x.isFinite
  close : |toReal x - r| ≤ ε

namespace Near

theorem self (finite : x.isFinite) : Near x (toReal x) 0 :=
  ⟨finite, by simp⟩

theorem mono (near : Near x r ε) (le : ε ≤ η) : Near x r η :=
  ⟨near.finite, near.close.trans le⟩

theorem abs_le (near : Near x r ε) : |toReal x| ≤ |r| + ε := by
  have triangle := abs_add_le (toReal x - r) r
  rw [sub_add_cancel] at triangle
  linarith [near.close]

theorem neg (near : Near x r ε) : Near (-x) (-r) ε := by
  constructor
  · rw [isFinite_neg_single]
    exact near.finite
  · rw [toReal_neg, neg_sub_neg, abs_sub_comm]
    exact near.close

theorem of_rounded (rounded : Rounded z q) (close : |(q : ℝ) - r| ≤ ε) :
    Near z r (ε + (|r| + ε) / 2 ^ 24 + 1 / 2 ^ 150) := by
  refine ⟨rounded.finite, ?_⟩
  have error := rounded.error
  have triangle := abs_add_le ((q : ℝ) - r) r
  rw [sub_add_cancel] at triangle
  calc |toReal z - r| ≤ |toReal z - q| + |(q : ℝ) - r| := abs_sub_le _ _ _
    _ ≤ (|(q : ℝ)| / 2 ^ 24 + 1 / 2 ^ 150) + ε := add_le_add error close
    _ ≤ _ := by linarith

theorem sum_close (left : Near x a ε) (right : Near y b δ) :
    |((real x + real y : ℚ) : ℝ) - (a + b)| ≤ ε + δ := by
  have sum : ((real x + real y : ℚ) : ℝ) - (a + b) = (toReal x - a) + (toReal y - b) := by
    rw [toReal, toReal]
    push_cast
    ring
  rw [sum]
  exact (abs_add_le _ _).trans (add_le_add left.close right.close)

theorem add (left : Near x a ε) (right : Near y b δ) (finite : (x + y).isFinite) :
    Near (x + y) (a + b) (ε + δ + (|a + b| + (ε + δ)) / 2 ^ 24 + 1 / 2 ^ 150) :=
  of_rounded ⟨finite, add_single finite⟩ (sum_close left right)

theorem product_close (left : Near x a ε) (right : Near y b δ) :
    |((real x * real y : ℚ) : ℝ) - a * b| ≤ |a| * δ + |b| * ε + ε * δ := by
  have product : ((real x * real y : ℚ) : ℝ) - a * b =
      a * (toReal y - b) + b * (toReal x - a) + (toReal x - a) * (toReal y - b) := by
    rw [toReal, toReal]
    push_cast
    ring
  have sizes := abs_nonneg (toReal x - a)
  rw [product]
  calc _ ≤ |a * (toReal y - b)| + |b * (toReal x - a)| + |(toReal x - a) * (toReal y - b)| :=
        abs_add_three _ _ _
    _ ≤ _ := by
      rw [abs_mul, abs_mul, abs_mul]
      gcongr
      · exact right.close
      · exact left.close
      · exact sizes.trans left.close
      · exact left.close
      · exact right.close

theorem mul (left : Near x a ε) (right : Near y b δ) (finite : (x * y).isFinite) :
    Near (x * y) (a * b) (|a| * δ + |b| * ε + ε * δ +
      (|a * b| + (|a| * δ + |b| * ε + ε * δ)) / 2 ^ 24 + 1 / 2 ^ 150) :=
  of_rounded ⟨finite, mul_single finite⟩ (product_close left right)

theorem lt_finiteBound {q : ℚ} (close : |(q : ℝ) - r| ≤ ε) (small : |r| + ε ≤ 2 ^ 127) :
    |q| < finiteBound := by
  have triangle := abs_add_le ((q : ℝ) - r) r
  rw [sub_add_cancel] at triangle
  have size : ((|q| : ℚ) : ℝ) ≤ ((2 ^ 127 : ℚ) : ℝ) := by
    push_cast
    linarith
  have size := Rat.cast_le.1 size
  rw [finiteBound]
  linarith

theorem add_finite (left : Near x a ε) (right : Near y b δ)
    (small : |a + b| + (ε + δ) ≤ 2 ^ 127) : (x + y).isFinite :=
  Number.add_finite left.finite right.finite (lt_finiteBound (sum_close left right) small)

theorem mul_finite (left : Near x a ε) (right : Near y b δ)
    (small : |a * b| + (|a| * δ + |b| * ε + ε * δ) ≤ 2 ^ 127) : (x * y).isFinite :=
  Number.mul_finite left.finite right.finite (lt_finiteBound (product_close left right) small)

theorem mul_either (left : Near x a ε) (right : Near y b δ)
    (small : |a * b| + (|a| * δ + |b| * ε + ε * δ) ≤ 2 ^ 127)
    (le : |a| * δ + |b| * ε + ε * δ + (|a * b| + (|a| * δ + |b| * ε + ε * δ)) / 2 ^ 24 +
      1 / 2 ^ 150 ≤ η) : Near (x * y) (a * b) η ∧ Near (y * x) (a * b) η := by
  have swap : |b| * ε + |a| * δ + δ * ε = |a| * δ + |b| * ε + ε * δ := by ring
  constructor
  · exact (left.mul right (left.mul_finite right small)).mono le
  · rw [mul_comm a b] at small le ⊢
    rw [← swap] at small le
    exact (right.mul left (right.mul_finite left small)).mono le

end Near

/-! ## Factors of at most one -/

theorem abs_real_le_one_iff : |real x| ≤ 1 ↔ |toReal x| ≤ 1 := by
  rw [toReal]
  norm_cast

theorem scale_finite (left : x.isFinite) (right : y.isFinite)
    (small : |toReal x| ≤ 1 ∨ |toReal y| ≤ 1) : (x * y).isFinite :=
  mul_finite_of_le_one left right (small.imp abs_real_le_one_iff.2 abs_real_le_one_iff.2)

theorem shift_finite (left : x.isFinite) (right : y.isFinite)
    (small : |toReal x| ≤ 1 ∨ |toReal y| ≤ 1) : (x + y).isFinite :=
  add_finite_of_le_one left right (small.imp abs_real_le_one_iff.2 abs_real_le_one_iff.2)

theorem abs_mul_le_one (finite : (x * y).isFinite) (left : |toReal x| ≤ 1)
    (right : |toReal y| ≤ 1) : |toReal (x * y)| ≤ 1 := by
  have one : Representable .binary32 1 := ⟨1, 0, by decide, by decide, by simp⟩
  have product : |real x * real y| ≤ 1 := by
    rw [abs_mul]
    exact mul_le_one₀ (abs_real_le_one_iff.2 left) (abs_nonneg _) (abs_real_le_one_iff.2 right)
  obtain ⟨low, high⟩ := abs_le.1 product
  have rounds := mul_single finite
  have above := rounds.mono (.self one) high
  have below := Rounds.mono (Rounds.self one).neg rounds low
  exact abs_real_le_one_iff.1 (abs_le.2 ⟨below, above⟩)

/-! ## Square roots -/

section

variable {m : ℕ} {e : ℤ}

/-- A rational number between the same whole numbers as a square root, on the same side of their
middle. -/
def rootDigits (m : ℕ) : ℚ :=
  m.sqrt + if m - m.sqrt * m.sqrt = 0 then 0 else if m - m.sqrt * m.sqrt ≤ m.sqrt then 1 / 4 else
    3 / 4

def rootAccuracy (m : ℕ) : Accuracy :=
  if m - m.sqrt * m.sqrt = 0 then .exact
  else .inexact (if m - m.sqrt * m.sqrt ≤ m.sqrt then .lt else .gt)

theorem holds_rootDigits (m : ℕ) :
    Holds (.ofMantissaAndAccuracy m.sqrt (rootAccuracy m)) (rootDigits m) := by
  rw [rootAccuracy, rootDigits]
  split_ifs with square below
  · rw [add_zero]
    exact .exact m.sqrt
  · refine ⟨1 / 4, by norm_num, by norm_num, ?_, ?_⟩
    · norm_num [ExtendedMantissa.ofMantissaAndAccuracy]
    · simp [ExtendedMantissa.ofMantissaAndAccuracy]
  · refine ⟨1 / 4, by norm_num, by norm_num, ?_, ?_⟩
    · norm_num [ExtendedMantissa.ofMantissaAndAccuracy]
    · norm_num [ExtendedMantissa.ofMantissaAndAccuracy]
      ring

theorem rootDigits_bounds (m : ℕ) :
    (m.sqrt : ℚ) ≤ rootDigits m ∧ rootDigits m < m.sqrt + 1 := by
  rw [rootDigits]
  split_ifs <;> norm_num

theorem rootDigits_close (m : ℕ) : |(rootDigits m : ℝ) - √m| ≤ 1 / 4 := by
  obtain ⟨rest, whole⟩ : ∃ rest, m = m.sqrt * m.sqrt + rest :=
    Nat.exists_eq_add_of_le (Nat.sqrt_le m)
  -- Below the next square, at most twice the root is left over.
  have most : rest ≤ m.sqrt + m.sqrt := by
    have := Nat.sqrt_le_add m
    omega
  have difference : m - m.sqrt * m.sqrt = rest := by omega
  have value : (m : ℝ) = m.sqrt ^ 2 + rest := by
    rw [sq]
    exact_mod_cast whole
  rw [rootDigits, difference]
  generalize m.sqrt = n at *
  rw [value]
  have low : (n : ℝ) ≤ √(n ^ 2 + rest) := Real.le_sqrt_of_sq_le (by simp)
  split_ifs with square below
  · subst square
    simp
  · have small : (rest : ℝ) ≤ n := by exact_mod_cast below
    have high : √(n ^ 2 + rest) ≤ n + 1 / 2 := by
      apply Real.sqrt_le_iff.2
      constructor
      · positivity
      · linarith
    push_cast
    rw [abs_le]
    constructor <;> linarith
  · have large : (n : ℝ) + 1 ≤ rest := by exact_mod_cast not_le.1 below
    have most : (rest : ℝ) ≤ n + n := by exact_mod_cast most
    have low : n + 1 / 2 ≤ √(n ^ 2 + rest) := Real.le_sqrt_of_sq_le (by linarith)
    have high : √(n ^ 2 + rest) ≤ n + 1 := by
      apply Real.sqrt_le_iff.2
      constructor
      · positivity
      · linarith
    push_cast
    rw [abs_le]
    constructor <;> linarith

theorem rootDigits_pos (pos : 0 < m) (k : ℕ) : 0 < rootDigits (m <<< k) := by
  have some : 0 < m <<< k := by
    rw [Nat.shiftLeft_eq]
    positivity
  have first : (1 : ℚ) ≤ (m <<< k).sqrt := by exact_mod_cast Nat.sqrt_pos.2 some
  linarith [(rootDigits_bounds (m <<< k)).1]

theorem lastPlace_sqrt (pos : 0 < m) {t : ℤ} {k : ℕ} (even : e = k + 2 * t) :
    lastPlace .binary32 (rootDigits (m <<< k) * 2 ^ t) =
      Format.binary32.targetExponent ((totalExponent m e + 1).ediv 2) := by
  have log := log2_shiftLeft pos k
  have some : 0 < m <<< k := by
    rw [Nat.shiftLeft_eq]
    positivity
  generalize m <<< k = n at *
  obtain ⟨low, high⟩ := rootDigits_bounds n
  have unit : (0 : ℚ) < 2 ^ t := by positivity
  have root : n.sqrt ≠ 0 := (Nat.sqrt_pos.2 some).ne'
  rw [lastPlace_of_digits root (mul_le_mul_of_nonneg_right low unit.le)
    (mul_lt_mul_of_pos_right high unit)]
  -- The logarithm of the root is half of the one of the number, rounded down.
  have first : 2 ^ (2 * n.sqrt.log2) ≤ n := by
    have := Nat.log2_self_le root
    rw [two_mul, Nat.pow_add]
    exact (Nat.mul_le_mul this this).trans (Nat.sqrt_le n)
  have last : n < 2 ^ (2 * (n.sqrt.log2 + 1)) := by
    have : n.sqrt + 1 ≤ 2 ^ (n.sqrt.log2 + 1) := Nat.lt_log2_self
    rw [two_mul, Nat.pow_add]
    exact (Nat.lt_succ_sqrt n).trans_le (Nat.mul_le_mul this this)
  have least := (Nat.le_log2 some.ne').2 first
  have most := (Nat.log2_lt some.ne').2 last
  congr 1
  rw [totalExponent, totalExponent]
  change _ = (_ : ℤ) / 2
  omega

end

theorem sqrt_roundsTo {m : ℕ} {e : ℤ} (pos : 0 < m) :
    ∃ (t : ℤ) (k : ℕ), e = k + 2 * t ∧ t ≤ lastPlace .binary32 (rootDigits (m <<< k) * 2 ^ t) ∧
      RoundsTo .binary32 .positive (rootDigits (m <<< k) * 2 ^ t)
        (repacked .binary32 (.sqrt .binary32 (.finite .positive m e pos))) := by
  obtain ⟨t, is⟩ : ∃ t, t = min (e.ediv 2)
      (Format.binary32.targetExponent ((totalExponent m e + 1).ediv 2)) := ⟨_, rfl⟩
  have half : t ≤ e / 2 := is ▸ min_le_left _ _
  obtain ⟨k, amount⟩ : ∃ k : ℕ, e - 2 * t = k := ⟨(e - 2 * t).toNat, by omega⟩
  have even : e = k + 2 * t := by omega
  have place := lastPlace_sqrt pos even
  have root : UnpackedFloat.sqrt .binary32 (.finite .positive m e pos) =
      roundWithAccuracy .binary32 .positive (m <<< k).sqrt t (rootAccuracy (m <<< k)) := by
    simp only [UnpackedFloat.sqrt, sqrtCore, ← is, amount, Int.toNat_natCast]
    rfl
  have digits := rootDigits_pos pos k
  have fine : t ≤ lastPlace .binary32 (rootDigits (m <<< k) * 2 ^ t) := by
    rw [place, is]
    exact min_le_right _ _
  refine ⟨t, k, even, fine, ?_⟩
  rw [root]
  apply roundWithAccuracy_roundsTo (by decide)
  · positivity
  · rw [mul_div_cancel_right₀ _ (by positivity)]
    exact holds_rootDigits _
  · exact fine

theorem sqrt_size {m : ℕ} {e t : ℤ} {k : ℕ} {s : Sign} {pos : 0 < m} (even : e = k + 2 * t)
    (fine : t ≤ lastPlace .binary32 (rootDigits (m <<< k) * 2 ^ t))
    (shape : x.toModel.unpack = .finite s m e pos) :
    (2 : ℚ) ^ t * 2 ^ 23 ≤ rootDigits (m <<< k) * 2 ^ t ∧
      1 / 2 ^ 75 ≤ rootDigits (m <<< k) * 2 ^ t ∧ rootDigits (m <<< k) * 2 ^ t < 2 ^ 64 := by
  obtain ⟨short, least, most⟩ := unpack_bounded shape
  have log : m.log2 < 24 := (Nat.log2_lt pos.ne').2 (by omega)
  have place := lastPlace_sqrt pos even
  have digits := rootDigits_pos pos k
  have positive : 0 < rootDigits (m <<< k) * 2 ^ t := by positivity
  have above := le_abs_of_lastPlace (f := .binary32) (q := rootDigits (m <<< k) * 2 ^ t)
  have below := abs_lt_lastPlace .binary32 (rootDigits (m <<< k) * 2 ^ t)
  have bottom : Format.binary32.minExponent = -149 := rfl
  have length : Format.binary32.mantissaBits = 24 := rfl
  rw [abs_of_pos positive, length] at above below
  have range : -98 ≤ lastPlace .binary32 (rootDigits (m <<< k) * 2 ^ t) ∧
      lastPlace .binary32 (rootDigits (m <<< k) * 2 ^ t) ≤ 40 := by
    rw [place, Format.targetExponent, totalExponent, bottom, length]
    change _ ≤ max ((_ : ℤ) / 2 - _) _ ∧ max ((_ : ℤ) / 2 - _) _ ≤ _
    omega
  generalize lastPlace .binary32 (rootDigits (m <<< k) * 2 ^ t) = p at *
  have large := above (by omega) positive.ne'
  have full : p + (24 : ℕ) - 1 = p + 23 := by omega
  rw [full] at large
  refine ⟨?_, ?_, ?_⟩
  · calc (2 : ℚ) ^ t * 2 ^ 23 = 2 ^ (t + 23) := by
          rw [zpow_add₀ two_ne_zero]
          norm_num
      _ ≤ 2 ^ (p + 23) := zpow_le_zpow_right₀ one_le_two (by omega)
      _ ≤ _ := large
  · calc (1 / 2 ^ 75 : ℚ) = 2 ^ (-75 : ℤ) := by norm_num
      _ ≤ 2 ^ (p + 23) := zpow_le_zpow_right₀ one_le_two (by omega)
      _ ≤ _ := large
  · calc _ < (2 : ℚ) ^ (p + (24 : ℕ)) := below
      _ ≤ 2 ^ (64 : ℤ) := zpow_le_zpow_right₀ one_le_two (by omega)
      _ = 2 ^ 64 := by norm_num

theorem sqrt_close {m : ℕ} {e t : ℤ} {k : ℕ} {pos : 0 < m} (even : e = k + 2 * t)
    (shape : x.toModel.unpack = .finite .positive m e pos) :
    |((rootDigits (m <<< k) * 2 ^ t : ℚ) : ℝ) - √(toReal x)| ≤ 2 ^ t / 4 := by
  have square : toReal x = (m <<< k : ℕ) * (2 ^ t) ^ 2 := by
    rw [toReal, real, shape, even, Nat.shiftLeft_eq, value_finite, zpow_add₀ two_ne_zero, two_mul,
      zpow_add₀ two_ne_zero]
    simp [Sign.apply]
    ring
  have digits := rootDigits_close (m <<< k)
  have unit : (0 : ℝ) < 2 ^ t := by positivity
  rw [square, Real.sqrt_mul' _ (by positivity), Real.sqrt_sq unit.le]
  push_cast
  rw [← sub_mul, abs_mul, abs_of_pos unit]
  linarith [mul_le_mul_of_nonneg_right digits unit.le]

/-- A square root is rounded once more than a rational number with its digits. -/
theorem sqrt_near (positive : 0 < toReal x) :
    Near x.sqrt √(toReal x) (√(toReal x) / 2 ^ 22) := by
  have is : real x.sqrt = value (repacked .binary32 (.sqrt .binary32 x.toModel.unpack)) := rfl
  have isFinite : x.sqrt.isFinite =
      (repacked .binary32 (.sqrt .binary32 x.toModel.unpack)).isFinite := rfl
  cases shape : x.toModel.unpack with
  | finite s m e pos =>
    cases s with
    | negative =>
      have size : (0 : ℝ) < m * 2 ^ e := by positivity
      rw [toReal, real, shape, value_finite] at positive
      simp [Sign.apply] at positive
      linarith
    | positive =>
      -- The root is that of the digits shifted to an even exponent.
      obtain ⟨t, k, even, fine, rounds⟩ := sqrt_roundsTo (e := e) pos
      obtain ⟨digits, least, most⟩ := sqrt_size even fine shape
      have close := sqrt_close even shape
      have root : Rounded x.sqrt (rootDigits (m <<< k) * 2 ^ t) := by
        have finite := rounds.isFinite (by rw [finiteBound]; linarith)
        have value := rounds.value finite
        rw [← shape, ← isFinite] at finite
        rw [← shape, ← is] at value
        exact ⟨finite, by simpa [Sign.apply] using value⟩
      have digits := (Rat.cast_le (K := ℝ)).2 digits
      have least := (Rat.cast_le (K := ℝ)).2 least
      apply (Near.of_rounded root close).mono
      rw [abs_of_nonneg (Real.sqrt_nonneg _)]
      generalize rootDigits (m <<< k) * 2 ^ t = q at *
      push_cast at digits least
      obtain ⟨low, high⟩ := abs_le.1 close
      norm_num at *
      linarith
  | zero | infinity | notANumber =>
    rw [toReal, real, shape] at positive
    simp [value] at positive

end SceneScript.Number
