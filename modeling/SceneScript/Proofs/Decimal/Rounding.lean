import Mathlib
import SceneScript.Decimal.Reading
import SceneScript.Proofs.Number.Arithmetic

/-!
# The value of a decimal

A decimal is converted to the number that its exact value is rounded to, whether its digits and its
power of ten are both exact in double precision, or the quotient or product is computed in whole
numbers (`Scientific.toFloat_roundsTo`). Nothing is rounded twice, and decimals with exponents out
of reach are zero or infinite as they would be rounded.
-/

namespace SceneScript.Decimal

open Float.Model UnpackedFloat Number

section

variable {m : ℕ}

theorem pow_two_le_pow_ten (k : ℕ) : (2 : ℚ) ^ k ≤ 10 ^ k :=
  pow_le_pow_left₀ two_pos.le (by norm_num) k

theorem decimal_large (some : m ≠ 0) {e : ℤ} (large : 2 ^ 11 < e) :
    overflow .binary64 ≤ m * 10 ^ e := by
  obtain ⟨k, rfl⟩ : ∃ k : ℕ, e = k := ⟨e.toNat, by omega⟩
  have one : (1 : ℚ) ≤ m := by exact_mod_cast Nat.one_le_iff_ne_zero.2 some
  have power : (0 : ℚ) < 10 ^ k := by positivity
  calc overflow .binary64 ≤ 2 ^ k := pow_le_pow_right₀ one_le_two (by
        change 2 ^ 10 ≤ k
        omega)
    _ ≤ 10 ^ k := pow_two_le_pow_ten k
    _ ≤ m * 10 ^ k := le_mul_of_one_le_left power.le one
    _ = m * 10 ^ (k : ℤ) := by rw [zpow_natCast]

theorem decimal_tiny {e : ℤ} (tiny : e < -(2 ^ 11 + m.log2)) :
    |(m : ℚ) * 10 ^ e| < 2 ^ (Format.binary64.minExponent - 1) := by
  obtain ⟨k, rfl⟩ : ∃ k : ℕ, e = -k := ⟨(-e).toNat, by omega⟩
  have digits : (m : ℚ) < (2 ^ (m.log2 + 1) : ℕ) := by exact_mod_cast Nat.lt_log2_self
  have least : Format.binary64.minExponent = -1074 := rfl
  push_cast at digits
  rw [abs_of_nonneg (by positivity)]
  calc (m : ℚ) * 10 ^ (-(k : ℤ)) = m / 10 ^ k := by rw [zpow_neg, zpow_natCast, div_eq_mul_inv]
    _ ≤ m / 2 ^ k := div_le_div_of_nonneg_left (by positivity) (by positivity)
        (pow_two_le_pow_ten k)
    _ < 2 ^ (m.log2 + 1) / 2 ^ k := by gcongr
    _ = 2 ^ ((m.log2 + 1 : ℕ) - (k : ℤ)) := by
        rw [zpow_sub₀ two_ne_zero, zpow_natCast, zpow_natCast]
    _ ≤ 2 ^ (Format.binary64.minExponent - 1) := zpow_le_zpow_right₀ one_le_two (by
        rw [least]
        push_cast
        omega)

theorem le_lastPlace_padded {n : ℕ} (some : 0 < n) :
    (-53 : ℤ) + 0 ≤ lastPlace .binary64 ((2 ^ 53 * n : ℕ) * 2 ^ ((-53 : ℤ) + 0)) := by
  have positive : 0 < 2 ^ 53 * n := by positivity
  have long : 53 ≤ (2 ^ 53 * n).log2 :=
    (Nat.le_log2 positive.ne').2 (Nat.le_mul_of_pos_right _ some)
  have digits : Format.binary64.mantissaBits = 53 := rfl
  rw [lastPlace_dyadic positive, Format.targetExponent, totalExponent, digits]
  omega

theorem ofScientific_roundsTo (m : ℕ) (e : ℤ) :
    RoundsTo .binary64 .positive (m * 10 ^ e) (Float.Model.ofScientific m e).unpack := by
  change RoundsTo .binary64 .positive (m * 10 ^ e)
    (repacked .binary64 (UnpackedFloat.ofScientific .binary64 m e))
  rw [UnpackedFloat.ofScientific]
  split_ifs with none large tiny whole
  · rw [repacked_zero, none, Nat.cast_zero, zero_mul]
    exact .zero (.zero _)
  · rw [repacked_infinity]
    exact .of_large (by decide) _ (decimal_large none large)
  · rw [repacked_zero]
    exact .zero (.of_tiny (decimal_tiny tiny))
  · -- The digits are padded, so the product has all digits of the format.
    have power : 0 < 10 ^ e.toNat := by positivity
    have padded : m <<< 53 * 10 ^ e.toNat = 2 ^ 53 * (m * 10 ^ e.toNat) := by
      rw [Nat.shiftLeft_eq]
      ring
    have some : 0 < m * 10 ^ e.toNat := Nat.mul_pos (Nat.pos_of_ne_zero none) power
    have fine := le_lastPlace_padded some
    rw [← padded] at fine
    have same : ((m <<< 53 * 10 ^ e.toNat : ℕ) : ℚ) * 2 ^ ((-53 : ℤ) + 0) = m * 10 ^ e := by
      have exponent : e = (e.toNat : ℤ) := by omega
      conv_rhs => rw [exponent, zpow_natCast]
      rw [padded, add_zero, zpow_neg]
      push_cast
      field_simp
    rw [← same]
    change RoundsTo .binary64 (.positive * .positive) _ (repacked .binary64 (UnpackedFloat.mul
      .binary64 (.finite .positive (m <<< 53) (-53) _) (.finite .positive (10 ^ e.toNat) 0 power)))
    exact mul_roundsTo (by decide : 2 ≤ Format.binary64.exponentBits) fine
  · have same : (m : ℚ) * 2 ^ (0 : ℤ) / ((10 ^ (-e).toNat : ℕ) * 2 ^ (0 : ℤ)) = m * 10 ^ e := by
      have exponent : e = -((-e).toNat : ℤ) := by omega
      conv_rhs => rw [exponent, zpow_neg, zpow_natCast]
      rw [zpow_zero, mul_one, mul_one, div_eq_mul_inv, Nat.cast_pow, Nat.cast_ofNat]
    rw [← same]
    change RoundsTo .binary64 (.positive / .positive) _ _
    exact div_roundsTo (by decide : 2 ≤ Format.binary64.exponentBits)

theorem toFloat_unpack (some : m ≠ 0) (short : m < 2 ^ 53) :
    ∃ n e pos, m.toUInt64.toFloat.toModel.unpack = .finite .positive n e pos ∧
      (n : ℚ) * 2 ^ e = m := by
  have exact : Representable .binary64 m :=
    ⟨m, 0, by rw [Nat.abs_cast]; exact_mod_cast short, by decide, by simp⟩
  have rounds : RoundsTo .binary64 .positive m m.toUInt64.toFloat.toModel.unpack := by
    have same : m.toUInt64.toNat = m := by
      rw [Nat.toUInt64_eq, UInt64.toNat_ofNat', Nat.mod_eq_of_lt (by omega)]
    change RoundsTo _ _ _ (repacked .binary64
      (UnpackedFloat.normalize .binary64 (m.toUInt64.toNat : ℤ) 0 .positive))
    have positive := round_roundsTo (f := .binary64) (e := 0) (by decide) (Nat.pos_of_ne_zero some)
      .positive
    rw [same, UnpackedFloat.normalize, compare_gt_iff_gt.2 (by omega)]
    simpa using positive
  generalize m.toUInt64.toFloat.toModel.unpack = x at rounds
  cases rounds with
  | zero zero =>
    have : (m : ℚ) = 0 := (Rounds.self exact).unique zero
    exact absurd (by exact_mod_cast this) some
  | finite finite => exact ⟨_, _, _, rfl, finite.unique (.self exact)⟩
  | infinite infinite large =>
    have is := infinite.unique (.self exact)
    have below : (m : ℚ) < (2 ^ 53 : ℕ) := by exact_mod_cast short
    have : (2 : ℚ) ^ 53 ≤ overflow .binary64 :=
      pow_le_pow_right₀ one_le_two (by norm_num : 53 ≤ 2 ^ 10)
    push_cast at below
    linarith

def isPowerOfTen (k : ℕ) : UnpackedFloat → Bool
  | .finite .positive n e _ => -52 ≤ e && n * 2 ^ (e + 52).toNat == 10 ^ k * 2 ^ 52
  | _ => false

theorem powersOfTen_exact : ∀ k (_ : k < 23),
    isPowerOfTen k Float.exactlyRepresentablePowersOfTen[k].toModel.unpack = true := by
  decide

theorem powerOfTen_unpack {k : ℕ} (within : k < 23) :
    ∃ n e pos, Float.exactlyRepresentablePowersOfTen[k].toModel.unpack =
      .finite .positive n e pos ∧ (n : ℚ) * 2 ^ e = 10 ^ k := by
  have exact := powersOfTen_exact k within
  generalize Float.exactlyRepresentablePowersOfTen[k].toModel.unpack = x at exact ⊢
  match x with
  | .finite .positive n e pos =>
    rw [isPowerOfTen, Bool.and_eq_true, decide_eq_true_eq, beq_iff_eq] at exact
    obtain ⟨least, same⟩ := exact
    refine ⟨n, e, pos, rfl, ?_⟩
    have shifted : (2 : ℚ) ^ (e + 52).toNat = 2 ^ e * 2 ^ 52 := by
      rw [← zpow_natCast, Int.toNat_of_nonneg (by omega), zpow_add₀ two_ne_zero]
      rfl
    have : (n : ℚ) * 2 ^ (e + 52).toNat = 10 ^ k * 2 ^ 52 := by exact_mod_cast same
    rw [shifted] at this
    linarith

section

variable {a b : Float} {n n' : ℕ} {e e' : ℤ} {pos : 0 < n} {pos' : 0 < n'}

theorem product_roundsTo (left : a.toModel.unpack = .finite .positive n e pos)
    (right : b.toModel.unpack = .finite .positive n' e' pos') :
    RoundsTo .binary64 .positive (n * 2 ^ e * (n' * 2 ^ e')) (a * b).toModel.unpack := by
  have wide : 2 ≤ Format.binary64.exponentBits := by decide
  have fine := exponents_le_lastPlace wide (unpack_finite wide left).1 (unpack_finite wide right).1
  have value : (n : ℚ) * 2 ^ e * (n' * 2 ^ e') = (n * n' : ℕ) * 2 ^ (e + e') := by
    rw [zpow_add₀ two_ne_zero]
    push_cast
    ring
  change RoundsTo .binary64 (.positive * .positive) _
    (repacked .binary64 (UnpackedFloat.mul .binary64 a.toModel.unpack b.toModel.unpack))
  rw [left, right, value]
  exact mul_roundsTo wide fine

theorem quotient_roundsTo (left : a.toModel.unpack = .finite .positive n e pos)
    (right : b.toModel.unpack = .finite .positive n' e' pos') :
    RoundsTo .binary64 .positive (n * 2 ^ e / (n' * 2 ^ e')) (a / b).toModel.unpack := by
  change RoundsTo .binary64 (.positive / .positive) _
    (repacked .binary64 (UnpackedFloat.div .binary64 a.toModel.unpack b.toModel.unpack))
  rw [left, right]
  exact div_roundsTo (by decide)

theorem zero_product (left : a.toModel.unpack = .zero .positive)
    (right : b.toModel.unpack = .finite .positive n' e' pos') :
    (a * b).toModel.unpack = .zero .positive ∧ (a / b).toModel.unpack = .zero .positive := by
  constructor
  · change repacked .binary64 (UnpackedFloat.mul .binary64 a.toModel.unpack b.toModel.unpack) = _
    rw [left, right]
    exact repacked_zero _ _
  · change repacked .binary64 (UnpackedFloat.div .binary64 a.toModel.unpack b.toModel.unpack) = _
    rw [left, right]
    exact repacked_zero _ _

end

/-- A decimal is rounded once, to the nearest number. -/
theorem float_ofScientific_roundsTo (m : ℕ) (down : Bool) (k : ℕ) :
    RoundsTo .binary64 .positive (m * 10 ^ (if down then -(k : ℤ) else k))
      (Float.ofScientific m down k).toModel.unpack := by
  unfold Float.ofScientific
  by_cases fast : m < 2 ^ 53 ∧ k ≤ 22
  · -- The digits and the power of ten are both exact, so only the result is rounded.
    rw [dif_pos fast]
    obtain ⟨n', e', pos', power, is'⟩ := powerOfTen_unpack (Nat.lt_succ_of_le fast.2)
    by_cases none : m = 0
    · have zero := zero_product (a := m.toUInt64.toFloat) (by rw [none]; rfl) power
      have nothing (e : ℤ) : (m : ℚ) * 10 ^ e = 0 := by rw [none, Nat.cast_zero, zero_mul]
      rw [nothing]
      cases down
      · exact zero.1.symm ▸ .zero (.zero _)
      · exact zero.2.symm ▸ .zero (.zero _)
    · obtain ⟨n, e, pos, whole, is⟩ := toFloat_unpack none fast.1
      cases down
      · rw [if_neg Bool.false_ne_true, zpow_natCast, ← is, ← is']
        exact product_roundsTo whole power
      · rw [if_pos rfl, zpow_neg, zpow_natCast, ← div_eq_mul_inv, ← is, ← is']
        exact quotient_roundsTo whole power
  · rw [dif_neg fast]
    cases down
    · exact ofScientific_roundsTo m k
    · have rounds := ofScientific_roundsTo m (Int.negOfNat k)
      rw [Int.negOfNat_eq] at rounds
      exact rounds

def Scientific.exact (s : Scientific) : ℚ :=
  (if s.negative then -1 else 1) * (s.coefficient * 10 ^ s.exponent)

/-- A decimal that is not negative becomes the number nearest to its exact value, which is infinite
if it is too large. -/
theorem Scientific.toFloat_roundsTo {s : Scientific} (positive : s.negative = false) :
    RoundsTo .binary64 .positive s.exact s.toFloat.toModel.unpack := by
  have rounds := float_ofScientific_roundsTo s.coefficient (s.exponent < 0) s.exponent.natAbs
  have exponent : (if decide (s.exponent < 0) = true then -(s.exponent.natAbs : ℤ)
      else s.exponent.natAbs) = s.exponent := by
    simp only [decide_eq_true_eq]
    split <;> omega
  rw [exponent] at rounds
  rw [exact, toFloat, positive, if_neg Bool.false_ne_true, if_neg Bool.false_ne_true, one_mul]
  exact rounds

end

end SceneScript.Decimal
