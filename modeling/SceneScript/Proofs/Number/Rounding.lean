import Mathlib
import SceneScript.Proofs.Number.Floats

/-!
# Rounding

What a number is rounded to in a format is said for rational numbers, without reference to how it
is computed (`Rounds`): a multiple of the unit in the last place that the size of the number asks
for, the nearest one, and the even one of two. It is a number of the format that no other one is
nearer to (`Rounds.nearest`), so rounding respects order (`Rounds.mono`). What the steps of floating
point arithmetic end with is rounded in this sense (`roundWithAccuracy_rounds`).
-/

namespace SceneScript.Number

open Float.Model

/-! ## Whole numbers -/

/-- The whole number nearest to `x`, the even one if two are equally near. -/
def NearestEven (x : ℚ) (n : ℤ) : Prop :=
  |x - n| ≤ 1 / 2 ∧ (|x - n| = 1 / 2 → Even n)

namespace NearestEven

variable {x y : ℚ} {m n : ℤ}

theorem self (n : ℤ) : NearestEven n n := by
  norm_num [NearestEven]

theorem neg (nearest : NearestEven x n) : NearestEven (-x) (-n) := by
  have same : |-x - ((-n : ℤ) : ℚ)| = |x - n| := by
    rw [← abs_neg]
    push_cast
    ring_nf
  rw [NearestEven, same, even_neg]
  exact nearest

theorem mono (first : NearestEven x m) (second : NearestEven y n) (le : x ≤ y) : m ≤ n := by
  by_contra! below
  have gap : (n : ℚ) + 1 ≤ m := by exact_mod_cast below
  have low := abs_le.1 first.1
  have high := abs_le.1 second.1
  -- Both numbers lie halfway between the same two whole numbers, which cannot both be even.
  have next : m = n + 1 := by
    have : (m : ℚ) = n + 1 := by linarith
    exact_mod_cast this
  have half : x = n + 1 / 2 := by linarith
  have half' : y = n + 1 / 2 := by linarith
  have evenM := first.2 (by rw [half, next]; push_cast; norm_num [abs_of_nonpos])
  have evenN := second.2 (by rw [half']; norm_num [abs_of_nonneg])
  rw [next, Int.even_add_one] at evenM
  exact evenM evenN

theorem unique (first : NearestEven x m) (second : NearestEven x n) : m = n :=
  le_antisymm (first.mono second le_rfl) (second.mono first le_rfl)

theorem exists_nearest (x : ℚ) : ∃ n, NearestEven x n := by
  have low := Int.floor_le x
  have high := Int.lt_floor_add_one x
  generalize ⌊x⌋ = n at low high
  have down : |x - n| = x - n := abs_of_nonneg (by linarith)
  have up : |x - ((n + 1 : ℤ) : ℚ)| = n + 1 - x := by
    rw [abs_of_nonpos (by push_cast; linarith)]
    push_cast
    ring
  rcases lt_trichotomy (x - n) (1 / 2) with less | half | more
  · exact ⟨n, by rw [down]; exact less.le, fun tie => by rw [down] at tie; linarith⟩
  · rcases Int.even_or_odd n with even | odd
    · exact ⟨n, by rw [down]; exact half.le, fun _ => even⟩
    · exact ⟨n + 1, by rw [up]; linarith, fun _ => odd.add_one⟩
  · exact ⟨n + 1, by rw [up]; linarith, fun tie => by rw [up] at tie; linarith⟩

theorem half_le (nearest : NearestEven x n) (other : m ≠ n) : 1 / 2 ≤ |x - m| := by
  have apart : (1 : ℚ) ≤ |(m : ℚ) - n| := by
    exact_mod_cast Int.one_le_abs (sub_ne_zero.2 other)
  have between := abs_sub_abs_le_abs_sub ((m : ℚ) - n) (x - n)
  have same : |(m : ℚ) - n - (x - n)| = |x - m| := by
    rw [← abs_neg]
    ring_nf
  linarith [nearest.1]

end NearestEven

/-! ## Formats -/

/-- The exponent of the last place of numbers of the size of `q`. -/
def lastPlace (f : Format) (q : ℚ) : ℤ :=
  f.targetExponent (Int.log 2 |q| + 1)

/-- What `q` is rounded to, if exponents have no upper bound. -/
def Rounds (f : Format) (q v : ℚ) : Prop :=
  ∃ n : ℤ, NearestEven (q / 2 ^ lastPlace f q) n ∧ v = n * 2 ^ lastPlace f q

def Representable (f : Format) (v : ℚ) : Prop :=
  ∃ n e : ℤ, |n| < 2 ^ f.mantissaBits ∧ f.minExponent ≤ e ∧ v = n * 2 ^ e

section

variable {f : Format} {q q' v v' w : ℚ}

theorem lastPlace_neg (f : Format) (q : ℚ) : lastPlace f (-q) = lastPlace f q := by
  rw [lastPlace, abs_neg, lastPlace]

theorem minExponent_le_lastPlace (f : Format) (q : ℚ) : f.minExponent ≤ lastPlace f q :=
  le_max_right _ _

theorem abs_lt_lastPlace (f : Format) (q : ℚ) : |q| < 2 ^ (lastPlace f q + f.mantissaBits) := by
  refine (Int.lt_zpow_succ_log_self one_lt_two |q|).trans_le ?_
  refine zpow_le_zpow_right₀ one_le_two ?_
  rw [lastPlace, Format.targetExponent]
  omega

theorem le_abs_of_lastPlace (above : f.minExponent < lastPlace f q) (nonzero : q ≠ 0) :
    (2 : ℚ) ^ (lastPlace f q + f.mantissaBits - 1) ≤ |q| := by
  have log : lastPlace f q + f.mantissaBits - 1 = Int.log 2 |q| := by
    rw [lastPlace, Format.targetExponent] at above ⊢
    omega
  rw [log]
  exact Int.zpow_log_le_self one_lt_two (abs_pos.2 nonzero)

/-! ## What is rounded to -/

theorem Rounds.unique (first : Rounds f q v) (second : Rounds f q w) : v = w := by
  obtain ⟨m, nearM, rfl⟩ := first
  obtain ⟨n, nearN, rfl⟩ := second
  rw [nearM.unique nearN]

theorem exists_rounds (f : Format) (q : ℚ) : ∃ v, Rounds f q v := by
  obtain ⟨n, near⟩ := NearestEven.exists_nearest (q / 2 ^ lastPlace f q)
  exact ⟨_, n, near, rfl⟩

theorem Rounds.of_tiny (tiny : |q| < 2 ^ (f.minExponent - 1)) : Rounds f q 0 := by
  have unit : (0 : ℚ) < 2 ^ lastPlace f q := by positivity
  have small : |q / 2 ^ lastPlace f q - (0 : ℤ)| < 1 / 2 := by
    rw [Int.cast_zero, sub_zero, abs_div, abs_of_pos unit, div_lt_iff₀ unit]
    calc |q| < 2 ^ (f.minExponent - 1) := tiny
      _ ≤ 2 ^ (lastPlace f q - 1) :=
        zpow_le_zpow_right₀ one_le_two (by have := minExponent_le_lastPlace f q; omega)
      _ = 1 / 2 * 2 ^ lastPlace f q := by rw [zpow_sub_one₀ two_ne_zero]; ring
  exact ⟨0, ⟨small.le, fun tie => absurd tie small.ne⟩, by simp⟩

theorem Rounds.neg (rounds : Rounds f q v) : Rounds f (-q) (-v) := by
  obtain ⟨n, near, rfl⟩ := rounds
  refine ⟨-n, ?_, ?_⟩
  · rw [lastPlace_neg, neg_div]
    exact near.neg
  · rw [lastPlace_neg]
    push_cast
    ring

theorem abs_le_of_nearest {n : ℤ} (near : NearestEven (q / 2 ^ lastPlace f q) n) :
    |n| ≤ 2 ^ f.mantissaBits := by
  have unit : (0 : ℚ) < 2 ^ lastPlace f q := by positivity
  have size : |q / 2 ^ lastPlace f q| ≤ ((2 ^ f.mantissaBits : ℤ) : ℚ) := by
    have below := abs_lt_lastPlace f q
    rw [zpow_add₀ two_ne_zero, zpow_natCast] at below
    rw [abs_div, abs_of_pos unit, div_le_iff₀ unit]
    push_cast
    linarith
  have high := near.mono (.self _) (abs_le.1 size).2
  have low := near.neg.mono (.self _) (neg_le.1 (abs_le.1 size).1)
  exact abs_le.2 ⟨by omega, high⟩

theorem Rounds.representable (rounds : Rounds f q v) : Representable f v := by
  obtain ⟨n, near, rfl⟩ := rounds
  obtain ⟨ge, le⟩ := abs_le.1 (abs_le_of_nearest near)
  have least := minExponent_le_lastPlace f q
  generalize lastPlace f q = t at *
  by_cases full : |n| < 2 ^ f.mantissaBits
  · exact ⟨n, t, full, least, rfl⟩
  · -- A significand that has become too long is a power of two.
    have bits := mantissaBits_eq f
    have positive : (0 : ℤ) < 2 ^ f.mantissaBitsWithoutImplicit := by positivity
    rw [bits, pow_succ] at le ge full
    have double : |n| = 2 ^ f.mantissaBitsWithoutImplicit * 2 :=
      le_antisymm (abs_le.2 ⟨by omega, le⟩) (not_lt.1 full)
    obtain ⟨k, is⟩ : ∃ k, n = 2 * k := by
      rcases abs_choice n with same | same
      · exact ⟨2 ^ f.mantissaBitsWithoutImplicit, by omega⟩
      · exact ⟨-2 ^ f.mantissaBitsWithoutImplicit, by omega⟩
    refine ⟨k, t + 1, ?_, by omega, ?_⟩
    · rw [is, abs_mul] at double
      rw [bits, pow_succ]
      norm_num at double
      omega
    · rw [is, zpow_add_one₀ two_ne_zero]
      push_cast
      ring

theorem abs_sub_lt_of_abs_lt {b : ℚ} (within : |w| < b) (below : b ≤ |q|) :
    ∃ c, (c = b ∨ c = -b) ∧ |q - c| < |q - w| := by
  obtain ⟨low, high⟩ := abs_lt.1 within
  rcases le_total 0 q with pos | neg
  · rw [abs_of_nonneg pos] at below
    refine ⟨b, .inl rfl, ?_⟩
    rw [abs_of_nonneg (by linarith), abs_of_nonneg (by linarith)]
    linarith
  · rw [abs_of_nonpos neg] at below
    refine ⟨-b, .inr rfl, ?_⟩
    rw [abs_of_nonpos (by linarith), abs_of_nonpos (by linarith)]
    linarith

theorem Representable.onGrid_or_below (representable : Representable f w) (t : ℤ) :
    (∃ j : ℤ, w = j * 2 ^ t) ∨
      f.minExponent < t ∧ |w| < 2 ^ (t + f.mantissaBits - 1) := by
  obtain ⟨k, e, short, least, rfl⟩ := representable
  rcases le_or_gt t e with finer | coarser
  · refine .inl ⟨k * 2 ^ (e - t).toNat, ?_⟩
    have split : e = (e - t).toNat + t := by omega
    conv_lhs => rw [split]
    rw [zpow_add₀ two_ne_zero, zpow_natCast]
    push_cast
    ring
  · refine .inr ⟨by omega, ?_⟩
    have unit : (0 : ℚ) < 2 ^ e := by positivity
    have short : |(k : ℚ)| < 2 ^ f.mantissaBits := by exact_mod_cast short
    calc |(k : ℚ) * 2 ^ e| = |(k : ℚ)| * 2 ^ e := by rw [abs_mul, abs_of_pos unit]
      _ < 2 ^ f.mantissaBits * 2 ^ e := by gcongr
      _ = 2 ^ (e + f.mantissaBits) := by rw [zpow_add₀ two_ne_zero, zpow_natCast, mul_comm]
      _ ≤ 2 ^ (t + f.mantissaBits - 1) := zpow_le_zpow_right₀ one_le_two (by omega)

theorem abs_sub_grid (t n : ℤ) : |q - n * 2 ^ t| = |q / 2 ^ t - n| * 2 ^ t := by
  have unit : (0 : ℚ) < 2 ^ t := by positivity
  conv_lhs => rw [← div_mul_cancel₀ q unit.ne', ← sub_mul, abs_mul, abs_of_pos unit]

/-- No number of the format is nearer than what `q` is rounded to, and another one that is as near
means that this has an even last digit. -/
theorem Rounds.nearest (rounds : Rounds f q v) (representable : Representable f w) :
    |q - v| ≤ |q - w| ∧
      (|q - v| = |q - w| → w = v ∨ ∃ n : ℤ, Even n ∧ v = n * 2 ^ lastPlace f q) := by
  obtain ⟨n, near, rfl⟩ := rounds
  have unit : (0 : ℚ) < 2 ^ lastPlace f q := by positivity
  have onGrid (j : ℤ) : |q - n * 2 ^ lastPlace f q| ≤ |q - j * 2 ^ lastPlace f q| ∧
      (|q - n * 2 ^ lastPlace f q| = |q - j * 2 ^ lastPlace f q| → j = n ∨ Even n) := by
    rw [abs_sub_grid, abs_sub_grid, mul_le_mul_iff_left₀ unit, mul_left_inj' unit.ne']
    by_cases same : j = n
    · exact ⟨by rw [same], fun _ => .inl same⟩
    · have far := near.half_le same
      exact ⟨near.1.trans far, fun tie => .inr (near.2 (le_antisymm near.1 (tie ▸ far)))⟩
  rcases representable.onGrid_or_below (lastPlace f q) with ⟨j, rfl⟩ | ⟨above, small⟩
  · refine ⟨(onGrid j).1, fun tie => ?_⟩
    rcases (onGrid j).2 tie with rfl | even
    · exact .inl rfl
    · exact .inr ⟨n, even, rfl⟩
  · -- The least power of two with this last place lies between the other number and `q`.
    by_cases zero : q = 0
    · subst zero
      have origin : n = 0 := near.unique (by simpa using NearestEven.self 0)
      subst origin
      refine ⟨by simp, fun _ => .inr ⟨0, by simp, rfl⟩⟩
    obtain ⟨c, is, closer⟩ := abs_sub_lt_of_abs_lt small (le_abs_of_lastPlace above zero)
    obtain ⟨j, grid⟩ : ∃ j : ℤ, c = j * 2 ^ lastPlace f q := by
      have split : (2 : ℚ) ^ (lastPlace f q + f.mantissaBits - 1) =
          2 ^ f.mantissaBitsWithoutImplicit * 2 ^ lastPlace f q := by
        have sum : lastPlace f q + f.mantissaBits - 1 =
            f.mantissaBitsWithoutImplicit + lastPlace f q := by
          rw [Format.mantissaBits]
          omega
        rw [sum, zpow_add₀ two_ne_zero, zpow_natCast]
      rcases is with rfl | rfl
      · exact ⟨2 ^ f.mantissaBitsWithoutImplicit, by rw [split]; push_cast; rfl⟩
      · exact ⟨-2 ^ f.mantissaBitsWithoutImplicit, by rw [split]; push_cast; ring⟩
    have nearer : |q - n * 2 ^ lastPlace f q| < |q - w| := (grid ▸ (onGrid j).1).trans_lt closer
    exact ⟨nearer.le, fun tie => absurd tie nearer.ne⟩

theorem Rounds.zero (f : Format) : Rounds f 0 0 :=
  ⟨0, by simpa using NearestEven.self 0, by simp⟩

theorem Rounds.self (representable : Representable f v) : Rounds f v v := by
  by_cases zero : v = 0
  · rw [zero]
    exact .zero f
  rcases representable.onGrid_or_below (lastPlace f v) with ⟨j, grid⟩ | ⟨above, small⟩
  · have unit : (2 : ℚ) ^ lastPlace f v ≠ 0 := by positivity
    have digits : v / 2 ^ lastPlace f v = j := by rw [div_eq_iff unit, ← grid]
    exact ⟨j, digits ▸ .self j, grid⟩
  · exact absurd small (le_abs_of_lastPlace above zero).not_gt

theorem middle_le_of_nearer (below : w < v) (nearer : |q - v| ≤ |q - w|) : v + w ≤ 2 * q := by
  have squares : 0 ≤ (v - w) * (2 * q - (v + w)) := by
    have := sq_le_sq.2 nearer
    linarith
  linarith [nonneg_of_mul_nonneg_right squares (sub_pos.2 below)]

theorem Rounds.mono (first : Rounds f q v) (second : Rounds f q' v') (le : q ≤ q') : v ≤ v' := by
  rcases le.eq_or_lt with rfl | lt
  · exact (first.unique second).le
  · by_contra! above
    have behind := middle_le_of_nearer above (first.nearest second.representable).1
    have before := middle_le_of_nearer (q := -q') (neg_lt_neg above) (by
      have := (second.nearest first.representable).1
      rwa [← abs_neg, ← abs_neg (q' - v), neg_sub', neg_sub'] at this)
    linarith

end

/-! ## Digits that are shifted out -/

open UnpackedFloat

/-- The significand holds the digits of `x` in front of the point, the round bit is the first one
behind it, and the sticky bit tells whether any other one is set. -/
def Holds (em : ExtendedMantissa) (x : ℚ) : Prop :=
  ∃ r : ℚ, 0 ≤ r ∧ r < 1 / 2 ∧ (em.stickyBit = false ↔ r = 0) ∧
    x = em.mantissa + em.roundBit.toNat / 2 + r

namespace Holds

variable {em : ExtendedMantissa} {x : ℚ}

theorem exact (m : ℕ) : Holds ⟨m, false, false⟩ m :=
  ⟨0, le_rfl, by norm_num, by simp, by simp⟩

theorem fraction {num den : ℕ} (m : ℕ) (proper : num < den) :
    Holds (.ofMantissaAndAccuracy m (accuracyOfFraction num den)) (m + num / den) := by
  have positive : (0 : ℚ) < den := by exact_mod_cast (Nat.zero_le num).trans_lt proper
  have below : (num : ℚ) < den := by exact_mod_cast proper
  by_cases none : num = 0
  · rw [accuracyOfFraction, if_pos none, none, Nat.cast_zero, zero_div, add_zero]
    exact exact m
  · have some : (0 : ℚ) < num := by exact_mod_cast Nat.pos_of_ne_zero none
    rw [accuracyOfFraction, if_neg none]
    -- The rest is below a half, at a half or above it.
    rcases order : compare (2 * num) den with _ | _ | _
    · have half : (2 : ℚ) * num < den := by exact_mod_cast Nat.compare_eq_lt.1 order
      refine ⟨num / den, by positivity, ?_, ?_, ?_⟩
      · rw [div_lt_div_iff₀ positive two_pos]
        linarith
      · simp [ExtendedMantissa.ofMantissaAndAccuracy, (div_pos some positive).ne']
      · simp [ExtendedMantissa.ofMantissaAndAccuracy]
    · have half : (2 : ℚ) * num = den := by exact_mod_cast Nat.compare_eq_eq.1 order
      refine ⟨0, le_rfl, by norm_num, by simp [ExtendedMantissa.ofMantissaAndAccuracy], ?_⟩
      have is : (num : ℚ) / den = 1 / 2 := by
        rw [div_eq_div_iff positive.ne' two_ne_zero]
        linarith
      simp [ExtendedMantissa.ofMantissaAndAccuracy, is]
    · have half : (den : ℚ) < 2 * num := by exact_mod_cast Nat.compare_eq_gt.1 order
      have more : 1 / 2 < (num : ℚ) / den := by
        rw [div_lt_div_iff₀ two_pos positive]
        linarith
      have less : (num : ℚ) / den < 1 := (div_lt_one positive).2 below
      refine ⟨num / den - 1 / 2, by linarith, by linarith, ?_, ?_⟩
      · simpa [ExtendedMantissa.ofMantissaAndAccuracy] using (sub_pos.2 more).ne'
      · simp [ExtendedMantissa.ofMantissaAndAccuracy]

theorem shiftRightOne (holds : Holds em x) : Holds em.shiftRightOne (x / 2) := by
  obtain ⟨r, low, high, sticky, rfl⟩ := holds
  have whole : (em.mantissa : ℚ) = 2 * (em.mantissa / 2 : ℕ) + (em.mantissa % 2 : ℕ) := by
    exact_mod_cast (Nat.div_add_mod em.mantissa 2).symm
  have odd : ((em.mantissa % 2 != 0).toNat : ℚ) = (em.mantissa % 2 : ℕ) := by
    rcases Nat.mod_two_eq_zero_or_one em.mantissa with last | last <;> simp [last]
  have bit : (0 : ℚ) ≤ em.roundBit.toNat ∧ (em.roundBit.toNat : ℚ) ≤ 1 :=
    ⟨by positivity, by exact_mod_cast em.roundBit.toNat_le⟩
  refine ⟨(em.roundBit.toNat / 2 + r) / 2, by linarith, by linarith, ?_, ?_⟩
  · simp only [ExtendedMantissa.shiftRightOne, Bool.or_eq_false_iff, sticky]
    cases em.roundBit
    · simp
    · simp only [Bool.true_eq_false, false_and, Bool.toNat_true, Nat.cast_one, false_iff]
      linarith
  · simp only [ExtendedMantissa.shiftRightOne, odd]
    linarith

theorem shiftRight (holds : Holds em x) (k : ℕ) : Holds (em >>> k) (x / 2 ^ k) := by
  induction k with
  | zero =>
    rw [pow_zero, div_one]
    exact holds
  | succ k ih =>
    rw [pow_succ, ← div_div]
    exact ih.shiftRightOne

theorem roundedMantissa (holds : Holds em x) : NearestEven x em.roundedMantissa := by
  obtain ⟨r, low, high, sticky, rfl⟩ := holds
  obtain ⟨m, roundBit, stickyBit⟩ := em
  have inside {n : ℤ} {d : ℚ} (is : m + roundBit.toNat / 2 + r - n = d) (less : |d| < 1 / 2) :
      NearestEven (m + roundBit.toNat / 2 + r) n := by
    rw [NearestEven, is]
    exact ⟨less.le, fun tie => absurd tie less.ne⟩
  have between {n : ℤ} (is : |m + roundBit.toNat / 2 + r - n| = 1 / 2) (even : Even n) :
      NearestEven (m + roundBit.toNat / 2 + r) n :=
    ⟨is.le, fun _ => even⟩
  -- The bits tell whether the rest is below, at or above a half; at a half the even one is taken.
  match roundBit, stickyBit with
  | false, false =>
    change NearestEven _ (m : ℤ)
    exact inside (d := 0) (by simp [sticky.1 rfl]) (by norm_num)
  | false, true =>
    change NearestEven _ (m : ℤ)
    exact inside (d := r) (by simp) (abs_lt.2 ⟨by linarith, high⟩)
  | true, true =>
    have some : 0 < r := low.lt_of_ne' fun none => by simpa using sticky.2 none
    change NearestEven _ ((m + 1 : ℕ) : ℤ)
    refine inside (d := r - 1 / 2) ?_ (abs_lt.2 ⟨by linarith, by linarith⟩)
    rw [Bool.toNat_true]
    push_cast
    ring
  | true, false =>
    change NearestEven _ ((m + m % 2 : ℕ) : ℤ)
    rw [Bool.toNat_true, sticky.1 rfl] at between ⊢
    rcases Nat.mod_two_eq_zero_or_one m with last | last <;> rw [last]
    · exact between (by norm_num) (by exact_mod_cast Nat.even_iff.2 last)
    · exact between (by push_cast; norm_num [abs_of_nonpos])
        (by exact_mod_cast (Nat.odd_iff.2 last).add_one)

end Holds

/-! ## Steps of the arithmetic -/

section

variable {f : Format} {q : ℚ} {m : ℕ} {e : ℤ} {accuracy : Accuracy}

theorem Holds.bounds {em : ExtendedMantissa} {x : ℚ} (holds : Holds em x) :
    (em.mantissa : ℚ) ≤ x ∧ x < em.mantissa + 1 := by
  obtain ⟨r, low, high, -, rfl⟩ := holds
  have bit : (0 : ℚ) ≤ em.roundBit.toNat ∧ (em.roundBit.toNat : ℚ) ≤ 1 :=
    ⟨by positivity, by exact_mod_cast em.roundBit.toNat_le⟩
  constructor <;> linarith

theorem mantissa_ofMantissaAndAccuracy (m : ℕ) (accuracy : Accuracy) :
    (ExtendedMantissa.ofMantissaAndAccuracy m accuracy).mantissa = m := by
  rcases accuracy with _ | _ | _ | _ <;> rfl

theorem log_of_digits (some : m ≠ 0) (low : (m : ℚ) * 2 ^ e ≤ q) (high : q < (m + 1) * 2 ^ e) :
    Int.log 2 q = m.log2 + e := by
  have unit : (0 : ℚ) < 2 ^ e := by positivity
  have first : (2 : ℚ) ^ (m.log2 + e) ≤ q := by
    have : ((2 ^ m.log2 : ℕ) : ℚ) ≤ m := by exact_mod_cast Nat.log2_self_le some
    rw [zpow_add₀ two_ne_zero, zpow_natCast]
    refine le_trans ?_ low
    push_cast at this
    gcongr
  have last : q < (2 : ℚ) ^ (m.log2 + e + 1) := by
    have : ((m + 1 : ℕ) : ℚ) ≤ (2 ^ (m.log2 + 1) : ℕ) := by exact_mod_cast Nat.lt_log2_self
    have sum : (m.log2 : ℤ) + e + 1 = (m.log2 + 1 : ℕ) + e := by push_cast; ring
    rw [sum, zpow_add₀ two_ne_zero, zpow_natCast]
    refine high.trans_le ?_
    push_cast at this
    gcongr
  have positive : 0 < q := (by positivity : (0 : ℚ) < 2 ^ (m.log2 + e)).trans_le first
  have le := (Int.zpow_le_iff_le_log one_lt_two positive).1 first
  have lt := (Int.lt_zpow_iff_log_lt one_lt_two positive).1 last
  omega

theorem lastPlace_of_digits (some : m ≠ 0) (low : (m : ℚ) * 2 ^ e ≤ q)
    (high : q < (m + 1) * 2 ^ e) : lastPlace f q = f.targetExponent (totalExponent m e) := by
  have unit : (0 : ℚ) < 2 ^ e := by positivity
  have positive : 0 < q := (by positivity : (0 : ℚ) < m * 2 ^ e).trans_le low
  rw [lastPlace, abs_of_pos positive, log_of_digits some low high, totalExponent]
  congr 1
  ring

theorem lastPlace_dyadic (positive : 0 < m) :
    lastPlace f (m * 2 ^ e) = f.targetExponent (totalExponent m e) := by
  have unit : (0 : ℚ) < 2 ^ e := by positivity
  exact lastPlace_of_digits positive.ne' le_rfl (by linarith)

theorem targetExponent_of_holds (positive : 0 < q)
    (holds : Holds (.ofMantissaAndAccuracy m accuracy) (q / 2 ^ e)) (fine : e ≤ lastPlace f q) :
    f.targetExponent (totalExponent m e) = lastPlace f q := by
  have unit : (0 : ℚ) < 2 ^ e := by positivity
  obtain ⟨low, high⟩ := holds.bounds
  rw [mantissa_ofMantissaAndAccuracy] at low high
  rw [le_div_iff₀ unit] at low
  rw [div_lt_iff₀ unit] at high
  by_cases none : m = 0
  · -- No digit is left, so the last place is the least one.
    rw [lastPlace, abs_of_pos positive] at fine ⊢
    have small : Int.log 2 q < e := by
      rw [← Int.lt_zpow_iff_log_lt one_lt_two positive]
      simpa [none] using high
    have bits := mantissaBits_eq f
    have := f.hm
    simp only [none, Format.targetExponent, totalExponent, Nat.log2_zero] at fine ⊢
    omega
  · exact (lastPlace_of_digits none low high).symm

theorem shiftToExponent_of_le {t : ℤ} (low : e ≤ t) :
    shiftToExponent m e accuracy t =
      (ExtendedMantissa.ofMantissaAndAccuracy m accuracy >>> (t - e).toNat, t) := by
  simp only [shiftToExponent, Prod.mk.injEq, true_and]
  omega

theorem holds_shiftToExponent {t : ℤ} (low : e ≤ t)
    (holds : Holds (.ofMantissaAndAccuracy m accuracy) (q / 2 ^ e)) :
    Holds (ExtendedMantissa.ofMantissaAndAccuracy m accuracy >>> (t - e).toNat) (q / 2 ^ t) := by
  have split : t = e + (t - e).toNat := by omega
  have shifted := holds.shiftRight (t - e).toNat
  rwa [div_div, ← zpow_natCast, ← zpow_add₀ two_ne_zero, ← split] at shifted

theorem shiftToTargetExponent_of_short {n : ℕ} {t : ℤ} (least : f.minExponent ≤ t)
    (short : n < 2 ^ f.mantissaBits) :
    shiftToTargetExponent f n t .exact = (⟨n, false, false⟩, t) := by
  have log : n.log2 + 1 ≤ f.mantissaBits := by
    by_cases none : n = 0
    · rw [none, Nat.log2_zero, Format.mantissaBits]
      omega
    · exact (Nat.log2_lt none).2 short
  have coarse : (f.targetExponent (totalExponent n t) - t).toNat = 0 := by
    rw [Format.targetExponent, totalExponent]
    omega
  rw [shiftToTargetExponent, shiftToExponent, coarse, Nat.cast_zero, add_zero]
  rfl

theorem shiftToTargetExponent_of_full {t : ℤ} (least : f.minExponent ≤ t) :
    shiftToTargetExponent f (2 ^ f.mantissaBits) t .exact =
      (⟨2 ^ f.mantissaBitsWithoutImplicit, false, false⟩, t + 1) := by
  have next : f.targetExponent (totalExponent (2 ^ f.mantissaBits) t) = t + 1 := by
    rw [Format.targetExponent, totalExponent, Nat.log2_two_pow]
    omega
  have digits : (2 : ℕ) ^ f.mantissaBits = 2 * 2 ^ f.mantissaBitsWithoutImplicit := by
    rw [Format.mantissaBits, Nat.add_comm, Nat.pow_succ, Nat.mul_comm]
  have amount : (t + 1 - t).toNat = 1 := by omega
  rw [shiftToTargetExponent, next, shiftToExponent, amount, digits]
  refine Prod.ext ?_ rfl
  change ExtendedMantissa.shiftRightOne ⟨_, false, false⟩ = _
  simp [ExtendedMantissa.shiftRightOne]

theorem two_pow_le_of_nearest {n : ℕ} (positive : 0 < q) (above : f.minExponent < lastPlace f q)
    (near : NearestEven (q / 2 ^ lastPlace f q) n) : 2 ^ f.mantissaBitsWithoutImplicit ≤ n := by
  have low := le_abs_of_lastPlace above positive.ne'
  rw [abs_of_pos positive] at low
  generalize lastPlace f q = t at low near
  have unit : (0 : ℚ) < 2 ^ t := by positivity
  have long : ((2 ^ f.mantissaBitsWithoutImplicit : ℤ) : ℚ) ≤ q / 2 ^ t := by
    have bits := mantissaBits_eq f
    have sum : t + f.mantissaBits - 1 = f.mantissaBitsWithoutImplicit + t := by omega
    rw [sum, zpow_add₀ two_ne_zero, zpow_natCast] at low
    rw [le_div_iff₀ unit]
    exact_mod_cast low
  exact_mod_cast (NearestEven.self _).mono near long

/-- A number whose digits reach far enough is rounded, and the result is in the form that the format
wants. -/
theorem roundWithAccuracy_rounds (positive : 0 < q)
    (holds : Holds (.ofMantissaAndAccuracy m accuracy) (q / 2 ^ e)) (fine : e ≤ lastPlace f q)
    (s : Sign) : ∃ n : ℕ, NearestEven (q / 2 ^ lastPlace f q) n ∧
      (n = 0 ∧ roundWithAccuracy f s m e accuracy = .zero s ∨
        ∃ m' e' pos, roundWithAccuracy f s m e accuracy = .finite s m' e' pos ∧
          Canonical f (.finite s m' e' pos) ∧
          (m' : ℚ) * 2 ^ e' = n * 2 ^ lastPlace f q) := by
  have least := minExponent_le_lastPlace f q
  have target := targetExponent_of_holds positive holds fine
  have near := (holds_shiftToExponent fine holds).roundedMantissa
  have first : shiftToTargetExponent f m e accuracy = _ :=
    (congrArg (shiftToExponent m e accuracy) target).trans (shiftToExponent_of_le fine)
  have size := abs_le_of_nearest near
  have all := fun above => two_pow_le_of_nearest positive above near
  generalize lastPlace f q = t at *
  generalize ExtendedMantissa.ofMantissaAndAccuracy m accuracy >>> (t - e).toNat = em at *
  refine ⟨em.roundedMantissa, near, ?_⟩
  rw [roundWithAccuracy, first]
  dsimp only
  generalize em.roundedMantissa = n at *
  have le : n ≤ 2 ^ f.mantissaBits := by
    rw [Nat.abs_cast] at size
    exact_mod_cast size
  -- Rounding up may carry into one digit more, which is then shifted out.
  rcases le.lt_or_eq with short | rfl
  · rw [shiftToTargetExponent_of_short least short]
    by_cases none : n = 0
    · exact .inl ⟨none, dif_pos none⟩
    · refine .inr ⟨n, t, Nat.pos_of_ne_zero none, dif_neg none, ?_, rfl⟩
      exact canonical_of_bounds least short (least.eq_or_lt.imp Eq.symm all)
  · rw [shiftToTargetExponent_of_full least]
    have bits := mantissaBits_eq f
    have nonzero : (2 : ℕ) ^ f.mantissaBitsWithoutImplicit ≠ 0 := by positivity
    have short := Nat.pow_lt_pow_right one_lt_two (by omega :
      f.mantissaBitsWithoutImplicit < f.mantissaBits)
    refine .inr ⟨_, _, Nat.pos_of_ne_zero nonzero, dif_neg nonzero, ?_, ?_⟩
    · exact canonical_of_bounds (by omega) short (.inr le_rfl)
    · rw [bits, zpow_add_one₀ two_ne_zero]
      push_cast
      ring

end

end SceneScript.Number
