import Mathlib
import SceneScript.Proofs.Number.Rounding

/-!
# Arithmetic on floating-point numbers

A sum, a product or a quotient of finite numbers is what the exact result is rounded to, and
infinite if that is too large (`RoundsTo`). Finite numbers compare as their values do
(`compare_eq_value`), so sums and products respect order.
-/

namespace SceneScript.Number

open Float.Model UnpackedFloat

/-! ## Values -/

def value : UnpackedFloat → ℚ
  | .finite s m e _ => (s.apply m : ℤ) * 2 ^ e
  | _ => 0

section

variable {f : Format} {s : Sign} {m : ℕ} {e : ℤ} {pos : 0 < m}

theorem value_finite (s : Sign) (pos : 0 < m) :
    value (.finite s m e pos) = (s.apply 1 : ℤ) * (m * 2 ^ e) := by
  cases s <;> simp [value, Sign.apply]

theorem apply_mul (s t : Sign) : (s * t).apply 1 = s.apply 1 * t.apply 1 := by
  cases s <;> cases t <;> rfl

def overflow (f : Format) : ℚ :=
  2 ^ 2 ^ (f.exponentBits - 1)

theorem value_lt_overflow_iff (wide : 2 ≤ f.exponentBits)
    (canonical : Canonical f (.finite s m e pos)) :
    (m : ℚ) * 2 ^ e < overflow f ↔ e + f.mantissaBits ≤ 2 ^ (f.exponentBits - 1) := by
  have bits := mantissaBits_eq f
  obtain ⟨least, short, long⟩ := canonical.bounds
  have unit : (0 : ℚ) < 2 ^ e := by positivity
  have large := two_le_exponents wide
  have whole : overflow f = 2 ^ (2 ^ (f.exponentBits - 1) : ℤ) := by
    rw [overflow, ← zpow_natCast]
    push_cast
    rfl
  rw [whole]
  constructor
  · intro small
    by_contra! above
    -- A number that lies above the least exponent has all its digits.
    rcases long with is | long
    · rw [is, Format.minExponent] at above
      omega
    · have : ((2 ^ f.mantissaBitsWithoutImplicit : ℕ) : ℚ) ≤ m := by exact_mod_cast long
      have low : (2 : ℚ) ^ (f.mantissaBitsWithoutImplicit + e) ≤ m * 2 ^ e := by
        rw [zpow_add₀ two_ne_zero, zpow_natCast]
        push_cast at this
        gcongr
      have := (zpow_lt_zpow_iff_right₀ one_lt_two).1 (low.trans_lt small)
      omega
  · intro within
    have : (m : ℚ) < (2 ^ f.mantissaBits : ℕ) := by exact_mod_cast short
    calc (m : ℚ) * 2 ^ e < 2 ^ f.mantissaBits * 2 ^ e := by
          push_cast at this
          gcongr
      _ = 2 ^ (e + f.mantissaBits) := by rw [zpow_add₀ two_ne_zero, zpow_natCast, mul_comm]
      _ ≤ _ := zpow_le_zpow_right₀ one_le_two within

/-! ## Rounded results -/

/-- The number with the given sign and with what the magnitude `q` is rounded to, infinite if that
is too large for the format. -/
inductive RoundsTo (f : Format) (s : Sign) (q : ℚ) : UnpackedFloat → Prop
  | zero : Rounds f q 0 → RoundsTo f s q (.zero s)
  | finite {m : ℕ} {e : ℤ} {pos : 0 < m} : Rounds f q (m * 2 ^ e) → (m : ℚ) * 2 ^ e < overflow f →
      RoundsTo f s q (.finite s m e pos)
  | infinite {v : ℚ} : Rounds f q v → overflow f ≤ v → RoundsTo f s q (.infinity s)

variable {q : ℚ} {x y : UnpackedFloat}

theorem roundWithAccuracy_roundsTo (wide : 2 ≤ f.exponentBits) {accuracy : Accuracy}
    (positive : 0 < q) (holds : Holds (.ofMantissaAndAccuracy m accuracy) (q / 2 ^ e))
    (fine : e ≤ lastPlace f q) (s : Sign) :
    RoundsTo f s q (repacked f (roundWithAccuracy f s m e accuracy)) := by
  obtain ⟨n, near, ⟨rfl, is⟩ | ⟨m', e', pos, is, canonical, same⟩⟩ :=
    roundWithAccuracy_rounds positive holds fine s
  · rw [is, repacked_zero]
    exact .zero ⟨0, near, by simp⟩
  · have rounds : Rounds f q (m' * 2 ^ e') := ⟨n, near, same⟩
    have fits := value_lt_overflow_iff wide canonical
    rw [is, repacked_finite wide canonical]
    split_ifs with small
    · exact .finite rounds (fits.2 small)
    · exact .infinite rounds (not_lt.1 (mt fits.1 small))

theorem RoundsTo.value (rounds : RoundsTo f s q x) (finite : x.isFinite = true) :
    Rounds f ((s.apply 1 : ℤ) * q) (Number.value x) := by
  cases rounds with
  | zero rounds =>
    cases s
    · simpa [Sign.apply, Number.value] using rounds.neg
    · simpa [Sign.apply, Number.value] using rounds
  | finite rounds small =>
    cases s
    · simpa [Sign.apply, Number.value] using rounds.neg
    · simpa [Sign.apply, Number.value] using rounds
  | infinite => cases finite

theorem representable_overflow (wide : 2 ≤ f.exponentBits) : Representable f (overflow f) := by
  have large := two_le_exponents wide
  have some := f.hm
  refine ⟨1, (2 ^ (f.exponentBits - 1) : ℕ), ?_, ?_, ?_⟩
  · rw [abs_one]
    exact one_lt_pow₀ one_lt_two (by rw [Format.mantissaBits]; omega)
  · rw [Format.minExponent]
    push_cast
    omega
  · rw [Int.cast_one, one_mul, zpow_natCast, overflow]

theorem RoundsTo.of_large (wide : 2 ≤ f.exponentBits) (s : Sign) (large : overflow f ≤ q) :
    RoundsTo f s q (.infinity s) := by
  obtain ⟨v, rounds⟩ := exists_rounds f q
  exact .infinite rounds ((Rounds.self (representable_overflow wide)).mono rounds large)

/-! ## Sums and products -/

theorem round_roundsTo (wide : 2 ≤ f.exponentBits) (positive : 0 < m) (s : Sign) :
    RoundsTo f s (m * 2 ^ e) (repacked f (UnpackedFloat.round f s m e)) := by
  have total : (0 : ℚ) < m * 2 ^ e := by positivity
  have place := lastPlace_dyadic (f := f) (e := e) positive
  rw [UnpackedFloat.round]
  generalize f.targetExponent (totalExponent m e) = t at place
  -- The digits that are added are zeros.
  refine roundWithAccuracy_roundsTo wide total ?_ ?_ s
  · change Holds ⟨m <<< (e - t).toNat, false, false⟩ (m * 2 ^ e / 2 ^ (e - ((e - t).toNat : ℤ)))
    have shifted : (m : ℚ) * 2 ^ e / 2 ^ (e - ((e - t).toNat : ℤ)) =
        (m <<< (e - t).toNat : ℕ) := by
      rw [Nat.shiftLeft_eq, zpow_sub₀ two_ne_zero, zpow_natCast]
      push_cast
      field_simp
    rw [shifted]
    exact .exact _
  · rw [place]
    omega

theorem normalize_rounds (wide : 2 ≤ f.exponentBits) {n : ℤ}
    (finite : (repacked f (UnpackedFloat.normalize f n e .positive)).isFinite = true) :
    Rounds f (n * 2 ^ e) (value (repacked f (UnpackedFloat.normalize f n e .positive))) := by
  rw [UnpackedFloat.normalize] at finite ⊢
  rcases order : compare n 0 with _ | _ | _ <;> rw [order] at finite
  · have negative := compare_lt_iff_lt.1 order
    have rounds := (round_roundsTo wide (by omega : 0 < (-n).toNat) .negative).value finite
    have size : (((-n).toNat : ℕ) : ℚ) = -n := by
      have : (((-n).toNat : ℕ) : ℤ) = -n := by omega
      exact_mod_cast this
    simpa [Sign.apply, size] using rounds
  · have zero := compare_eq_iff_eq.1 order
    dsimp only
    rw [repacked_zero, zero]
    simpa [value] using Rounds.zero f
  · have positive := compare_gt_iff_gt.1 order
    have rounds := (round_roundsTo wide (by omega : 0 < n.toNat) .positive).value finite
    have size : ((n.toNat : ℕ) : ℚ) = n := by
      have : ((n.toNat : ℕ) : ℤ) = n := by omega
      exact_mod_cast this
    simpa [Sign.apply, size] using rounds

theorem Canonical.representable (canonical : Canonical f x) : Representable f (value x) := by
  cases x with
  | finite s m e pos =>
    obtain ⟨least, short, -⟩ := canonical.bounds
    refine ⟨s.apply m, e, ?_, least, rfl⟩
    have size : |s.apply (m : ℤ)| = m := by cases s <;> simp [Sign.apply]
    rw [size]
    exact_mod_cast short
  | zero | infinity | notANumber => exact ⟨0, f.minExponent, by simp, le_rfl, by simp [value]⟩

theorem repacked_canonical (wide : 2 ≤ f.exponentBits) (canonical : Canonical f x)
    (finite : (repacked f x).isFinite = true) : repacked f x = x := by
  cases x with
  | finite s m e pos =>
    rw [repacked_finite wide canonical] at finite ⊢
    split_ifs at finite ⊢
    · rfl
    · cases finite
  | zero s => exact repacked_zero f s
  | infinity s => exact repacked_infinity f s
  | notANumber => exact repacked_notANumber f

theorem shiftLeft_value (s : Sign) (m : ℕ) {t : ℤ} (low : t ≤ e) :
    ((s.apply (m <<< (e - t).toNat : ℕ) : ℤ) : ℚ) * 2 ^ t = (s.apply m : ℤ) * 2 ^ e := by
  have split : e = (e - t).toNat + t := by omega
  conv_rhs => rw [split]
  rw [Nat.shiftLeft_eq, zpow_add₀ two_ne_zero, zpow_natCast]
  cases s <;> simp only [Sign.apply] <;> push_cast <;> ring

theorem isFinite_of_repacked (x : UnpackedFloat) (finite : (repacked f x).isFinite = true) :
    x.isFinite = true := by
  cases x with
  | finite | zero => rfl
  | infinity s =>
    rw [repacked_infinity] at finite
    cases finite
  | notANumber =>
    rw [repacked_notANumber] at finite
    cases finite

theorem isFinite_of_add (finite : (UnpackedFloat.add f x y).isFinite = true) :
    x.isFinite = true ∧ y.isFinite = true := by
  cases x <;> cases y <;> try exact ⟨rfl, rfl⟩
  all_goals first
    | cases finite
    | (rw [UnpackedFloat.add] at finite; split at finite <;> cases finite)

theorem isFinite_of_mul (finite : (UnpackedFloat.mul f x y).isFinite = true) :
    x.isFinite = true ∧ y.isFinite = true := by
  cases x <;> cases y <;> first | exact ⟨rfl, rfl⟩ | cases finite

theorem add_rounds (wide : 2 ≤ f.exponentBits) (left : Canonical f x) (right : Canonical f y)
    (finite : (repacked f (UnpackedFloat.add f x y)).isFinite = true) :
    Rounds f (value x + value y) (value (repacked f (UnpackedFloat.add f x y))) := by
  obtain ⟨finiteLeft, finiteRight⟩ := isFinite_of_add (isFinite_of_repacked _ finite)
  match x, y with
  | .zero s, .zero t =>
    rw [UnpackedFloat.add]
    split_ifs <;> rw [repacked_zero] <;> simpa [value] using Rounds.zero f
  | .zero s, .finite t m e pos =>
    have sum : UnpackedFloat.add f (.zero s) (.finite t m e pos) = .finite t m e pos := rfl
    rw [sum] at finite ⊢
    rw [repacked_canonical wide right finite]
    simpa [value] using Rounds.self right.representable
  | .finite s m e pos, .zero t =>
    have sum : UnpackedFloat.add f (.finite s m e pos) (.zero t) = .finite s m e pos := rfl
    rw [sum] at finite ⊢
    rw [repacked_canonical wide left finite]
    simpa [value] using Rounds.self left.representable
  | .finite s m e pos, .finite s' m' e' pos' =>
    have rounds := normalize_rounds wide finite
    rwa [Int.cast_add, add_mul, shiftLeft_value s m (min_le_left e e'),
      shiftLeft_value s' m' (min_le_right e e')] at rounds

theorem exponents_le_lastPlace (wide : 2 ≤ f.exponentBits) {s' : Sign} {m' : ℕ} {e' : ℤ}
    {pos' : 0 < m'} (left : Canonical f (.finite s m e pos))
    (right : Canonical f (.finite s' m' e' pos')) :
    e + e' ≤ lastPlace f ((m * m' : ℕ) * 2 ^ (e + e')) := by
  have bits := mantissaBits_eq f
  have large := two_le_exponents wide
  have some := f.hm
  have nonzero := Nat.mul_pos pos pos'
  rw [lastPlace_dyadic nonzero, Format.targetExponent, totalExponent, Format.minExponent]
  obtain ⟨-, -, is | long⟩ := left.bounds
  · obtain ⟨-, -, is' | long⟩ := right.bounds
    · rw [Format.minExponent] at is is'
      omega
    · have := (Nat.le_log2 nonzero.ne').2 (long.trans (Nat.le_mul_of_pos_left m' pos))
      omega
  · have := (Nat.le_log2 nonzero.ne').2 (long.trans (Nat.le_mul_of_pos_right m pos'))
    omega

theorem mul_roundsTo (wide : 2 ≤ f.exponentBits) {s' : Sign} {m' : ℕ} {e' : ℤ} {pos' : 0 < m'}
    (fine : e + e' ≤ lastPlace f ((m * m' : ℕ) * 2 ^ (e + e'))) :
    RoundsTo f (s * s') ((m * m' : ℕ) * 2 ^ (e + e'))
      (repacked f (UnpackedFloat.mul f (.finite s m e pos) (.finite s' m' e' pos'))) := by
  have total : (0 : ℚ) < (m * m' : ℕ) * 2 ^ (e + e') := by
    have := Nat.mul_pos pos pos'
    positivity
  refine roundWithAccuracy_roundsTo wide total ?_ fine (s * s')
  rw [mul_div_cancel_right₀ _ (by positivity)]
  exact .exact _

theorem mul_rounds (wide : 2 ≤ f.exponentBits) (left : Canonical f x) (right : Canonical f y)
    (finite : (repacked f (UnpackedFloat.mul f x y)).isFinite = true) :
    Rounds f (value x * value y) (value (repacked f (UnpackedFloat.mul f x y))) := by
  obtain ⟨finiteLeft, finiteRight⟩ := isFinite_of_mul (isFinite_of_repacked _ finite)
  match x, y with
  | .zero s, .zero t =>
    rw [UnpackedFloat.mul, repacked_zero]
    simpa [value] using Rounds.zero f
  | .zero s, .finite t m e pos =>
    rw [UnpackedFloat.mul, repacked_zero]
    simpa [value] using Rounds.zero f
  | .finite s m e pos, .zero t =>
    rw [UnpackedFloat.mul, repacked_zero]
    simpa [value] using Rounds.zero f
  | .finite s m e pos, .finite s' m' e' pos' =>
    have rounds := (mul_roundsTo wide (exponents_le_lastPlace wide left right)).value finite
    have product : (((s * s').apply 1 : ℤ) : ℚ) * ((m * m' : ℕ) * 2 ^ (e + e')) =
        value (.finite s m e pos) * value (.finite s' m' e' pos') := by
      rw [apply_mul, value_finite, value_finite, zpow_add₀ two_ne_zero]
      push_cast
      ring
    rwa [product] at rounds

/-! ## Quotients -/

theorem divCore_le_lastPlace (f : Format) (e e' : ℤ) {m' : ℕ} (pos : 0 < m) (pos' : 0 < m') :
    f.targetExponent (totalExponent m e - totalExponent m' e') ≤
      lastPlace f (m * 2 ^ e / (m' * 2 ^ e')) := by
  have unit (t : ℤ) : (0 : ℚ) < 2 ^ t := by positivity
  have low : ((2 ^ m.log2 : ℕ) : ℚ) ≤ m := by exact_mod_cast Nat.log2_self_le pos.ne'
  have high : (m' : ℚ) ≤ (2 ^ (m'.log2 + 1) : ℕ) := by exact_mod_cast Nat.lt_log2_self.le
  have positive : (0 : ℚ) < m * 2 ^ e / (m' * 2 ^ e') := by positivity
  have size : (2 : ℚ) ^ (m.log2 + e - (m'.log2 + 1 + e')) ≤ m * 2 ^ e / (m' * 2 ^ e') := by
    push_cast at low high
    rw [zpow_sub₀ two_ne_zero, zpow_add₀ two_ne_zero, zpow_add₀ two_ne_zero (_ + 1),
      zpow_natCast, ← Nat.cast_succ, zpow_natCast]
    gcongr
  have log := (Int.zpow_le_iff_le_log one_lt_two positive).1 size
  rw [lastPlace, abs_of_pos positive]
  simp only [Format.targetExponent, totalExponent]
  omega

theorem div_roundsTo (wide : 2 ≤ f.exponentBits) {s' : Sign} {m' : ℕ} {e' : ℤ} {pos' : 0 < m'} :
    RoundsTo f (s / s') (m * 2 ^ e / (m' * 2 ^ e'))
      (repacked f (UnpackedFloat.div f (.finite s m e pos) (.finite s' m' e' pos'))) := by
  have fine := divCore_le_lastPlace f e e' pos pos'
  have total : (0 : ℚ) < m * 2 ^ e / (m' * 2 ^ e') := by positivity
  rw [UnpackedFloat.div, divCore]
  generalize f.targetExponent (totalExponent m e - totalExponent m' e') = t at fine
  have below := min_le_left (e - e') t
  have fine := (min_le_right (e - e') t).trans fine
  generalize min (e - e') t = low at below fine
  obtain ⟨k, is⟩ : ∃ k : ℕ, e - e' - low = k := ⟨(e - e' - low).toNat, by omega⟩
  dsimp only
  rw [is, Int.toNat_natCast]
  refine roundWithAccuracy_roundsTo wide total ?_ fine (s / s')
  have digits := Holds.fraction (m <<< k / m') (Nat.mod_lt (m <<< k) pos')
  -- The digits shifted in make the quotient whole up to its remainder.
  have quotient : (m : ℚ) * 2 ^ e / (m' * 2 ^ e') / 2 ^ low =
      (m <<< k / m' : ℕ) + (m <<< k % m' : ℕ) / m' := by
    have whole : ((m <<< k : ℕ) : ℚ) = m' * (m <<< k / m' : ℕ) + (m <<< k % m' : ℕ) := by
      exact_mod_cast (Nat.div_add_mod (m <<< k) m').symm
    have split : e = k + (e' + low) := by omega
    have shifted : ((m <<< k : ℕ) : ℚ) = m * 2 ^ k := by
      rw [Nat.shiftLeft_eq]
      push_cast
      rfl
    have divisor : (m' : ℚ) ≠ 0 := by exact_mod_cast pos'.ne'
    rw [shifted] at whole
    rw [split, zpow_add₀ two_ne_zero, zpow_add₀ two_ne_zero, zpow_natCast]
    field_simp
    linarith
  rwa [quotient]

/-! ## Order -/

section

variable {s' : Sign} {m' : ℕ} {e' : ℤ} {pos' : 0 < m'}

theorem Canonical.lt_of_exponent (left : Canonical f (.finite s m e pos))
    (right : Canonical f (.finite s' m' e' pos')) (lt : e < e') :
    (m : ℚ) * 2 ^ e < m' * 2 ^ e' := by
  have bits := mantissaBits_eq f
  obtain ⟨least, short, -⟩ := left.bounds
  have long : ((2 ^ f.mantissaBitsWithoutImplicit : ℕ) : ℚ) ≤ m' := by
    obtain ⟨-, -, is | long⟩ := right.bounds
    · omega
    · exact_mod_cast long
  have short : (m : ℚ) < (2 ^ f.mantissaBits : ℕ) := by exact_mod_cast short
  push_cast at long short
  calc (m : ℚ) * 2 ^ e < 2 ^ f.mantissaBits * 2 ^ e := by gcongr
    _ = 2 ^ (f.mantissaBitsWithoutImplicit + (e + 1)) := by
      rw [← zpow_natCast, ← zpow_add₀ two_ne_zero]
      congr 1
      omega
    _ ≤ 2 ^ (f.mantissaBitsWithoutImplicit + e') := zpow_le_zpow_right₀ one_le_two (by omega)
    _ = 2 ^ f.mantissaBitsWithoutImplicit * 2 ^ e' := by rw [zpow_add₀ two_ne_zero, zpow_natCast]
    _ ≤ m' * 2 ^ e' := by gcongr

theorem Canonical.compare_magnitude (left : Canonical f (.finite s m e pos))
    (right : Canonical f (.finite s' m' e' pos')) :
    (compare e e').then (compare m m') = compare ((m : ℚ) * 2 ^ e) (m' * 2 ^ e') := by
  rcases lt_trichotomy e e' with lt | rfl | gt
  · rw [compare_lt_iff_lt.2 lt, compare_lt_iff_lt.2 (left.lt_of_exponent right lt)]
    rfl
  · have unit : (0 : ℚ) < 2 ^ e := by positivity
    rw [compare_eq_iff_eq.2 rfl]
    rcases lt_trichotomy m m' with lt | rfl | gt
    · have : (m : ℚ) < m' := by exact_mod_cast lt
      rw [compare_lt_iff_lt.2 lt, compare_lt_iff_lt.2 (by gcongr)]
      rfl
    · rw [compare_eq_iff_eq.2 rfl, compare_eq_iff_eq.2 rfl]
      rfl
    · have : (m' : ℚ) < m := by exact_mod_cast gt
      rw [compare_gt_iff_gt.2 gt, compare_gt_iff_gt.2 (by gcongr)]
      rfl
  · rw [compare_gt_iff_gt.2 gt, compare_gt_iff_gt.2 (right.lt_of_exponent left gt)]
    rfl

end

theorem compare_opposites (a b : ℚ) : compare (-a) (-b) = (compare a b).swap := by
  rcases lt_trichotomy a b with lt | rfl | gt
  · rw [compare_lt_iff_lt.2 lt, compare_gt_iff_gt.2 (neg_lt_neg lt)]
    rfl
  · rw [compare_eq_iff_eq.2 rfl, compare_eq_iff_eq.2 rfl]
    rfl
  · rw [compare_gt_iff_gt.2 gt, compare_lt_iff_lt.2 (neg_lt_neg gt)]
    rfl

theorem compare_eq_value (left : Canonical f x) (right : Canonical f y)
    (finiteLeft : x.isFinite = true) (finiteRight : y.isFinite = true) :
    x.compare y = some (compare (value x) (value y)) := by
  have size {m : ℕ} {e : ℤ} (pos : 0 < m) : (0 : ℚ) < m * 2 ^ e := by positivity
  match x, y with
  | .zero s, .zero t =>
    exact congrArg some (compare_eq_iff_eq.2 rfl).symm
  | .zero s, .finite t m e pos =>
    rw [value_finite]
    have := size (e := e) pos
    cases t
    · rw [compare_gt_iff_gt.2 (by simpa [value, Sign.apply] using this)]
      rfl
    · rw [compare_lt_iff_lt.2 (by simpa [value, Sign.apply] using this)]
      rfl
  | .finite s m e pos, .zero t =>
    rw [value_finite]
    have := size (e := e) pos
    cases s
    · rw [compare_lt_iff_lt.2 (by simpa [value, Sign.apply] using this)]
      rfl
    · rw [compare_gt_iff_gt.2 (by simpa [value, Sign.apply] using this)]
      rfl
  | .finite s m e pos, .finite s' m' e' pos' =>
    have magnitude := left.compare_magnitude right
    have := size (e := e) pos
    have := size (e := e') pos'
    rw [value_finite, value_finite]
    cases s <;> cases s'
    -- Of two negative numbers the larger magnitude is the smaller number.
    · have minus {a : ℚ} : ((Sign.negative.apply 1 : ℤ) : ℚ) * a = -a := by simp [Sign.apply]
      rw [UnpackedFloat.compare, magnitude, minus, minus, compare_opposites]
    · rw [compare_lt_iff_lt.2 (by simp [Sign.apply]; linarith)]
      rfl
    · rw [compare_gt_iff_gt.2 (by simp [Sign.apply]; linarith)]
      rfl
    · simpa [UnpackedFloat.compare, Sign.apply] using magnitude

end

/-! ## Single precision -/

def real (x : Float32) : ℚ :=
  value x.toModel.unpack

section

variable {x y : Float32}

theorem canonical_single (x : Float32) : Canonical .binary32 x.toModel.unpack := by
  cases shape : x.toModel.unpack with
  | finite s m e pos => exact (unpack_finite (by decide) shape).1
  | zero | infinity | notANumber => trivial

theorem lt_iff_real (left : x.isFinite) (right : y.isFinite) : x < y ↔ real x < real y := by
  have is : x < y ↔ x.toModel.unpack.compare y.toModel.unpack = some .lt := by
    simp [LT.lt, Float32.lt, Float32.Model.lt, UnpackedFloat.lt]
  rw [is, compare_eq_value (canonical_single x) (canonical_single y) left right,
    Option.some.injEq, compare_lt_iff_lt]
  rfl

theorem le_iff_real (left : x.isFinite) (right : y.isFinite) : x ≤ y ↔ real x ≤ real y := by
  have is : x ≤ y ↔ (x.toModel.unpack.compare y.toModel.unpack).any (·.isLE) = true :=
    decide_eq_true_iff
  rw [is, compare_eq_value (canonical_single x) (canonical_single y) left right,
    Option.any_some, Ordering.isLE_iff_ne_gt]
  exact (not_congr compare_gt_iff_gt).trans not_lt

theorem isFinite_of_add_single (finite : (x + y).isFinite) : x.isFinite ∧ y.isFinite :=
  isFinite_of_add (isFinite_of_repacked _ finite)

theorem isFinite_of_mul_single (finite : (x * y).isFinite) : x.isFinite ∧ y.isFinite :=
  isFinite_of_mul (isFinite_of_repacked _ finite)

theorem add_single (finite : (x + y).isFinite) :
    Rounds .binary32 (real x + real y) (real (x + y)) :=
  add_rounds (by decide) (canonical_single x) (canonical_single y) finite

theorem mul_single (finite : (x * y).isFinite) :
    Rounds .binary32 (real x * real y) (real (x * y)) :=
  mul_rounds (by decide) (canonical_single x) (canonical_single y) finite

end

/-! ## Rounding keeps the order -/

section

variable {k x y z lo hi : Float32}

theorem le_refl_single (finite : x.isFinite) : x ≤ x :=
  (le_iff_real finite finite).2 le_rfl

theorem le_trans_single (finiteX : x.isFinite) (finiteY : y.isFinite) (finiteZ : z.isFinite)
    (first : x ≤ y) (second : y ≤ z) : x ≤ z := by
  rw [le_iff_real finiteX finiteY] at first
  rw [le_iff_real finiteY finiteZ] at second
  exact (le_iff_real finiteX finiteZ).2 (first.trans second)

theorem add_le_add_single {x' y' : Float32} (finite : (x + y).isFinite)
    (finite' : (x' + y').isFinite) (left : x ≤ x') (right : y ≤ y') : x + y ≤ x' + y' := by
  obtain ⟨finiteX, finiteY⟩ := isFinite_of_add_single finite
  obtain ⟨finiteX', finiteY'⟩ := isFinite_of_add_single finite'
  rw [le_iff_real finiteX finiteX'] at left
  rw [le_iff_real finiteY finiteY'] at right
  exact (le_iff_real finite finite').2
    ((add_single finite).mono (add_single finite') (add_le_add left right))

theorem mul_between_single (finite : (k * x).isFinite) (finiteLo : (k * lo).isFinite)
    (finiteHi : (k * hi).isFinite) (low : lo ≤ x) (high : x ≤ hi) :
    k * lo ≤ k * x ∧ k * x ≤ k * hi ∨ k * hi ≤ k * x ∧ k * x ≤ k * lo := by
  rw [le_iff_real (isFinite_of_mul_single finiteLo).2 (isFinite_of_mul_single finite).2] at low
  rw [le_iff_real (isFinite_of_mul_single finite).2 (isFinite_of_mul_single finiteHi).2] at high
  rw [le_iff_real finiteLo finite, le_iff_real finite finiteHi, le_iff_real finiteHi finite,
    le_iff_real finite finiteLo]
  have rounds := mul_single finite
  have roundsLo := mul_single finiteLo
  have roundsHi := mul_single finiteHi
  rcases le_total 0 (real k) with positive | negative
  · exact .inl ⟨roundsLo.mono rounds (mul_le_mul_of_nonneg_left low positive),
      rounds.mono roundsHi (mul_le_mul_of_nonneg_left high positive)⟩
  · exact .inr ⟨roundsHi.mono rounds (mul_le_mul_of_nonpos_left high negative),
      rounds.mono roundsLo (mul_le_mul_of_nonpos_left low negative)⟩

theorem isNaN_of_finite (finite : x.isFinite) : x.isNaN = false := by
  change x.toModel.unpack.isFinite = true at finite
  change x.toModel.unpack.isNaN = false
  cases shape : x.toModel.unpack <;> rw [shape] at finite <;> first | rfl | cases finite

theorem smaller32_le (finiteX : x.isFinite) (finiteY : y.isFinite) :
    smaller32 x y ≤ x ∧ smaller32 x y ≤ y := by
  have order := lt_iff_real finiteY finiteX
  rw [smaller32, isNaN_of_finite finiteX, if_neg Bool.false_ne_true]
  split_ifs with below
  · exact ⟨(le_iff_real finiteY finiteX).2 (order.1 below).le, le_refl_single finiteY⟩
  · exact ⟨le_refl_single finiteX,
      (le_iff_real finiteX finiteY).2 (not_lt.1 (mt order.2 below))⟩

theorem le_larger32 (finiteX : x.isFinite) (finiteY : y.isFinite) :
    x ≤ larger32 x y ∧ y ≤ larger32 x y := by
  have order := lt_iff_real finiteX finiteY
  rw [larger32, isNaN_of_finite finiteX, if_neg Bool.false_ne_true]
  split_ifs with above
  · exact ⟨(le_iff_real finiteX finiteY).2 (order.1 above).le, le_refl_single finiteY⟩
  · exact ⟨le_refl_single finiteX,
      (le_iff_real finiteY finiteX).2 (not_lt.1 (mt order.2 above))⟩

end

end SceneScript.Number
