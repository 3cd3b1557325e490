import Mathlib.Algebra.Order.Field.Power
import Mathlib.Tactic.Positivity
import Mathlib.Tactic.Ring
import SceneScript.Json.Number
import SceneScript.Proofs.Decimal.Length
import SceneScript.Proofs.Json.Reading
import SceneScript.Proofs.Number.Floats
import SceneScript.Proofs.Token.Writing

/-!
# Numbers as JSON

Whole numbers and finite floating-point numbers are written as JSON has them, in whatever layout
(`Decimal.Layout.numeral_text`). A whole number is read back exactly if it fits a word, and not at
all as one otherwise (`Json.natBelow?_nat`).
-/

namespace SceneScript

/-! ## Whole numbers -/

section

theorem toDigits_head {n : Nat} (positive : 0 < n) :
    ∃ c s, Nat.toDigits 10 n = c :: s ∧ c ≠ '0' := by
  induction n using Nat.strong_induction_on with
  | _ n ih =>
    obtain short | long := Nat.lt_or_ge n 10
    · refine ⟨_, _, Nat.toDigits_of_lt_base short, ?_⟩
      rw [Ne, Nat.digitChar_eq_zero]
      omega
    · obtain ⟨c, s, is, notZero⟩ := ih (n / 10) (by omega) (by omega)
      exact ⟨c, _, by rw [Nat.toDigits_of_base_le (by decide) long, is, List.cons_append], notZero⟩

namespace Json

theorem allDigits_toDigits (n : Nat) : AllDigits (Nat.toDigits 10 n) :=
  fun _ mem => Nat.isDigit_of_mem_toDigits (by decide) (by decide) mem

theorem Whole.of_nat (n : Nat) : Whole (Nat.toDigits 10 n) := by
  obtain rfl | positive := Nat.eq_zero_or_pos n
  · exact .zero
  · obtain ⟨c, s, is, notZero⟩ := toDigits_head positive
    rw [is]
    exact .digits notZero (is ▸ allDigits_toDigits n)

theorem Numeral.of_nat (n : Nat) : Numeral (toString n).toList := by
  have number : Unsigned (Nat.toDigits 10 n ++ ([] ++ [])) := ⟨.of_nat n, .none, .none⟩
  rw [List.append_nil, List.append_nil] at number
  rw [show (toString n).toList = Nat.toDigits 10 n from Nat.toList_repr]
  exact .positive number

theorem written_nat (n : Nat) : (nat n).Written :=
  Numeral.of_nat n

theorem numeric?_nat (n : Nat) : (n < wordBound → numeric? (toString n) = some (.natural n)) ∧
    (wordBound ≤ n → ∃ x? : Option Float, numeric? (toString n) = x?.map .float) := by
  obtain ⟨digits, -, value⟩ := Token.Piece.repr_digits n
  have whole : (toString n).toList.takeWhile Char.isDigit = (toString n).toList ∧
      (toString n).toList.dropWhile Char.isDigit = [] :=
    ⟨List.takeWhile_eq_self_iff.2 (by simpa using digits),
      List.dropWhile_eq_nil_iff.2 (by simpa using digits)⟩
  unfold numeric?
  split
  next negative unsigned parts =>
  obtain ⟨rfl, rfl⟩ : negative = false ∧ unsigned = (toString n).toList := by
    split at parts
    · next is =>
      have minus := List.all_eq_true.1 digits '-' (by rw [← Nat.toString_eq_repr, is]; simp)
      cases minus
    · exact ⟨(Prod.mk.inj parts).1.symm, (Prod.mk.inj parts).2.symm⟩
  dsimp only
  rw [whole.1, whole.2, Nat.toString_eq_repr, value]
  constructor
  · intro fits
    simp [fits, readWhole]
  · intro large
    rw [if_neg (by simp; omega)]
    exact ⟨_, rfl⟩

theorem natBelow?_nat {bound : Nat} (word : bound ≤ wordBound) (n : Nat) :
    (nat n).natBelow? bound = if n < bound then some n else none := by
  rw [nat, natBelow?]
  obtain fits | large := Nat.lt_or_ge n wordBound
  · rw [(numeric?_nat n).1 fits]
  · obtain ⟨x?, read⟩ := (numeric?_nat n).2 large
    rw [read, if_neg (by omega)]
    cases x? <;> rfl

end Json

end

/-! ## Digits of numbers -/

namespace Decimal

theorem Interval.le_nearer (tie : Tie) (i : Interval) :
    i.value / i.denominator ≤ i.nearer tie := by
  simp only [nearer]
  cases tie <;> dsimp only <;> split_ifs <;> omega

theorem Interval.whole?_pos {tie : Tie} {i : Interval} {n : Nat} (low : 0 < i.low)
    (found : i.whole? tie = some n) : 0 < n := by
  have below (down : i.reachesDown (i.value / i.denominator) = true) :
      0 < i.value / i.denominator := by
    refine Nat.pos_of_ne_zero fun zero => ?_
    rw [zero] at down
    unfold reachesDown at down
    split_ifs at down
    · simp only [Nat.zero_mul, Nat.le_zero, decide_eq_true_eq] at down
      exact low.ne' down
    · simp at down
  have nearer := i.le_nearer tie
  simp only [whole?] at found
  split at found
  · next down _ =>
    cases found
    exact (below down).trans_le nearer
  · next down _ =>
    cases found
    exact below down
  · cases found
    exact Nat.succ_pos _
  · cases found

theorem Interval.search_pos (tie : Tie) (grids : Nat) (exponent : Int) {i : Interval}
    (low : 0 < i.low) (divides : 0 < i.denominator) (fine : i.denominator ≤ 10 ^ grids * i.value) :
    0 < (i.search tie grids exponent).digits := by
  induction grids generalizing exponent i with
  | zero => exact Nat.div_pos (by simpa using fine) divides
  | succ grids ih =>
    cases found : i.whole? tie with
    | some n =>
      simp only [search, found]
      exact whole?_pos low found
    | none =>
      simp only [search, found]
      refine ih _ (Nat.mul_pos (by decide) low) divides ?_
      calc i.denominator ≤ 10 ^ (grids + 1) * i.value := fine
        _ = 10 ^ grids * (10 * i.value) := by ring

theorem two_pow_le_ten_pow {n b : Nat} (within : n ≤ 13 * b) : 2 ^ n ≤ 10 ^ (4 * b) :=
  calc 2 ^ n ≤ 2 ^ (13 * b) := Nat.pow_le_pow_right (by decide) within
    _ = 8192 ^ b := by rw [pow_mul]; rfl
    _ ≤ 10000 ^ b := Nat.pow_le_pow_left (by decide) b
    _ = 10 ^ (4 * b) := by rw [pow_mul]; rfl

theorem ten_pow_le_two_pow {n a : Nat} (within : 10 * a ≤ n) : 10 ^ (3 * a) ≤ 2 ^ n :=
  calc 10 ^ (3 * a) = 1000 ^ a := by rw [pow_mul]; rfl
    _ ≤ 1024 ^ a := Nat.pow_le_pow_left (by decide) a
    _ = 2 ^ (10 * a) := by rw [pow_mul]; rfl
    _ ≤ 2 ^ n := Nat.pow_le_pow_right (by decide) within

theorem Dyadic.Double.decade_le {d : Dyadic} (double : d.Double) :
    (10 : ℚ) ^ d.decade ≤ 10 ^ 20 * 2 ^ (d.significand.log2 + d.exponent) := by
  have log : d.significand.log2 < 53 := by
    obtain zero | positive := Nat.eq_zero_or_pos d.significand
    · simp [zero]
    · exact (Nat.log2_lt positive.ne').mpr double.significand
  have least := double.least
  have greatest := double.greatest
  have decade : d.decade = ((d.significand.log2 + 1 + d.exponent) * 30103) / 100000 + 1 := by
    rw [Dyadic.decade, Int.fdiv_eq_ediv_of_nonneg _ (by decide)]
  obtain ⟨n, is | is⟩ := Int.eq_nat_or_neg (d.significand.log2 + d.exponent)
  · have power : (10 : ℚ) ^ (3 * (n / 10)) ≤ 2 ^ n := by
      exact_mod_cast ten_pow_le_two_pow (Nat.mul_div_le n 10)
    calc (10 : ℚ) ^ d.decade ≤ 10 ^ ((20 + 3 * (n / 10) : ℕ) : ℤ) :=
          zpow_le_zpow_right₀ (by norm_num) (by omega)
      _ = 10 ^ 20 * 10 ^ (3 * (n / 10)) := by rw [zpow_natCast, pow_add]
      _ ≤ 10 ^ 20 * 2 ^ n := by gcongr
      _ = 10 ^ 20 * 2 ^ (d.significand.log2 + d.exponent) := by rw [is, zpow_natCast]
  · have power : (2 : ℚ) ^ n ≤ 10 ^ (4 * ((n + 12) / 13)) := by
      exact_mod_cast two_pow_le_ten_pow (by omega)
    calc (10 : ℚ) ^ d.decade ≤ 10 ^ (20 - (4 * ((n + 12) / 13) : ℕ) : ℤ) :=
          zpow_le_zpow_right₀ (by norm_num) (by omega)
      _ = 10 ^ 20 * (10 ^ (4 * ((n + 12) / 13)))⁻¹ := by
          rw [zpow_sub₀ (by norm_num), zpow_natCast, div_eq_mul_inv]
          rfl
      _ ≤ 10 ^ 20 * (2 ^ n)⁻¹ := by gcongr
      _ = 10 ^ 20 * 2 ^ (d.significand.log2 + d.exponent) := by rw [is, zpow_neg, zpow_natCast]

theorem zpow_toNat {b : ℚ} (nonzero : b ≠ 0) (z : ℤ) : b ^ z.toNat = b ^ z * b ^ (-z).toNat := by
  rw [← zpow_natCast, ← zpow_natCast, ← zpow_add₀ nonzero]
  congr 1
  omega

theorem Dyadic.Double.shortest_pos {d : Dyadic} (double : d.Double) (nonzero : d.significand ≠ 0)
    (tie : Tie) : 0 < (d.shortest tie).digits := by
  refine Interval.search_pos tie 20 _ ?_ ?_ ?_
  · refine Nat.mul_pos ?_ (Nat.mul_pos (Nat.pow_pos (by decide)) (Nat.pow_pos (by decide)))
    split_ifs <;> omega
  · exact Nat.mul_pos (Nat.pow_pos (by decide)) (Nat.pow_pos (by decide))
  · have size : (2 : ℚ) ^ d.significand.log2 ≤ d.significand := by
      exact_mod_cast Nat.log2_self_le nonzero
    have fine : (2 : ℚ) ^ (-(d.exponent - 2)) * 10 ^ d.decade ≤ 10 ^ 20 * (4 * d.significand) :=
      calc (2 : ℚ) ^ (-(d.exponent - 2)) * 10 ^ d.decade
          ≤ 2 ^ (-(d.exponent - 2)) * (10 ^ 20 * 2 ^ (d.significand.log2 + d.exponent)) := by
            gcongr
            exact double.decade_le
        _ = 10 ^ 20 * (2 ^ (2 - d.exponent) * 2 ^ (d.significand.log2 + d.exponent)) := by
            rw [neg_sub]
            ring
        _ = 10 ^ 20 * (4 * 2 ^ d.significand.log2) := by
            rw [← zpow_add₀ two_ne_zero, show (2 - d.exponent + (d.significand.log2 + d.exponent)) =
              2 + d.significand.log2 by omega, zpow_add₀ two_ne_zero, zpow_natCast]
            norm_num
        _ ≤ 10 ^ 20 * (4 * d.significand) := by gcongr
    have cast : ((d.interval d.decade).denominator : ℚ) ≤
        (10 ^ 20 * (d.interval d.decade).value : ℕ) := by
      simp only [Dyadic.interval, Nat.pow_eq]
      push_cast
      rw [zpow_toNat two_ne_zero (-(d.exponent - 2)), zpow_toNat (by norm_num) d.decade, neg_neg]
      calc _ = (2 : ℚ) ^ (-(d.exponent - 2)) * 10 ^ d.decade *
            (2 ^ (d.exponent - 2).toNat * 10 ^ (-d.decade).toNat) := by ring
        _ ≤ 10 ^ 20 * (4 * d.significand) *
            (2 ^ (d.exponent - 2).toNat * 10 ^ (-d.decade).toNat) := by gcongr
        _ = _ := by ring
    exact_mod_cast cast

/-! ## Layouts -/

section

open Json

variable {l : Layout} {c : Char} {s : List Char} {exponent : Int}

theorem allDigits_zeros (n : Nat) : AllDigits (zeros n) := by
  intro c mem
  rw [List.eq_of_mem_replicate mem]
  rfl

theorem Layout.fraction_wholeEnd (l : Layout) : Fraction l.wholeEnd := by
  unfold wholeEnd
  split_ifs
  · exact .digits (List.cons_ne_nil _ _) (by simp [AllDigits])
  · exact .none

theorem Layout.unsigned_placePoint (digits : AllDigits (c :: s)) (notZero : c ≠ '0') :
    Unsigned (l.placePoint (c :: s) exponent) := by
  unfold placePoint
  dsimp only
  split_ifs with small short
  · have fraction : Fraction ('.' :: (zeros (-exponent - 1).toNat ++ c :: s)) :=
      .digits (by simp) (List.forall_mem_append.2 ⟨allDigits_zeros _, digits⟩)
    simpa using Unsigned.parts .zero fraction .none
  · have whole : Whole (c :: (s ++ zeros (exponent.toNat + 1 - (c :: s).length))) :=
      .digits notZero (List.forall_mem_append.2 ⟨digits, allDigits_zeros _⟩)
    simpa using Unsigned.parts whole l.fraction_wholeEnd .none
  · have whole : Whole (c :: s.take exponent.toNat) :=
      .digits notZero fun d mem => digits d (List.mem_of_mem_take (i := exponent.toNat + 1) mem)
    have fraction : Fraction ('.' :: s.drop exponent.toNat) := by
      refine .digits ?_ fun d mem => digits d (List.mem_cons_of_mem _ (List.mem_of_mem_drop mem))
      rw [Ne, List.drop_eq_nil_iff]
      simpa using short
    simpa using Unsigned.parts whole fraction .none

theorem Layout.unsigned_scientific (digits : AllDigits (c :: s)) (notZero : c ≠ '0') :
    Unsigned (l.scientific (c :: s) exponent) := by
  have single : Whole [c] := .digits notZero fun d mem => by
    rw [List.mem_singleton.1 mem]
    exact digits c List.mem_cons_self
  have mark : Exponent ('e' :: ((if exponent < 0 then ['-'] else if l.plus then ['+'] else []) ++
      Nat.toDigits 10 exponent.natAbs)) := by
    refine .digits ?_ Nat.toDigits_ne_nil (allDigits_toDigits _)
    split_ifs <;> simp
  cases s with
  | nil => simpa [scientific] using Unsigned.parts single .none mark
  | cons second rest =>
    have fraction : Fraction ('.' :: second :: rest) :=
      .digits (List.cons_ne_nil _ _) fun d mem => digits d (List.mem_cons_of_mem _ mem)
    simpa [scientific] using Unsigned.parts single fraction mark

theorem Layout.unsigned_size (l : Layout) {d : Dyadic} (double : d.Double) :
    Unsigned (l.size d) := by
  unfold size
  by_cases zero : d.significand = 0
  · rw [if_pos zero]
    simpa using Unsigned.parts .zero l.fraction_wholeEnd .none
  · obtain ⟨c, s, is, notZero⟩ := toDigits_head (double.shortest_pos zero l.tie)
    have digits : AllDigits (c :: s) := is ▸ allDigits_toDigits _
    rw [if_neg zero]
    dsimp only
    rw [is]
    split_ifs
    · exact unsigned_placePoint digits notZero
    · exact unsigned_scientific digits notZero

end

theorem Layout.numeral_text (l : Layout) {d : Dyadic} (double : d.Double) (negative : Bool) :
    Json.Numeral (l.text (.finite negative d)).toList := by
  have body := l.unsigned_size double
  cases negative
  · simpa [text] using Json.Numeral.positive body
  · simpa [text] using Json.Numeral.negative body

theorem exponent_of_finite {x : Float32} (finite : x.isFinite = true) :
    x.toBits.toNat >>> 23 % 256 ≠ 255 := by
  intro special
  have top : @Float.Model.UnpackedFloat.unpackExponent .binary32 x.toBits.toBitVec =
      -1#8 := by
    rw [Number.eq_neg_one_iff]
    simpa [Float.Model.UnpackedFloat.unpackExponent] using special
  change (Float.Model.UnpackedFloat.unpack .binary32 x.toBits.toBitVec).isFinite = true at finite
  simp only [Float.Model.UnpackedFloat.unpack, top, if_true] at finite
  split_ifs at finite <;> cases finite

theorem Binary.ofFloat32_finite {x : Float32} (finite : x.isFinite = true) :
    ∃ negative d, Binary.ofFloat32 x = .finite negative d ∧ d.Double := by
  have notTop : ¬(x.toBits.toNat >>> Format.single.fractionBits %
      Nat.pow 2 Format.single.exponentBits == Nat.pow 2 Format.single.exponentBits - 1) = true :=
    fun special => exponent_of_finite finite (beq_iff_eq.1 special)
  have shape : ∃ negative d, Binary.ofFloat32 x = .finite negative d := by
    unfold Binary.ofFloat32 Binary.ofBits
    dsimp only
    rw [if_neg notTop]
    split_ifs <;> exact ⟨_, _, rfl⟩
  obtain ⟨negative, d, is⟩ := shape
  exact ⟨negative, d, is, double_ofBits (.inl rfl) is⟩

theorem Layout.numeral_float32 (l : Layout) {x : Float32} (finite : x.isFinite = true) :
    Json.Numeral (l.float32 x).toList := by
  obtain ⟨negative, d, is, double⟩ := Binary.ofFloat32_finite finite
  rw [float32, is]
  exact l.numeral_text double negative

end Decimal

end SceneScript
