import Mathlib.Tactic.Common
import Mathlib.Data.Nat.Digits.Defs
import SceneScript.Decimal.Layout

/-!
# The length of numbers

However a number is laid out, its text is short: the search for its digits looks at a few grids
only, and its exponent is that of a number in double precision.
-/

namespace SceneScript.Decimal

/-! ## Digits -/

theorem Interval.nearer_le (tie : Tie) (i : Interval) :
    i.nearer tie ≤ i.value / i.denominator + 1 := by
  simp only [nearer]
  cases tie <;> dsimp only <;> split_ifs <;> omega

theorem Interval.whole?_le {tie : Tie} {i : Interval} {n : Nat} (found : i.whole? tie = some n) :
    n ≤ i.value + 1 := by
  have quotient := Nat.div_le_self i.value i.denominator
  have nearer := i.nearer_le tie
  simp only [whole?] at found
  split at found <;> cases found <;> omega

theorem Interval.search_bounded (tie : Tie) (grids : Nat) (exponent : Int) (i : Interval) :
    (i.search tie grids exponent).digits ≤ 10 ^ grids * i.value + 1 ∧
      exponent - grids ≤ (i.search tie grids exponent).exponent ∧
      (i.search tie grids exponent).exponent ≤ exponent := by
  induction grids generalizing exponent i with
  | zero =>
    have quotient := Nat.div_le_self i.value i.denominator
    simp only [search]
    omega
  | succ grids ih =>
    cases found : i.whole? tie with
    | some n =>
      have small := whole?_le found
      have more : i.value ≤ 10 ^ (grids + 1) * i.value := Nat.le_mul_of_pos_left _ (by positivity)
      simp only [search, found]
      omega
    | none =>
      obtain ⟨digits, low, high⟩ := ih (exponent - 1) i.refine
      simp only [search, found]
      refine ⟨?_, by push_cast; omega, by omega⟩
      calc _ ≤ 10 ^ grids * (10 * i.value) + 1 := digits
        _ = 10 ^ (grids + 1) * i.value + 1 := by ring

structure Dyadic.Double (d : Dyadic) : Prop where
  significand : d.significand < 2 ^ 53
  least : -1074 ≤ d.exponent
  greatest : d.exponent ≤ 971

theorem Binary.double_ofBits {f : Format} (format : f = .single ∨ f = .double) {bits : Nat}
    {negative : Bool} {d : Dyadic} (shape : Binary.ofBits f bits = .finite negative d) :
    d.Double := by
  have short : bits % Nat.pow 2 f.fractionBits < Nat.pow 2 f.fractionBits :=
    Nat.mod_lt _ (Nat.pow_pos (by decide))
  have below : bits >>> f.fractionBits % Nat.pow 2 f.exponentBits < Nat.pow 2 f.exponentBits :=
    Nat.mod_lt _ (Nat.pow_pos (by decide))
  obtain ⟨implicit, least, negative, top⟩ : Nat.pow 2 f.fractionBits ≤ 2 ^ 52 ∧
      -1074 ≤ f.leastExponent ∧ f.leastExponent ≤ 0 ∧
      f.leastExponent + Nat.pow 2 f.exponentBits ≤ 974 := by
    obtain rfl | rfl := format <;> decide
  simp only [ofBits] at shape
  generalize bits >>> f.fractionBits % Nat.pow 2 f.exponentBits = exponent at shape below
  generalize bits % Nat.pow 2 f.fractionBits = fraction at shape short
  split_ifs at shape with special _ bottom <;> cases shape
  · constructor <;> dsimp only <;> omega
  · simp only [beq_iff_eq] at special bottom
    constructor <;> dsimp only <;> omega

theorem Dyadic.Double.decade {d : Dyadic} (double : d.Double) :
    -323 ≤ d.decade ∧ d.decade ≤ 309 := by
  have log : d.significand.log2 < 53 := by
    rcases Nat.eq_zero_or_pos d.significand with zero | positive
    · simp [zero]
    · exact (Nat.log2_lt positive.ne').mpr double.significand
  have least := double.least
  have greatest := double.greatest
  simp only [Dyadic.decade, Int.fdiv_eq_ediv_of_nonneg _ (show (0 : Int) ≤ 100000 by decide)]
  omega

theorem Dyadic.Double.shortest {d : Dyadic} (double : d.Double) (tie : Tie) :
    (d.shortest tie).digits < 10 ^ 700 ∧
      -343 ≤ (d.shortest tie).exponent ∧ (d.shortest tie).exponent ≤ 309 := by
  obtain ⟨low, high⟩ := double.decade
  obtain ⟨digits, bottom, top⟩ := (d.interval d.decade).search_bounded tie 20 d.decade
  have binary : 2 ^ (d.exponent - 2).toNat ≤ 2 ^ 969 :=
    pow_le_pow_right₀ (by decide) (by have := double.greatest; omega)
  have decimal : 10 ^ (-d.decade).toNat ≤ 10 ^ 323 := pow_le_pow_right₀ (by decide) (by omega)
  have value : (d.interval d.decade).value ≤ 4 * 2 ^ 53 * (2 ^ 969 * 10 ^ 323) :=
    Nat.mul_le_mul (Nat.mul_le_mul_left 4 double.significand.le) (Nat.mul_le_mul binary decimal)
  refine ⟨?_, by simp only [Dyadic.shortest]; omega, by simp only [Dyadic.shortest]; omega⟩
  calc (d.shortest tie).digits ≤ 10 ^ 20 * (d.interval d.decade).value + 1 := digits
    _ ≤ 10 ^ 20 * (4 * 2 ^ 53 * (2 ^ 969 * 10 ^ 323)) + 1 := by
      exact Nat.add_le_add_right (Nat.mul_le_mul_left _ value) 1
    _ < 10 ^ 700 := by decide +kernel

/-! ## Layout -/

theorem Layout.length_wholeEnd (l : Layout) : l.wholeEnd.length ≤ 2 := by
  unfold wholeEnd
  split_ifs <;> simp

theorem Layout.length_placePoint (l : Layout) (digits : List Char) (exponent : Int) :
    (l.placePoint digits exponent).length ≤ digits.length + exponent.natAbs + 3 := by
  have ending := l.length_wholeEnd
  simp only [placePoint, zeros]
  split_ifs <;> simp <;> omega

theorem Layout.length_scientific (l : Layout) (digits : List Char) (exponent : Int) :
    (l.scientific digits exponent).length ≤
      digits.length + (Nat.toDigits 10 exponent.natAbs).length + 3 := by
  have sign : (if exponent < 0 then ['-'] else if l.plus then ['+'] else []).length ≤ 1 := by
    split_ifs <;> simp
  simp only [scientific, List.length_append, List.length_cons]
  split <;> simp <;> omega

theorem Layout.length_size (l : Layout) {d : Dyadic} (double : d.Double) :
    (l.size d).length ≤ 2000 := by
  obtain ⟨digits, low, high⟩ := double.shortest l.tie
  have length : (Nat.toDigits 10 (d.shortest l.tie).digits).length ≤ 700 :=
    Nat.toDigits_length 10 _ 700 (by decide) digits
  simp only [size]
  split_ifs
  · have := l.length_wholeEnd
    simp; omega
  · refine (l.length_placePoint _ _).trans ?_
    omega
  · refine (l.length_scientific _ _).trans ?_
    have short : (Nat.toDigits 10 ((d.shortest l.tie).exponent +
        (Nat.toDigits 10 (d.shortest l.tie).digits).length - 1).natAbs).length ≤ 4 :=
      Nat.toDigits_length 10 _ 4 (by decide) (by omega)
    omega

/-! ## Text -/

theorem size_ofList (l : List Char) : (String.ofList l).utf8ByteSize ≤ 4 * l.length := by
  induction l with
  | nil => simp
  | cons c l ih =>
    have one := c.utf8Size_le_four
    rw [String.ofList_cons, String.utf8ByteSize_append, String.utf8ByteSize_singleton,
      List.length_cons]
    omega

theorem Layout.size_float (l : Layout) (x : Float) :
    (l.float x).utf8ByteSize ≤ 8001 + l.nan.utf8ByteSize + l.infinity.utf8ByteSize := by
  have sign : "-".utf8ByteSize = 1 := rfl
  unfold float
  cases shape : Binary.ofFloat x with
  | nan => simp only [text]; omega
  | infinite negative =>
    simp only [text]
    split_ifs
    · rw [String.utf8ByteSize_append]; omega
    · omega
  | finite negative d =>
    have short := l.length_size (Binary.double_ofBits (.inr rfl) shape)
    have body := size_ofList (l.size d)
    simp only [text]
    split_ifs
    · rw [String.utf8ByteSize_append]; omega
    · omega

end SceneScript.Decimal
