import Mathlib
import SceneScript.Number.Conversion

/-!
# Floating-point numbers

Changing the sign of a number twice gives the number, and what has its sign set has not when the
sign is changed. Packing keeps a number that is in the form of its format, unless its exponent is
too large, and what is unpacked is in that form (`repacked_finite`, `unpack_finite`). A number in
single precision is one in double precision: its significand is shifted to the length that the wider
format wants, and nothing is rounded away.
-/

namespace SceneScript.Number

open Float.Model

/-! ## Signs -/

theorem unpack_packComponents_neg {f : Format} (s : UnpackedFloat.Sign)
    (e : BitVec f.exponentBits) (m : BitVec f.mantissaBitsWithoutImplicit) :
    UnpackedFloat.unpack f (UnpackedFloat.packComponents f (-s) e m) =
      (UnpackedFloat.unpack f (UnpackedFloat.packComponents f s e m)).neg := by
  have sign (s : UnpackedFloat.Sign) :
      UnpackedFloat.unpackSign (UnpackedFloat.packComponents f s e m) = s.toBitVec :=
    UnpackedFloat.unpackSign_packComponents s e m
  simp only [UnpackedFloat.unpack, UnpackedFloat.unpackExponent_packComponents,
    UnpackedFloat.unpackMantissa_packComponents, sign, UnpackedFloat.Sign.ofBitVec_toBitVec]
  split_ifs <;> rfl

/-- All numbers that are none are packed alike, but they are unpacked alike as well. -/
theorem unpack_pack_unpack {f : Format} (b : BitVec f.numBits) (wide : 2 ≤ f.exponentBits) :
    UnpackedFloat.unpack f (UnpackedFloat.pack f (UnpackedFloat.unpack f b)) =
      UnpackedFloat.unpack f b := by
  rw [UnpackedFloat.pack_unpack b wide]
  split
  · rename_i isNaN
    obtain ⟨top, fraction⟩ := of_decide_eq_true isNaN
    rw [UnpackedFloat.unpack_packedNaN]
    simp only [UnpackedFloat.unpack, top, fraction, if_true, if_false]
  · rfl

theorem unpack_pack_neg {f : Format} (b : BitVec f.numBits) (wide : 2 ≤ f.exponentBits) :
    UnpackedFloat.unpack f (UnpackedFloat.pack f (UnpackedFloat.unpack f b).neg) =
      (UnpackedFloat.unpack f b).neg := by
  rw [← UnpackedFloat.packComponents_unpackSign_unpackExponent_unpackMantissa b,
    ← unpack_packComponents_neg, unpack_pack_unpack _ wide]

theorem unpack_neg (x : Float) : (-x).toModel.unpack = x.toModel.unpack.neg :=
  unpack_pack_neg (f := .binary64) x.toModel.toBits.toBitVec (by decide)

theorem neg_neg_float (x : Float) : - -x = x := by
  have unpacked : (- -x).toModel.unpack = x.toModel.unpack := by
    rw [unpack_neg, unpack_neg]
    cases x.toModel.unpack with
    | notANumber => rfl
    | infinity s | zero s | finite s => cases s <;> rfl
  apply Float.toBits_inj.mp
  apply UInt64.toBitVec_inj.mp
  exact (UnpackedFloat.unpack_inj_of_valid (- -x).toModel.valid x.toModel.valid).mp unpacked

def isNegative (x : Float) : Bool :=
  x.toBits.toBitVec.msb

theorem msb_packComponents {f : Format} (s : UnpackedFloat.Sign)
    (e : BitVec f.exponentBits) (m : BitVec f.mantissaBitsWithoutImplicit) :
    (UnpackedFloat.packComponents f s e m).msb = s.toBitVec.msb := by
  have positive := f.he
  simp [UnpackedFloat.packComponents, BitVec.msb_append]

theorem msb_pack_finite {f : Format} (m : Nat) (e : Int) (positive : 0 < m) :
    (UnpackedFloat.pack f (.finite .positive m e positive)).msb = false := by
  rw [UnpackedFloat.pack]
  split_ifs <;> exact msb_packComponents ..

theorem msb_pack_neg {f : Format} {b : BitVec f.numBits} (set : b.msb = true) :
    (UnpackedFloat.pack f (UnpackedFloat.unpack f b).neg).msb = false := by
  have sign : UnpackedFloat.Sign.ofBitVec (UnpackedFloat.unpackSign b) = .negative := by
    rw [← UnpackedFloat.packComponents_unpackSign_unpackExponent_unpackMantissa b,
      msb_packComponents] at set
    cases is : UnpackedFloat.Sign.ofBitVec (UnpackedFloat.unpackSign b) with
    | negative => rfl
    | positive =>
      rw [is] at set
      cases set
  simp only [UnpackedFloat.unpack, sign]
  split_ifs
  · exact msb_packComponents ..
  · exact msb_packComponents ..
  · exact msb_packComponents ..
  · exact msb_pack_finite ..
  · exact msb_pack_finite ..

theorem isNegative_neg {x : Float} (negative : isNegative x = true) : isNegative (-x) = false :=
  msb_pack_neg (f := .binary64) negative

/-! ## Packing -/

open UnpackedFloat

/-- The exponent is the one that the format wants for the size of the number. -/
def Canonical (f : Format) : UnpackedFloat → Prop
  | .finite _ m e _ => f.targetExponent (totalExponent m e) = e
  | _ => True

section

variable {f : Format} {s : Sign} {m : ℕ} {e : ℤ} {pos : 0 < m}

theorem mantissaBits_eq (f : Format) : f.mantissaBits = f.mantissaBitsWithoutImplicit + 1 :=
  Nat.add_comm _ _

theorem Canonical.bounds (canonical : Canonical f (.finite s m e pos)) :
    f.minExponent ≤ e ∧ m < 2 ^ f.mantissaBits ∧
      (e = f.minExponent ∨ 2 ^ f.mantissaBitsWithoutImplicit ≤ m) := by
  have bits := mantissaBits_eq f
  rw [Canonical, Format.targetExponent, totalExponent] at canonical
  refine ⟨by omega, (Nat.log2_lt pos.ne').1 (by omega), ?_⟩
  by_cases least : e = f.minExponent
  · exact .inl least
  · exact .inr ((Nat.le_log2 pos.ne').1 (by omega))

theorem canonical_of_bounds (least : f.minExponent ≤ e) (short : m < 2 ^ f.mantissaBits)
    (long : e = f.minExponent ∨ 2 ^ f.mantissaBitsWithoutImplicit ≤ m) :
    Canonical f (.finite s m e pos) := by
  have bits := mantissaBits_eq f
  have high := (Nat.log2_lt pos.ne').2 short
  rw [Canonical, Format.targetExponent, totalExponent]
  rcases long with is | long
  · omega
  · have low := (Nat.le_log2 pos.ne').2 long
    omega

theorem exponentBias_eq (f : Format) : (f.exponentBias : ℤ) = 2 ^ (f.exponentBits - 1) - 1 := by
  rw [Format.exponentBias, Nat.cast_sub Nat.one_le_two_pow]
  push_cast
  rfl

theorem toNat_one_append {k : ℕ} (v : BitVec k) : (1#1 ++ v).toNat = 2 ^ k + v.toNat := by
  rw [BitVec.toNat_append, ← Nat.shiftLeft_add_eq_or_of_lt v.isLt, Nat.shiftLeft_eq]
  exact congrArg (· + v.toNat) (Nat.one_mul _)

theorem two_le_exponents (wide : 2 ≤ f.exponentBits) : (2 : ℤ) ≤ 2 ^ (f.exponentBits - 1) := by
  exact_mod_cast Nat.le_self_pow (by omega : f.exponentBits - 1 ≠ 0) 2

theorem two_pow_exponentBits (wide : 2 ≤ f.exponentBits) :
    ((2 ^ f.exponentBits : ℕ) : ℤ) = 2 * 2 ^ (f.exponentBits - 1) := by
  have split : f.exponentBits = f.exponentBits - 1 + 1 := by omega
  rw [split, Nat.pow_succ']
  push_cast
  rfl

theorem eq_neg_one_iff {k : ℕ} (v : BitVec k) : v = -1#_ ↔ v.toNat = 2 ^ k - 1 := by
  rw [BitVec.neg_one_eq_allOnes, ← BitVec.toNat_inj, BitVec.toNat_allOnes]

theorem eq_zero_iff {k : ℕ} (v : BitVec k) : v = 0#_ ↔ v.toNat = 0 := by
  rw [← BitVec.toNat_inj, BitVec.toNat_zero]

theorem unpack_finite (wide : 2 ≤ f.exponentBits) {b : BitVec f.numBits}
    (shape : UnpackedFloat.unpack f b = .finite s m e pos) :
    Canonical f (.finite s m e pos) ∧ e + f.mantissaBits ≤ 2 ^ (f.exponentBits - 1) := by
  have bits := mantissaBits_eq f
  have bias := exponentBias_eq f
  have large := two_le_exponents wide
  have fraction := (unpackMantissa b).isLt
  unfold UnpackedFloat.unpack at shape
  extract_lets mantissa exponent power signBits at shape
  split at shape
  · split at shape <;> cases shape
  -- The top exponent is that of infinity, the bottom one that of the subnormal numbers.
  next notTop =>
  rw [eq_neg_one_iff] at notTop
  have powers := two_pow_exponentBits wide
  have below := exponent.isLt
  split at shape
  · next bottom =>
    split at shape
    · cases shape
    · injection shape with _ significand place
      have zero := (eq_zero_iff exponent).1 bottom
      subst significand
      have least : e = f.minExponent := by
        simp only [← place, power, zero, Format.minExponent]
        omega
      refine ⟨canonical_of_bounds least.ge ?_ (.inl least), ?_⟩
      · rw [bits]
        exact fraction.trans (Nat.pow_lt_pow_right one_lt_two (by omega))
      · rw [least, Format.minExponent]
        omega
  · next notBottom =>
    injection shape with _ significand place
    rw [eq_zero_iff] at notBottom
    rw [toNat_one_append] at significand
    subst significand
    refine ⟨canonical_of_bounds ?_ ?_ (.inr (Nat.le_add_right _ _)), ?_⟩
    · simp only [← place, power, Format.minExponent]
      omega
    · rw [bits, Nat.pow_succ]
      omega
    · simp only [← place, power]
      omega

theorem finite_congr {m' : ℕ} {e' : ℤ} {pos' : 0 < m'} (significand : m = m') (place : e = e') :
    UnpackedFloat.finite s m e pos = .finite s m' e' pos' := by
  subst significand place
  rfl

theorem unpack_packComponents_normal {exponent : BitVec f.exponentBits}
    {fraction : BitVec f.mantissaBitsWithoutImplicit} (notTop : exponent ≠ -1#_)
    (notBottom : exponent ≠ 0#_) :
    UnpackedFloat.unpack f (packComponents f s exponent fraction) =
      .finite s (2 ^ f.mantissaBitsWithoutImplicit + fraction.toNat)
        (exponent.toNat - (f.exponentBias + f.mantissaBitsWithoutImplicit)) (by positivity) := by
  simp only [UnpackedFloat.unpack, unpackExponent_packComponents, unpackMantissa_packComponents,
    unpackSign_packComponents, Sign.ofBitVec_toBitVec, if_neg notTop, if_neg notBottom]
  exact finite_congr (toNat_one_append fraction) rfl

theorem unpack_packComponents_subnormal (some : f.exponentBits ≠ 0)
    {fraction : BitVec f.mantissaBitsWithoutImplicit} (nonzero : 0 < fraction.toNat) :
    UnpackedFloat.unpack f (packComponents f s 0#_ fraction) =
      .finite s fraction.toNat (1 - (f.exponentBias + f.mantissaBitsWithoutImplicit)) nonzero := by
  have notTop : 0#f.exponentBits ≠ -1#_ := by
    rw [BitVec.neg_one_eq_allOnes, ne_eq, BitVec.zero_eq_allOnes_iff]
    exact some
  have digits : fraction ≠ 0#_ := by
    rintro rfl
    simp at nonzero
  simp only [UnpackedFloat.unpack, unpackExponent_packComponents, unpackMantissa_packComponents,
    unpackSign_packComponents, Sign.ofBitVec_toBitVec, if_neg notTop, if_true, dif_neg digits]
  refine finite_congr rfl ?_
  rw [BitVec.toNat_zero]
  omega

def repacked (f : Format) (x : UnpackedFloat) : UnpackedFloat :=
  UnpackedFloat.unpack f (UnpackedFloat.pack f x)

theorem repacked_zero (f : Format) (s : Sign) : repacked f (.zero s) = .zero s :=
  unpack_packedZero

theorem repacked_infinity (f : Format) (s : Sign) : repacked f (.infinity s) = .infinity s := by
  simp [repacked, UnpackedFloat.pack, packedInfinity, UnpackedFloat.unpack]

theorem repacked_notANumber (f : Format) : repacked f .notANumber = .notANumber :=
  unpack_packedNaN

theorem repacked_finite (wide : 2 ≤ f.exponentBits)
    (canonical : Canonical f (.finite s m e pos)) :
    repacked f (.finite s m e pos) =
      if e + f.mantissaBits ≤ 2 ^ (f.exponentBits - 1) then .finite s m e pos else .infinity s := by
  have bits := mantissaBits_eq f
  have bias := exponentBias_eq f
  have large := two_le_exponents wide
  have powers := two_pow_exponentBits wide
  obtain ⟨least, short, long⟩ := canonical.bounds
  rw [Format.minExponent] at least long
  obtain ⟨biased, is⟩ : ∃ biased : ℕ,
      e + f.exponentBias + f.mantissaBitsWithoutImplicit = biased :=
    ⟨(e + f.exponentBias + f.mantissaBitsWithoutImplicit).toNat, by omega⟩
  rw [repacked, UnpackedFloat.pack, is, Int.toNat_natCast]
  by_cases small : e + f.mantissaBits ≤ 2 ^ (f.exponentBits - 1)
  · rw [if_neg (by omega), if_pos small]
    have exponent : (BitVec.ofNat f.exponentBits biased).toNat = biased := by
      rw [BitVec.toNat_ofNat, Nat.mod_eq_of_lt (by omega)]
    have notTop : BitVec.ofNat f.exponentBits biased ≠ -1#_ := by
      rw [ne_eq, eq_neg_one_iff, exponent]
      omega
    -- A normal number drops its leading digit, a subnormal one keeps all of them.
    split_ifs with normal
    · have low : 2 ^ f.mantissaBitsWithoutImplicit ≤ m := by
        rw [← Nat.le_log2 pos.ne']
        omega
      have notBottom : BitVec.ofNat f.exponentBits biased ≠ 0#_ := by
        rw [ne_eq, eq_zero_iff, exponent]
        omega
      rw [unpack_packComponents_normal notTop notBottom]
      refine finite_congr ?_ (by omega)
      rw [bits, Nat.pow_succ] at short
      rw [BitVec.toNat_ofNat, Nat.mod_eq_sub_mod low, Nat.mod_eq_of_lt (by omega)]
      omega
    · have low : m < 2 ^ f.mantissaBitsWithoutImplicit := by
        rw [← Nat.log2_lt pos.ne']
        have := (Nat.log2_lt pos.ne').2 short
        omega
      have same : (BitVec.ofNat f.mantissaBitsWithoutImplicit m).toNat = m := by
        rw [BitVec.toNat_ofNat, Nat.mod_eq_of_lt low]
      rw [unpack_packComponents_subnormal (by omega : f.exponentBits ≠ 0) (by rw [same]; exact pos)]
      exact finite_congr same (by omega)
  · rw [if_pos (by omega), if_neg small]
    exact repacked_infinity f s

end

/-! ## Widening -/

theorem unpack_bounded {x : Float32} {sign significand exponent positive}
    (shape : x.toModel.unpack = .finite sign significand exponent positive) :
    significand ≤ 2 ^ 24 - 1 ∧ -149 ≤ exponent ∧ exponent ≤ 104 := by
  obtain ⟨canonical, top⟩ := unpack_finite (by decide : 2 ≤ Format.binary32.exponentBits) shape
  obtain ⟨least, short, -⟩ := canonical.bounds
  have low : Format.binary32.minExponent = -149 := rfl
  have length : Format.binary32.mantissaBits = 24 := rfl
  have high : (2 : ℤ) ^ (Format.binary32.exponentBits - 1) = 128 := rfl
  rw [length] at short
  omega

theorem log2_shiftLeft {m : Nat} (positive : 0 < m) (k : Nat) : (m <<< k).log2 = m.log2 + k := by
  have shifted : m <<< k ≠ 0 := by simpa [Nat.shiftLeft_eq] using positive.ne'
  rw [Nat.log2_eq_iff shifted, Nat.shiftLeft_eq]
  have low := Nat.log2_self_le positive.ne'
  have high := Nat.lt_log2_self (n := m)
  constructor
  · rw [pow_add]
    exact Nat.mul_le_mul_right _ low
  · rw [Nat.add_right_comm, pow_add]
    exact Nat.mul_lt_mul_of_pos_right high (by positivity)

theorem shiftToTargetExponent_of_target {f : Format} {m : Nat} {e : Int}
    (target : f.targetExponent (totalExponent m e) = e) :
    shiftToTargetExponent f m e .exact = (⟨m, false, false⟩, e) := by
  simp only [shiftToTargetExponent, shiftToExponent, target, sub_self, Int.toNat_zero,
    Nat.cast_zero, add_zero]
  rfl

theorem roundWithAccuracy_of_target {f : Format} {sign : Sign} {m : Nat} {e : Int}
    (target : f.targetExponent (totalExponent m e) = e) (positive : 0 < m) :
    roundWithAccuracy f sign m e .exact = .finite sign m e positive := by
  have once := shiftToTargetExponent_of_target target
  have rounded : ExtendedMantissa.roundedMantissa ⟨m, false, false⟩ = m := rfl
  simp only [roundWithAccuracy, once, rounded, positive.ne', ↓reduceDIte]

theorem round_of_short {f : Format} {sign : Sign} {m : Nat} {e t : Int}
    (target : f.targetExponent (totalExponent m e) = t) (short : t ≤ e) (positive : 0 < m) :
    UnpackedFloat.round f sign m e =
      .finite sign (m <<< (e - t).toNat) t (by simpa [Nat.shiftLeft_eq] using positive) := by
  have shifted : totalExponent (m <<< (e - t).toNat) t = totalExponent m e := by
    simp only [totalExponent, log2_shiftLeft positive]
    push_cast
    omega
  have decreased : decreaseExponent m e t = (m <<< (e - t).toNat, t) := by
    simp only [decreaseExponent, Prod.mk.injEq, true_and]
    omega
  simp only [UnpackedFloat.round, target, decreased]
  exact roundWithAccuracy_of_target (shifted ▸ target) _

theorem widen_finite {x : Float32} {sign m e positive}
    (shape : x.toModel.unpack = .finite sign m e positive) :
    (widen x).toModel.unpack = .finite sign (m <<< (52 - m.log2)) (e - (52 - m.log2 : Nat))
      (by simpa [Nat.shiftLeft_eq] using positive) := by
  obtain ⟨short, low, high⟩ := unpack_bounded shape
  have log : m.log2 < 24 := (Nat.log2_lt positive.ne').mpr (by omega)
  have least : Format.binary64.minExponent = -1074 := rfl
  have length : Format.binary64.mantissaBits = 53 := rfl
  have top : (2 : ℤ) ^ (Format.binary64.exponentBits - 1) = 1024 := rfl
  have target : Format.binary64.targetExponent (totalExponent m e) = e - (52 - m.log2 : Nat) := by
    simp only [Format.targetExponent, totalExponent, least, length]
    omega
  have amount : (e - (e - (52 - m.log2 : Nat))).toNat = 52 - m.log2 := by omega
  have rounded := @round_of_short _ sign _ _ _ target (by omega) positive
  have model : (widen x).toModel = .pack (.round .binary64 sign m e) := by
    simp only [widen, shape]
  have canonical : Canonical .binary64 (.finite sign (m <<< (52 - m.log2)) (e - (52 - m.log2 : Nat))
      (by simpa [Nat.shiftLeft_eq] using positive)) := by
    rw [Canonical, Format.targetExponent, totalExponent, log2_shiftLeft positive, least, length]
    omega
  simp only [amount] at rounded
  rw [model, rounded]
  change repacked .binary64 _ = _
  rw [repacked_finite (by decide) canonical, if_pos (by omega)]

theorem widen_isFinite {x : Float32} (finite : x.isFinite) : (widen x).isFinite := by
  change x.toModel.unpack.isFinite = true at finite
  show (widen x).toModel.unpack.isFinite = true
  cases shape : x.toModel.unpack with
  | notANumber => simp [shape, UnpackedFloat.isFinite] at finite
  | infinity => simp [shape, UnpackedFloat.isFinite] at finite
  | zero sign =>
    have model : (widen x).toModel = .pack (.zero sign) := by simp only [widen, shape]
    have same : (widen x).toModel.unpack = .zero sign := by
      rw [model]
      exact unpack_packedZero
    rw [same]
    rfl
  | finite sign m e positive =>
    rw [widen_finite shape]
    rfl

end SceneScript.Number
