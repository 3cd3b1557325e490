/-!
# Floating-point operations

Conversion between the two floating-point formats, and the operations on them that are exact or
only compare: the remainder, the larger and the smaller of two numbers. Each is computed from the
exact value of its operands and rounds once, if at all.
-/

namespace SceneScript.Number

open Float.Model

/-- The nearest double-precision number; it has the same value. -/
def widen (x : Float32) : Float :=
  match x.toModel.unpack with
  | .finite sign significand exponent _ =>
    .ofModel (.pack (.round .binary64 sign significand exponent))
  | special => .ofModel (.pack special)

/-- The nearest single-precision number; beyond the largest it is infinite. -/
def narrow (x : Float) : Float32 :=
  match x.toModel.unpack with
  | .finite sign significand exponent _ =>
    .ofModel (.pack (.round .binary32 sign significand exponent))
  | special => .ofModel (.pack special)

/-- The remainder of the exact quotient rounded towards zero. It has the sign of the dividend. -/
def remainder (x y : Float) : Float :=
  match x.toModel.unpack, y.toModel.unpack with
  | .finite sign m e _, .finite _ n f _ =>
    let exponent := min e f
    let rest := (m <<< (e - exponent).toNat) % (n <<< (f - exponent).toNat)
    if rest = 0 then .ofModel (.pack (.zero sign))
    else .ofModel (.pack (.round .binary64 sign rest exponent))
  | .zero _, .finite .. => x
  | .zero _, .infinity _ => x
  | .finite .., .infinity _ => x
  | _, _ => 0.0 / 0.0

/-- The larger of two numbers; a NaN gives way to the other. -/
def larger (x y : Float) : Float :=
  if x.isNaN then y else if x < y then y else x

/-- The smaller of two numbers; a NaN gives way to the other. -/
def smaller (x y : Float) : Float :=
  if x.isNaN then y else if y < x then y else x

def larger32 (x y : Float32) : Float32 :=
  if x.isNaN then y else if x < y then y else x

def smaller32 (x y : Float32) : Float32 :=
  if x.isNaN then y else if y < x then y else x

end SceneScript.Number
