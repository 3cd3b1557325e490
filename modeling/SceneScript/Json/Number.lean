import SceneScript.Decimal.Reading
import SceneScript.Json.Value
import SceneScript.Number.Conversion

/-!
# Reading JSON numbers

A whole number that fits a word is read exactly. Every other number is read in double precision from
a significand of one word and a power of ten: digits that no longer fit the word are dropped, and
the significand is scaled by one rounded multiplication or division. So the last bits of long
numbers may be off, and a number beyond double precision is not read at all.
-/

namespace SceneScript.Json

/-- The bound on significands and on unsigned numbers. -/
def wordBound : Nat := UInt64.size

inductive Numeric where
  | natural (value : Nat)
  | negative (size : Nat)
  | float (value : Float)

/-! ## Significands -/

/-- The number `value * 10 ^ exponent`. Once a digit has not fitted, it is full. -/
structure Significand where
  value : Nat
  exponent : Int
  full : Bool

namespace Significand

def zero : Significand := ⟨0, 0, false⟩

/-- Whether the value still fits its word with a further digit. -/
def fits (s : Significand) (digit : Nat) : Bool :=
  !s.full && 10 * s.value + digit < wordBound

def addWhole (s : Significand) (digit : Nat) : Significand :=
  if s.fits digit then { s with value := 10 * s.value + digit }
  else { s with exponent := s.exponent + 1, full := true }

def addFraction (s : Significand) (digit : Nat) : Significand :=
  if s.fits digit then { s with value := 10 * s.value + digit, exponent := s.exponent - 1 }
  else { s with full := true }

/-- The significand of digits on both sides of the point. -/
def ofDigits (whole fraction : List Nat) : Significand :=
  fraction.foldl addFraction { whole.foldl addWhole zero with full := false }

end Significand

/-! ## Scaling -/

def maxTenPower : Nat := 308

def tenPower (n : Nat) : Float :=
  Float.ofScientific 1 false n

/-- Divides by a power of ten in at most `rounds` divisions. Three are enough to reach zero from any
word. -/
def divideTens : Nat → Float → Nat → Float
  | 0, _, _ => 0
  | rounds + 1, x, n =>
    if n ≤ maxTenPower then x / tenPower n
    else divideTens rounds (x / tenPower maxTenPower) (n - maxTenPower)

/-- Multiplies by a power of ten, if the result is finite. -/
def multiplyTens? (x : Float) (n : Nat) : Option Float :=
  if n ≤ maxTenPower then
    let y := x * tenPower n
    if y.isInf then none else some y
  else if x == 0 then some x
  else none

def Significand.toFloat? (s : Significand) : Option Float :=
  let x := Float.ofNat s.value
  if s.exponent < 0 then some (divideTens 3 x s.exponent.natAbs)
  else multiplyTens? x s.exponent.natAbs

/-! ## Numbers -/

def digitValue (c : Char) : Nat :=
  c.toNat - '0'.toNat

def exponentValue : List Char → Int
  | '-' :: digits => -(Decimal.natOfDigits digits : Int)
  | '+' :: digits => Decimal.natOfDigits digits
  | digits => Decimal.natOfDigits digits

/-- A whole number. Those that fit no word of their sign, and negative zero, are read as floats. -/
def readWhole (negative : Bool) (n : Nat) : Option Numeric :=
  if negative then
    if 0 < n ∧ n ≤ wordBound / 2 then some (.negative n) else some (.float (-Float.ofNat n))
  else some (.natural n)

def numeric? (written : String) : Option Numeric :=
  let (negative, unsigned) := match written.toList with
    | '-' :: rest => (true, rest)
    | rest => (false, rest)
  let whole := unsigned.takeWhile Char.isDigit
  let rest := unsigned.dropWhile Char.isDigit
  let n := Decimal.natOfDigits whole
  if rest.isEmpty && n < wordBound then
    readWhole negative n
  else
    let (fraction, mark) := match rest with
      | '.' :: more => (more.takeWhile Char.isDigit, more.dropWhile Char.isDigit)
      | more => ([], more)
    let s := Significand.ofDigits (whole.map digitValue) (fraction.map digitValue)
    let scaled := { s with exponent := s.exponent + exponentValue (mark.drop 1) }
    scaled.toFloat?.map fun x => .float (if negative then -x else x)

/-- A number rounded to single precision; whole numbers in one rounding. -/
def Numeric.toFloat32 : Numeric → Float32
  | .natural n => Float32.ofNat n
  | .negative n => -Float32.ofNat n
  | .float x => Number.narrow x

def natBelow? (bound : Nat) : Json → Option Nat
  | .number written =>
    match numeric? written with
    | some (.natural n) => if n < bound then some n else none
    | _ => none
  | _ => none

def word? (j : Json) : Option Nat :=
  j.natBelow? wordBound

def halfWord? (j : Json) : Option Nat :=
  j.natBelow? UInt32.size

def single? : Json → Option Float32
  | .number written => (numeric? written).map Numeric.toFloat32
  | _ => none

end SceneScript.Json
