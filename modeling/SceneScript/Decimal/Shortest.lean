/-!
# Shortest decimal digits

A floating-point number is read off its bits as a sign and a dyadic rational `significand * 2 ^
exponent`. The text of a number, and the exact value behind it, are computed from this form in
whole-number arithmetic.

Of all decimals that round to a given binary number, the ones with the fewest digits are found, and
of those the nearest. The decimals of one length form a grid, and if any point of the grid rounds to
the number then so does one of the number's two neighbours on the grid; so grids are tried from the
coarsest on, looking at the two neighbours only.

All quantities are whole numbers over one denominator: the number itself, and the two ends of the
interval of reals that round to it. The ends belong to the interval iff the significand is even.
-/

namespace SceneScript.Decimal

/-! ## Binary numbers -/

structure Format where
  fractionBits : Nat
  exponentBits : Nat
deriving Repr, DecidableEq

def Format.single : Format := ⟨23, 8⟩

def Format.double : Format := ⟨52, 11⟩

/-- The exponent of the last place of the least numbers of a format. -/
def Format.leastExponent (f : Format) : Int :=
  2 - Int.pow 2 (f.exponentBits - 1) - (f.fractionBits : Int)

/-- The non-negative number `significand * 2 ^ exponent`. When `narrowBelow` holds the next smaller
number of its format is only half as far away as the next larger one. -/
structure Dyadic where
  significand : Nat
  exponent : Int
  narrowBelow : Bool
deriving Repr, DecidableEq

inductive Binary where
  | nan
  | infinite (negative : Bool)
  | finite (negative : Bool) (size : Dyadic)
deriving Repr, DecidableEq

def Binary.ofBits (f : Format) (bits : Nat) : Binary :=
  let fraction := bits % Nat.pow 2 f.fractionBits
  let biased := bits >>> f.fractionBits % Nat.pow 2 f.exponentBits
  let negative := bits.testBit (f.fractionBits + f.exponentBits)
  if biased == Nat.pow 2 f.exponentBits - 1 then
    if fraction == 0 then .infinite negative else .nan
  else if biased == 0 then
    .finite negative ⟨fraction, f.leastExponent, false⟩
  else
    .finite negative
      ⟨Nat.pow 2 f.fractionBits + fraction, f.leastExponent + biased - 1,
        fraction == 0 && biased > 1⟩

def Binary.ofFloat (x : Float) : Binary :=
  .ofBits .double x.toBits.toNat

def Binary.ofFloat32 (x : Float32) : Binary :=
  .ofBits .single x.toBits.toNat

/-! ## Intervals -/

inductive Tie where
  | up
  | toEven
deriving Repr, DecidableEq

structure Digits where
  digits : Nat
  exponent : Int
deriving Repr, DecidableEq

/-- A number and the interval that rounds to it, as numerators over one denominator. -/
structure Interval where
  low : Nat
  value : Nat
  high : Nat
  denominator : Nat
  closed : Bool
deriving Repr, DecidableEq

namespace Interval

def reachesDown (i : Interval) (n : Nat) : Bool :=
  if i.closed then i.low ≤ n * i.denominator else i.low < n * i.denominator

def reachesUp (i : Interval) (n : Nat) : Bool :=
  if i.closed then n * i.denominator ≤ i.high else n * i.denominator < i.high

def refine (i : Interval) : Interval :=
  { i with low := 10 * i.low, value := 10 * i.value, high := 10 * i.high }

/-- The nearer of the two whole neighbours of the value, once both round to it. -/
def nearer (tie : Tie) (i : Interval) : Nat :=
  let below := i.value / i.denominator
  let twice := 2 * (i.value % i.denominator)
  if twice < i.denominator then below
  else if i.denominator < twice then below + 1
  else match tie with
    | .up => below + 1
    | .toEven => if below % 2 == 0 then below else below + 1

/-- A whole number that rounds to the value, the nearest if there are several. -/
def whole? (tie : Tie) (i : Interval) : Option Nat :=
  let below := i.value / i.denominator
  match i.reachesDown below, i.reachesUp (below + 1) with
  | true, true => some (i.nearer tie)
  | true, false => some below
  | false, true => some (below + 1)
  | false, false => none

/-- The value on the first of `grids` grids that holds a point of the interval. -/
def search (tie : Tie) : Nat → Int → Interval → Digits
  | 0, exponent, i => ⟨i.value / i.denominator, exponent⟩
  | grids + 1, exponent, i =>
    match i.whole? tie with
    | some n => ⟨n, exponent⟩
    | none => search tie grids (exponent - 1) i.refine

end Interval

/-- A power of ten above the number has at most this exponent. -/
def Dyadic.decade (d : Dyadic) : Int :=
  ((d.significand.log2 + 1 + d.exponent) * 30103).fdiv 100000 + 1

def Dyadic.interval (d : Dyadic) (exponent : Int) : Interval :=
  let places := d.exponent - 2
  let numerator := Nat.pow 2 places.toNat * Nat.pow 10 (-exponent).toNat
  let denominator := Nat.pow 2 (-places).toNat * Nat.pow 10 exponent.toNat
  { low := (4 * d.significand - if d.narrowBelow then 1 else 2) * numerator
    value := 4 * d.significand * numerator
    high := (4 * d.significand + 2) * numerator
    denominator
    closed := d.significand % 2 == 0 }

/-- The shortest digits of a positive number. No number needs more than seventeen of them, and at
most two grids are coarser than the first digit. -/
def Dyadic.shortest (tie : Tie) (d : Dyadic) : Digits :=
  (d.interval d.decade).search tie 20 d.decade

end SceneScript.Decimal
