/-!
# Reading decimals

A decimal is a sign, decimal digits with at most one point, and an exponent. Its value is the
binary number nearest to the exact decimal, in one rounding.
-/

namespace SceneScript.Decimal

def natOfDigits (digits : List Char) : Nat :=
  digits.foldl (fun n c => 10 * n + (c.toNat - '0'.toNat)) 0

/-- The decimal `coefficient * 10 ^ exponent`, negated if so marked. -/
structure Scientific where
  negative : Bool
  coefficient : Nat
  exponent : Int
deriving Repr, DecidableEq

/-- The decimal with the given digits before and after the point. -/
def Scientific.ofParts (negative : Bool) (whole fraction : List Char) (exponent : Int) :
    Scientific :=
  ⟨negative, natOfDigits (whole ++ fraction), exponent - fraction.length⟩

def Scientific.toFloat (s : Scientific) : Float :=
  let size := Float.ofScientific s.coefficient (s.exponent < 0) s.exponent.natAbs
  if s.negative then -size else size

def Scientific.toFloat32 (s : Scientific) : Float32 :=
  let size := Float32.ofScientific s.coefficient (s.exponent < 0) s.exponent.natAbs
  if s.negative then -size else size

inductive Reading where
  | nan
  | infinite (negative : Bool)
  | finite (value : Scientific)
deriving Repr, DecidableEq

/-- A sign in front of the text; without one the text is positive. -/
def splitSign : List Char → Bool × List Char
  | '-' :: rest => (true, rest)
  | '+' :: rest => (false, rest)
  | text => (false, text)

/-- Reads the whole text as an exponent: a mark, a sign and at least one digit, or nothing. -/
def readExponent? : List Char → Option Int
  | [] => some 0
  | mark :: rest =>
    let (negative, digits) := splitSign rest
    if (mark == 'e' || mark == 'E') && !digits.isEmpty && digits.all Char.isDigit then
      let size : Int := natOfDigits digits
      some (if negative then -size else size)
    else none

/-- Reads the text of an unsigned number: digits on at least one side of an optional point, then
an optional exponent. -/
def readSize? (negative : Bool) (text : List Char) : Option Scientific :=
  let whole := text.takeWhile Char.isDigit
  let afterWhole := text.dropWhile Char.isDigit
  let (fraction, rest) := match afterWhole with
    | '.' :: more => (more.takeWhile Char.isDigit, more.dropWhile Char.isDigit)
    | more => ([], more)
  if whole.isEmpty && fraction.isEmpty then none
  else (readExponent? rest).map (Scientific.ofParts negative whole fraction)

/-- Reads a number in full: a sign, then a decimal or one of the words `inf`, `infinity` and `nan`
in any case. -/
def read? (text : List Char) : Option Reading :=
  let (negative, body) := splitSign text
  let lower := body.map Char.toLower
  if lower == "nan".toList then some .nan
  else if lower == "inf".toList || lower == "infinity".toList then some (.infinite negative)
  else (readSize? negative body).map .finite

def Reading.toFloat : Reading → Float
  | .nan => 0.0 / 0.0
  | .infinite negative => if negative then -1.0 / 0.0 else 1.0 / 0.0
  | .finite value => value.toFloat

def Reading.toFloat32 : Reading → Float32
  | .nan => 0.0 / 0.0
  | .infinite negative => if negative then -1.0 / 0.0 else 1.0 / 0.0
  | .finite value => value.toFloat32

end SceneScript.Decimal
