import SceneScript.Decimal.Shortest

/-!
# Layout of numbers

The text of a number is its shortest digits in positional or in scientific notation. A `Layout`
holds what the texts of this library differ in; each module that writes numbers has its own.
-/

namespace SceneScript.Decimal

/-- How numbers are written. The exponent of a number is that of its first digit. -/
structure Layout where
  /-- The exponents whose numbers are written positionally. -/
  positional : Int → Bool
  /-- Whether a whole number written positionally ends in `.0`. -/
  fraction : Bool
  /-- Whether a positive exponent has a sign. -/
  plus : Bool
  tie : Tie
  nan : String
  infinity : String

/-- Every number as a plain decimal, whole numbers without a fraction. -/
def Layout.plain : Layout where
  positional := fun _ => true
  fraction := false
  plus := false
  tie := .up
  nan := "NaN"
  infinity := "inf"

def zeros (n : Nat) : List Char :=
  List.replicate n '0'

def Layout.wholeEnd (l : Layout) : List Char :=
  if l.fraction then ['.', '0'] else []

/-- Digits with a decimal point placed so that the first digit has the given exponent. -/
def Layout.placePoint (l : Layout) (digits : List Char) (exponent : Int) : List Char :=
  if exponent < 0 then
    '0' :: '.' :: zeros (-exponent - 1).toNat ++ digits
  else
    let point := exponent.toNat + 1
    if digits.length ≤ point then
      digits ++ zeros (point - digits.length) ++ l.wholeEnd
    else
      digits.take point ++ '.' :: digits.drop point

def Layout.scientific (l : Layout) (digits : List Char) (exponent : Int) : List Char :=
  let mantissa := match digits with
    | first :: second :: rest => first :: '.' :: second :: rest
    | short => short
  let sign := if exponent < 0 then ['-'] else if l.plus then ['+'] else []
  mantissa ++ 'e' :: sign ++ (Nat.toDigits 10 exponent.natAbs)

def Layout.size (l : Layout) (d : Dyadic) : List Char :=
  if d.significand = 0 then
    '0' :: l.wholeEnd
  else
    let shortest := d.shortest l.tie
    let digits := Nat.toDigits 10 shortest.digits
    let exponent := shortest.exponent + digits.length - 1
    if l.positional exponent then l.placePoint digits exponent else l.scientific digits exponent

def Layout.text (l : Layout) : Binary → String
  | .nan => l.nan
  | .infinite negative => if negative then "-" ++ l.infinity else l.infinity
  | .finite negative size =>
    let body := String.ofList (l.size size)
    if negative then "-" ++ body else body

def Layout.float (l : Layout) (x : Float) : String :=
  l.text (.ofFloat x)

def Layout.float32 (l : Layout) (x : Float32) : String :=
  l.text (.ofFloat32 x)

end SceneScript.Decimal
