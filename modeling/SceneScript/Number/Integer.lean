/-!
# Checked whole numbers

Arithmetic on 64-bit whole numbers that has no result when the exact one does not fit, and reading
them from text.
-/

namespace SceneScript.Number

/-- The whole number as a 64-bit one, if it fits. -/
def int64? (n : Int) : Option Int64 :=
  if Int64.minValue.toInt ≤ n ∧ n ≤ Int64.maxValue.toInt then some (Int64.ofInt n) else none

def add? (a b : Int64) : Option Int64 :=
  int64? (a.toInt + b.toInt)

def sub? (a b : Int64) : Option Int64 :=
  int64? (a.toInt - b.toInt)

def mul? (a b : Int64) : Option Int64 :=
  int64? (a.toInt * b.toInt)

def neg? (a : Int64) : Option Int64 :=
  int64? (-a.toInt)

/-- The quotient rounded towards zero, for a divisor other than zero. -/
def div? (a b : Int64) : Option Int64 :=
  int64? (a.toInt.tdiv b.toInt)

/-- The remainder of the division rounded towards zero. There is none where the quotient does not
fit. -/
def rem? (a b : Int64) : Option Int64 :=
  (div? a b).map fun _ => Int64.ofInt (a.toInt.tmod b.toInt)

/-- What is below another number can be counted up. -/
theorem toInt_succ {i last : Int64} (below : i < last) : (i + 1).toInt = i.toInt + 1 := by
  have lt := Int64.lt_iff_toInt_lt.1 below
  have low := i.le_toInt
  have high := last.toInt_lt
  have one : (1 : Int64).toInt = 1 := rfl
  rw [Int64.toInt_add, one, Int.bmod_eq_of_le (by omega) (by omega)]

/-- Reads a whole number: an optional sign and at least one digit, nothing else. -/
def readInt64? (text : List Char) : Option Int64 :=
  let (negative, digits) := match text with
    | '-' :: rest => (true, rest)
    | '+' :: rest => (false, rest)
    | rest => (false, rest)
  if digits.isEmpty || !digits.all Char.isDigit then none
  else
    let size : Int := digits.foldl (fun n c => 10 * n + (c.toNat - '0'.toNat : Nat)) 0
    int64? (if negative then -size else size)

end SceneScript.Number
