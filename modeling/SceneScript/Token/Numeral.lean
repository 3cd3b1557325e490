import SceneScript.Decimal.Reading
import SceneScript.Text.Word

/-!
# Numeric literals

A numeric literal is a run of digits, a fraction, an exponent and a suffix, of which the last three
may be missing. A fraction or an exponent is taken only if a digit follows its mark, so `0..9` holds
two whole numbers and `1.max` begins with one. Single underscores may stand between digits.
-/

namespace SceneScript.Token

def startsWithDigit : List Char → Bool
  | [] => false
  | c :: _ => c.isDigit

/-- Splits off a run of digits. An underscore belongs to it if a digit follows. -/
def splitDigits : List Char → List Char × List Char
  | [] => ([], [])
  | c :: rest =>
    if c.isDigit || (c == '_' && startsWithDigit rest) then
      let (digits, after) := splitDigits rest
      (c :: digits, after)
    else ([], c :: rest)

theorem splitDigits_append (s : List Char) : (splitDigits s).1 ++ (splitDigits s).2 = s := by
  induction s with
  | nil => rfl
  | cons c rest ih => grind [splitDigits]

def splitFraction : List Char → List Char × List Char
  | '.' :: rest =>
    if startsWithDigit rest then
      let (digits, after) := splitDigits rest
      ('.' :: digits, after)
    else ([], '.' :: rest)
  | s => ([], s)

def splitSign : List Char → List Char × List Char
  | '+' :: rest => (['+'], rest)
  | '-' :: rest => (['-'], rest)
  | s => ([], s)

/-- Splits off an exponent mark, a sign if there is one, and the digits behind them. -/
def splitExponent : List Char → List Char × List Char
  | mark :: rest =>
    let (sign, digitsOn) := splitSign rest
    if (mark == 'e' || mark == 'E') && startsWithDigit digitsOn then
      let (digits, after) := splitDigits digitsOn
      (mark :: sign ++ digits, after)
    else ([], mark :: rest)
  | [] => ([], [])

def splitSuffix : List Char → List Char × List Char
  | 'f' :: rest => (['f'], rest)
  | 'F' :: rest => (['F'], rest)
  | s => ([], s)

theorem splitFraction_append (s : List Char) :
    (splitFraction s).1 ++ (splitFraction s).2 = s := by
  unfold splitFraction
  split
  · split <;> simp [splitDigits_append]
  · rfl

theorem splitSign_append (s : List Char) : (splitSign s).1 ++ (splitSign s).2 = s := by
  unfold splitSign
  split <;> rfl

theorem splitExponent_append (s : List Char) :
    (splitExponent s).1 ++ (splitExponent s).2 = s := by
  unfold splitExponent
  split
  · dsimp only
    split <;> simp [splitDigits_append, splitSign_append]
  · rfl

theorem splitSuffix_append (s : List Char) : (splitSuffix s).1 ++ (splitSuffix s).2 = s := by
  unfold splitSuffix
  split <;> rfl

structure Numeral where
  whole : List Char
  fraction : List Char
  exponent : List Char
  suffix : List Char
deriving Repr, DecidableEq

namespace Numeral

/-- Splits off the longest numeric literal in front. -/
def split (s : List Char) : Numeral × List Char :=
  let (whole, afterWhole) := splitDigits s
  let (fraction, afterFraction) := splitFraction afterWhole
  let (exponent, afterExponent) := splitExponent afterFraction
  let (suffix, rest) := splitSuffix afterExponent
  (⟨whole, fraction, exponent, suffix⟩, rest)

def lexeme (n : Numeral) : List Char :=
  n.whole ++ n.fraction ++ n.exponent ++ n.suffix

theorem split_append (s : List Char) : (split s).1.lexeme ++ (split s).2 = s := by
  simp only [split, lexeme, List.append_assoc, splitSuffix_append, splitExponent_append,
    splitFraction_append, splitDigits_append]

def isFloat (n : Numeral) : Bool :=
  !(n.fraction.isEmpty && n.exponent.isEmpty && n.suffix.isEmpty)

def withoutUnderscores (s : List Char) : List Char :=
  s.filter (· != '_')

/-- The literal as error messages show it: without underscores and suffix, the exponent mark in
lower case. -/
def text (n : Numeral) : String :=
  let exponent := match n.exponent with
    | [] => []
    | _ :: rest => 'e' :: withoutUnderscores rest
  String.ofList (withoutUnderscores n.whole ++ withoutUnderscores n.fraction ++ exponent)

def wholeDigits (n : Numeral) : List Char :=
  n.whole.filter Char.isDigit

def exponentValue (n : Numeral) : Int :=
  let size : Int := Decimal.natOfDigits (n.exponent.filter Char.isDigit)
  if n.exponent.contains '-' then -size else size

def value (n : Numeral) : Decimal.Scientific :=
  .ofParts false n.wholeDigits (n.fraction.filter Char.isDigit) n.exponentValue

end Numeral

end SceneScript.Token
