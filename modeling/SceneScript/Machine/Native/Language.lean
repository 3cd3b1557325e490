import SceneScript.Decimal.Reading
import SceneScript.Machine.Run
import SceneScript.Number.Integer
import SceneScript.Text.Word

/-!
# Strings, numbers and truth values

The members of the classes that stand for the values of the language.
-/

namespace SceneScript.Native

open Run

def unknown (access : Access) (name : String) : Run α :=
  fault (.unknownMember access name)

def textOf (v : Value) : Run Value := do
  string (← display v)

def toStringCall (name : String) (receiver : Value) (args : List Value) : Run Value :=
  match name, args with
  | "toString", [] => textOf receiver
  | _, _ => unknown .method name

/-! ## String -/

def stringCall (name : String) (receiver : Value) (args : List Value) : Run Value := do
  let s ← receiver.asString
  match name, args with
  | "length", [] => return .int (Int64.ofNat s.length)
  | "isEmpty", [] => return .bool s.isEmpty
  | "toString", [] => return receiver
  | "concat", [other] => string (s ++ (← other.asString))
  | _, _ => unknown .method name

def stringStatic (name : String) (args : List Value) : Run Value :=
  match name, args with
  | "valueOf", [v] => textOf v
  | _, _ => unknown .staticMethod name

/-! ## Integer -/

def integerStatic (name : String) (args : List Value) : Run Value := do
  match name, args with
  | "parseInt", [v] =>
    let s ← v.asString
    match Number.readInt64? s.toList with
    | some n => return .int n
    | none => fault (.unreadable s .int)
  | "max", [a, b] =>
    let a ← a.asInt
    let b ← b.asInt
    return .int (if a < b then b else a)
  | "min", [a, b] =>
    let a ← a.asInt
    let b ← b.asInt
    return .int (if b < a then b else a)
  | _, _ => unknown .staticMethod name

def integerConstant (name : String) : Run Value :=
  match name with
  | "MAX_VALUE" => return .int Int64.maxValue
  | "MIN_VALUE" => return .int Int64.minValue
  | _ => unknown .constant name

/-! ## Float and Double -/

/-- Reads a number, blanks around it apart. -/
def readNumber (s : String) (as : ReadAs) : Run Decimal.Reading :=
  match Decimal.read? (Text.trimBlanks s.toList) with
  | some r => return r
  | none => fault (.unreadable s as)

def isNaN (v : Value) : Run Value := do
  return .bool (← v.asFloat).isNaN

def floatStatic (name : String) (args : List Value) : Run Value := do
  match name, args with
  | "parseFloat", [v] =>
    return .float (Number.widen (← readNumber (← v.asString) .float).toFloat32)
  | "isNaN", [v] => isNaN v
  | "max", [a, b] => return .float (Number.larger (← a.asFloat) (← b.asFloat))
  | "min", [a, b] => return .float (Number.smaller (← a.asFloat) (← b.asFloat))
  | _, _ => unknown .staticMethod name

def floatMax : Float := Number.widen (Float32.ofBits 0x7F7FFFFF)

def floatConstant (name : String) : Run Value :=
  match name with
  | "MAX_VALUE" => return .float floatMax
  | _ => unknown .constant name

def doubleStatic (name : String) (args : List Value) : Run Value := do
  match name, args with
  | "parseDouble", [v] => return .float (← readNumber (← v.asString) .double).toFloat
  | "isNaN", [v] => isNaN v
  | _, _ => unknown .staticMethod name

def doubleMax : Float := Float.ofBits 0x7FEFFFFFFFFFFFFF

def doubleConstant (name : String) : Run Value :=
  match name with
  | "MAX_VALUE" => return .float doubleMax
  | _ => unknown .constant name

/-! ## Boolean -/

def booleanStatic (name : String) (args : List Value) : Run Value := do
  match name, args with
  | "parseBoolean", [.null] => return .bool false
  | "parseBoolean", [v] =>
    return .bool ((← v.asString).toList.map Char.toLower == "true".toList)
  | _, _ => unknown .staticMethod name

end SceneScript.Native
