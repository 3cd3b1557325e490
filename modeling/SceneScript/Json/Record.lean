import SceneScript.Json.Number

/-!
# Reading records

A record is written as an object or as the array of its values. `slots?` finds the values of the
fields that a record is known to have; how an absent one is read is up to the field.
-/

namespace SceneScript.Json

/-- The fields of an object with their names unescaped. -/
def namedFields? (fields : List (String × Json)) : Option (List (String × Json)) :=
  fields.mapM fun (raw, v) => return (← unescape? raw, v)

/-- The value of a field that must not repeat. -/
def single (fields : List (String × Json)) (name : String) : Option (Option Json) :=
  match fields.filter fun f => f.1 == name with
  | [] => some none
  | [(_, v)] => some (some v)
  | _ => none

/-- The values of the fields with the given names. Other fields of an object are ignored; an array
may end early. -/
def slots? (names : List String) : Json → Option (List (Option Json))
  | .object fields => do
    let named ← namedFields? fields
    names.mapM (single named)
  | .array items =>
    if items.length ≤ names.length then
      some (items.map some ++ List.replicate (names.length - items.length) none)
    else none
  | _ => none

/-! ## Values that say nothing -/

def isNull : Json → Bool
  | .null => true
  | _ => false

def isVoid : Json → Bool
  | .null | .object [] => true
  | _ => false

/-! ## Fields -/

/-- A field that must be there. -/
def required (read : Json → Option α) (slot : Option Json) : Option α :=
  slot.bind read

def withDefault (default : α) (read : Json → Option α) : Option Json → Option α
  | none => some default
  | some v => read v

/-- A field that may be absent or null. -/
def optional (read : Json → Option α) : Option Json → Option (Option α)
  | none | some .null => some none
  | some v => (read v).map some

/-! ## Lists -/

def items? : Json → Option (List Json)
  | .array items => some items
  | _ => none

def listOf? (read : Json → Option α) (j : Json) : Option (List α) := do
  (← j.items?).mapM read

/-! ## Whole values -/

mutual

/-- Whether a value can be held as it is: every string denotes a text, every number is in range, and
arrays and objects are nested at most `depth` deep. -/
def holdable : Nat → Json → Bool
  | _, .null | _, .bool _ => true
  | _, .number written => (numeric? written).isSome
  | _, .string raw => (unescape? raw).isSome
  | 0, .array _ | 0, .object _ => false
  | depth + 1, .array items => allHoldable depth items
  | depth + 1, .object fields => allFieldsHoldable depth fields

def allHoldable (depth : Nat) : List Json → Bool
  | [] => true
  | item :: rest => holdable depth item && allHoldable depth rest

def allFieldsHoldable (depth : Nat) : List (String × Json) → Bool
  | [] => true
  | (name, v) :: rest =>
    (unescape? name).isSome && holdable depth v && allFieldsHoldable depth rest

end

end SceneScript.Json
