import SceneScript.Json.Record
import SceneScript.Text.Position

/-!
# Diagnostics

Why an attempt to build a model failed: the first error, with the further ones as notes. As JSON, a
location and notes are only written if there are any, and may be left out when they are read.
-/

namespace SceneScript

/-- The stages at which an attempt can fail. Loading belongs to the first. -/
inductive Stage where
  | compile
  | execute
deriving Repr, DecidableEq

structure Note where
  message : String
  location : Option Position
deriving Repr, DecidableEq

structure Diagnostic where
  stage : Stage
  message : String
  location : Option Position
  notes : List Note
deriving Repr, DecidableEq

def Stage.name : Stage → String
  | .compile => "compile"
  | .execute => "execute"

namespace Diagnostic

def display (d : Diagnostic) : String :=
  let place := match d.location with
    | some p => " at " ++ p.display
    | none => ""
  d.stage.name ++ " error" ++ place ++ ": " ++ d.message

def errorCount (d : Diagnostic) : Nat :=
  1 + d.notes.length

end Diagnostic

/-! ## Writing -/

def Position.json (p : Position) : Json :=
  .object [Json.field "line" (.nat p.line), Json.field "column" (.nat p.column)]

def Stage.json (s : Stage) : Json :=
  .text s.name

def locationField (location : Option Position) : List (String × Json) :=
  (location.map fun p => Json.field "location" p.json).toList

def Note.json (n : Note) : Json :=
  .object (Json.field "message" (.text n.message) :: locationField n.location)

def Diagnostic.json (d : Diagnostic) : Json :=
  let notes :=
    if d.notes.isEmpty then [] else [Json.field "notes" (.array (d.notes.map Note.json))]
  .object (Json.field "stage" d.stage.json :: Json.field "message" (.text d.message) ::
    locationField d.location ++ notes)

/-! ## Reading -/

def Position.ofJson? (j : Json) : Option Position := do
  match ← j.slots? ["line", "column"] with
  | [line, column] =>
    return ⟨← Json.required Json.halfWord? line, ← Json.required Json.halfWord? column⟩
  | _ => none

def Stage.ofName? : String → Option Stage
  | "compile" => some .compile
  | "execute" => some .execute
  | _ => none

/-- A stage by its name alone, or as the only field of an object, without a value. -/
def Stage.read? (isVoid : Json → Bool) : Json → Option Stage
  | .string raw => do ofName? (← Json.unescape? raw)
  | .object [(raw, v)] => if isVoid v then do ofName? (← Json.unescape? raw) else none
  | _ => none

def Stage.ofJson? : Json → Option Stage :=
  read? Json.isNull

def Note.ofJson? (j : Json) : Option Note := do
  match ← j.slots? ["message", "location"] with
  | [message, location] =>
    return ⟨← Json.required Json.text? message, ← Json.optional Position.ofJson? location⟩
  | _ => none

def Diagnostic.read? (readStage : Json → Option Stage) (j : Json) : Option Diagnostic := do
  match ← j.slots? ["stage", "message", "location", "notes"] with
  | [stage, message, location, notes] =>
    return {
      stage := ← Json.required readStage stage
      message := ← Json.required Json.text? message
      location := ← Json.optional Position.ofJson? location
      notes := ← Json.withDefault [] (Json.listOf? Note.ofJson?) notes }
  | _ => none

def Diagnostic.ofJson? : Json → Option Diagnostic :=
  read? Stage.ofJson?

end SceneScript
