import SceneScript.Message.Diagnostic
import SceneScript.Message.Summary

/-!
# Requests and responses

A client sends a snippet and is told about its model, or why there is none. The field `status` says
which of the two, and may stand anywhere among the others. A response is held as a whole before its
parts are read, so nothing in it may be malformed, not even in fields that are ignored; and where a
value is not to be given, the empty object does as well as null.
-/

namespace SceneScript

structure CompileRequest where
  snippet : String
deriving Repr, DecidableEq

inductive CompileResponse where
  | ok (model : Summary)
  | error (diagnostic : Diagnostic)
deriving DecidableEq

namespace CompileRequest

def json (r : CompileRequest) : Json :=
  .object [Json.field "snippet" (.text r.snippet)]

def ofJson? (j : Json) : Option CompileRequest := do
  match ← j.slots? ["snippet"] with
  | [snippet] => return ⟨← Json.required Json.text? snippet⟩
  | _ => none

end CompileRequest

namespace CompileResponse

def ofResult : Except Diagnostic Summary → CompileResponse
  | .ok s => .ok s
  | .error d => .error d

def json : CompileResponse → Json
  | .ok s => .object [Json.field "status" (.text "ok"), Json.field "model" s.json]
  | .error d => .object [Json.field "status" (.text "error"), Json.field "diagnostic" d.json]

/-- The deepest nesting of a response that is read. -/
def maxDepth : Nat := 127

def isStatus (f : String × Json) : Bool :=
  Json.unescape? f.1 == some "status"

def split? : Json → Option (Json × Json)
  | .object fields =>
    match fields.filter isStatus with
    | [(_, status)] => some (status, .object (fields.filter fun f => !isStatus f))
    | _ => none
  | .array (status :: rest) => some (status, .array rest)
  | _ => none

/-- Reads the one field of a response besides its status. -/
def content? (name : String) (read : Json → Option α) (j : Json) : Option α := do
  match ← j.slots? [name] with
  | [slot] => Json.required read slot
  | _ => none

def ofJson? (j : Json) : Option CompileResponse := do
  if !Json.holdable maxDepth j then none
  let (status, rest) ← split? j
  match ← status.text? with
  | "ok" => return .ok (← content? "model" Summary.ofJson? rest)
  | "error" =>
    return .error (← content? "diagnostic" (Diagnostic.read? (Stage.read? Json.isVoid)) rest)
  | _ => none

end CompileResponse

end SceneScript
