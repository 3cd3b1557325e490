import SceneScript.Json.Reader
import SceneScript.Json.Record
import SceneScript.Limits

/-!
# Settings

The limits as an operator writes them down. Whatever is left out has its default.
-/

namespace SceneScript.Limits

/-- The names of the limits in the order in which an array gives them. -/
def fieldNames : List String :=
  ["max_snippet_bytes", "max_nesting", "max_steps", "max_vertices", "max_parts", "max_nodes",
    "max_divisions", "max_string_len", "max_heap_bytes", "max_array_len", "max_diagnostics"]

def ofJson? (j : Json) : Option Limits := do
  let d : Limits := {}
  let word (default : Nat) := Json.withDefault default Json.word?
  match ← j.slots? fieldNames with
  | [snippetBytes, nesting, steps, vertices, parts, nodes, divisions, stringLen, heapBytes,
      arrayLen, diagnostics] =>
    return {
      maxSnippetBytes := ← word d.maxSnippetBytes snippetBytes
      maxNesting := ← word d.maxNesting nesting
      maxSteps := ← word d.maxSteps steps
      maxVertices := ← word d.maxVertices vertices
      maxParts := ← word d.maxParts parts
      maxNodes := ← word d.maxNodes nodes
      maxDivisions := ← Json.withDefault d.maxDivisions Json.halfWord? divisions
      maxStringLen := ← word d.maxStringLen stringLen
      maxHeapBytes := ← word d.maxHeapBytes heapBytes
      maxArrayLen := ← word d.maxArrayLen arrayLen
      maxDiagnostics := ← word d.maxDiagnostics diagnostics }
  | _ => none

def read? (text : String) : Option Limits := do
  ofJson? (← Json.read? text)

end SceneScript.Limits
