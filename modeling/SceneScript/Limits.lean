/-!
# Limits

The bounds on one attempt to build a model. Those on the text and its errors hold while it is
compiled, the others while it runs.
-/

namespace SceneScript

structure Limits where
  /-- The size of a snippet in bytes. -/
  maxSnippetBytes : Nat := 65536
  /-- The nesting of blocks and expressions. -/
  maxNesting : Nat := 96
  /-- The evaluation steps of one run. -/
  maxSteps : Nat := 1000000
  /-- The vertices of all meshes, generated and placed. -/
  maxVertices : Nat := 2000000
  /-- The meshes that a builder generates, and the parts that it places. -/
  maxParts : Nat := 4096
  /-- The nodes that a builder creates. -/
  maxNodes : Nat := 4096
  /-- The divisions of a round primitive. -/
  maxDivisions : Nat := 256
  /-- The size of a computed string in bytes. -/
  maxStringLen : Nat := 65536
  /-- The bytes that one run allocates for strings, arrays and objects. -/
  maxHeapBytes : Nat := 67108864
  /-- The elements of an array. -/
  maxArrayLen : Nat := 65536
  /-- The errors that are reported for one snippet. -/
  maxDiagnostics : Nat := 32
deriving Repr, DecidableEq

end SceneScript
