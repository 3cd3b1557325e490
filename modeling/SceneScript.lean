import SceneScript.Catalog.HostClass
import SceneScript.Catalog.Member
import SceneScript.Catalog.SymbolTable
import SceneScript.Catalog.Ty
import SceneScript.Compilation
import SceneScript.Decimal.Layout
import SceneScript.Decimal.Reading
import SceneScript.Decimal.Shortest
import SceneScript.Geometry.Bounds
import SceneScript.Geometry.Matrix
import SceneScript.Geometry.Mesh
import SceneScript.Geometry.Primitive
import SceneScript.Geometry.Validation
import SceneScript.Geometry.Vector
import SceneScript.Gltf.Assembly
import SceneScript.Gltf.Container
import SceneScript.Gltf.Document
import SceneScript.Gltf.Layout
import SceneScript.Invocation
import SceneScript.Json.Number
import SceneScript.Json.Reader
import SceneScript.Json.Record
import SceneScript.Json.Value
import SceneScript.Limits
import SceneScript.Loading
import SceneScript.Machine.Building
import SceneScript.Machine.Eval
import SceneScript.Machine.Fault
import SceneScript.Machine.Heap
import SceneScript.Machine.Native.Data
import SceneScript.Machine.Native.Dispatch
import SceneScript.Machine.Native.Language
import SceneScript.Machine.Native.Scene
import SceneScript.Machine.Run
import SceneScript.Machine.Text
import SceneScript.Machine.Value
import SceneScript.Message.Diagnostic
import SceneScript.Message.Response
import SceneScript.Message.Settings
import SceneScript.Message.Summary
import SceneScript.Model.Tree
import SceneScript.Number.Conversion
import SceneScript.Number.Integer
import SceneScript.Program.Code
import SceneScript.Proofs.Attachment
import SceneScript.Proofs.BinaryFile
import SceneScript.Proofs.BuilderLimits
import SceneScript.Proofs.CallFrames
import SceneScript.Proofs.ClosedWorld
import SceneScript.Proofs.Compilation
import SceneScript.Proofs.CountedLoops
import SceneScript.Proofs.Decimal.Length
import SceneScript.Proofs.Decimal.Rounding
import SceneScript.Proofs.DiagnosticsLimit
import SceneScript.Proofs.FaultLocations
import SceneScript.Proofs.FiniteColors
import SceneScript.Proofs.FrozenModel
import SceneScript.Proofs.Geometry.Circles
import SceneScript.Proofs.Geometry.Drawing
import SceneScript.Proofs.Geometry.Meshes
import SceneScript.Proofs.Geometry.Normals
import SceneScript.Proofs.Geometry.SoundShapes
import SceneScript.Proofs.Gltf.Assembly
import SceneScript.Proofs.Gltf.Bytes
import SceneScript.Proofs.Gltf.Extremes
import SceneScript.Proofs.Gltf.Links
import SceneScript.Proofs.Gltf.Reading
import SceneScript.Proofs.Gltf.Scene
import SceneScript.Proofs.HandleLiveness
import SceneScript.Proofs.HeapBudget
import SceneScript.Proofs.Hierarchy.Accounts
import SceneScript.Proofs.Hierarchy.Copies
import SceneScript.Proofs.Hierarchy.Finishing
import SceneScript.Proofs.Hierarchy.Forest
import SceneScript.Proofs.Hierarchy.Reached
import SceneScript.Proofs.Hierarchy.Records
import SceneScript.Proofs.Hierarchy.Single
import SceneScript.Proofs.Hierarchy.Walks
import SceneScript.Proofs.IntegerText
import SceneScript.Proofs.Invocation
import SceneScript.Proofs.Json.Numbers
import SceneScript.Proofs.Json.Reading
import SceneScript.Proofs.Json.Records
import SceneScript.Proofs.Json.Writing
import SceneScript.Proofs.Lexical.Checked
import SceneScript.Proofs.Lexical.Interpreter
import SceneScript.Proofs.Lexical.Lowering
import SceneScript.Proofs.Lexical.Mirrors
import SceneScript.Proofs.Lexical.Simulation
import SceneScript.Proofs.Lexical.Slots
import SceneScript.Proofs.Lexing
import SceneScript.Proofs.LiteralFolding
import SceneScript.Proofs.Locations
import SceneScript.Proofs.Machine.Building
import SceneScript.Proofs.Machine.Calls
import SceneScript.Proofs.Machine.Changes
import SceneScript.Proofs.Machine.Charges
import SceneScript.Proofs.Machine.Colors
import SceneScript.Proofs.Machine.Conclusions
import SceneScript.Proofs.Machine.Edits
import SceneScript.Proofs.Machine.Effects
import SceneScript.Proofs.Machine.Ends
import SceneScript.Proofs.Machine.Forgetting
import SceneScript.Proofs.Machine.Innermost
import SceneScript.Proofs.Machine.Metered
import SceneScript.Proofs.Machine.Native
import SceneScript.Proofs.Machine.Origins
import SceneScript.Proofs.Machine.Parallel
import SceneScript.Proofs.Machine.Plain
import SceneScript.Proofs.Machine.Reach
import SceneScript.Proofs.Machine.Rounds
import SceneScript.Proofs.Machine.Safe
import SceneScript.Proofs.Machine.Scaling
import SceneScript.Proofs.Machine.SizedRuns
import SceneScript.Proofs.Machine.Sizes
import SceneScript.Proofs.Machine.Soundness
import SceneScript.Proofs.Machine.Stays
import SceneScript.Proofs.Machine.Stepless
import SceneScript.Proofs.Machine.Steps
import SceneScript.Proofs.Machine.Traces
import SceneScript.Proofs.Machine.Types
import SceneScript.Proofs.Machine.Writes
import SceneScript.Proofs.ModelBounds
import SceneScript.Proofs.Moments
import SceneScript.Proofs.NestingBounds
import SceneScript.Proofs.Number.Arithmetic
import SceneScript.Proofs.Number.Errors
import SceneScript.Proofs.Number.Floats
import SceneScript.Proofs.Number.Operations
import SceneScript.Proofs.Number.Rounding
import SceneScript.Proofs.PrimitiveMeshes
import SceneScript.Proofs.Printing
import SceneScript.Proofs.RaisedLimits
import SceneScript.Proofs.Rendering
import SceneScript.Proofs.Responses
import SceneScript.Proofs.SceneGraph
import SceneScript.Proofs.Session.Holding
import SceneScript.Proofs.Session.Numbering
import SceneScript.Proofs.SlotRuns
import SceneScript.Proofs.Soundness
import SceneScript.Proofs.Source.Agreement
import SceneScript.Proofs.Source.Built
import SceneScript.Proofs.Source.Depth
import SceneScript.Proofs.Source.Entering
import SceneScript.Proofs.Source.Folding
import SceneScript.Proofs.Source.Heights
import SceneScript.Proofs.Source.Places
import SceneScript.Proofs.Source.Printing
import SceneScript.Proofs.Source.Reading
import SceneScript.Proofs.Source.RoundTrip
import SceneScript.Proofs.Source.Rounds
import SceneScript.Proofs.Source.Runs
import SceneScript.Proofs.Source.Statements
import SceneScript.Proofs.Source.UnitReading
import SceneScript.Proofs.StatementsKept
import SceneScript.Proofs.StepBudget
import SceneScript.Proofs.Template.Lexing
import SceneScript.Proofs.Template.Parsing
import SceneScript.Proofs.Template.Visible
import SceneScript.Proofs.TextSizes
import SceneScript.Proofs.Token.Cuts
import SceneScript.Proofs.Token.Lexemes
import SceneScript.Proofs.Token.Numerals
import SceneScript.Proofs.Token.Seam
import SceneScript.Proofs.Token.Streams
import SceneScript.Proofs.Token.Writing
import SceneScript.Proofs.Typing.Accounts
import SceneScript.Proofs.Typing.Assigning
import SceneScript.Proofs.Typing.Checks
import SceneScript.Proofs.Typing.Closure
import SceneScript.Proofs.Typing.Judgement
import SceneScript.Proofs.Typing.Lowering
import SceneScript.Proofs.Typing.Names
import SceneScript.Proofs.Typing.Recording
import SceneScript.Proofs.Typing.Recursion
import SceneScript.Proofs.Typing.Soundness
import SceneScript.Proofs.Typing.Units
import SceneScript.Proofs.ValidPrimitives
import SceneScript.Proofs.VertexBudget
import SceneScript.Proofs.WiderGrants
import SceneScript.Samples
import SceneScript.Session.Attempt
import SceneScript.Session.Engine
import SceneScript.Session.Handle
import SceneScript.Session.Shared
import SceneScript.Session.Slot
import SceneScript.Source.Error
import SceneScript.Source.Parser
import SceneScript.Source.Tree
import SceneScript.Template
import SceneScript.Text.Letter
import SceneScript.Text.Position
import SceneScript.Text.Word
import SceneScript.Token.Kind
import SceneScript.Token.Lexer
import SceneScript.Token.Numeral
import SceneScript.Typing.Checker
import SceneScript.Typing.Error
