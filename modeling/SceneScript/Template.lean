import SceneScript.Catalog.SymbolTable
import SceneScript.Text.Position

/-!
# The unit around a snippet

A snippet is a list of statements. It is compiled as the body of a fixed function, in a unit that
imports every class of the standard symbol table and ends by returning the finished model. Positions
in the unit are mapped back to the snippet; those in the fixed text have no place there.
-/

namespace SceneScript.Template

/-- The function that every unit offers. -/
def entryPoint : String := "createModel"

/-- The parameter through which a snippet builds its model. -/
def builderParam : String := "modelBuilder"

def importLines : String :=
  String.join (SymbolTable.standard.granted.map fun c => "use " ++ c.qualifiedName ++ ";\n")

def header : String :=
  "module modelsnip.runtime;\n\n" ++ importLines ++ "\nfn " ++ entryPoint ++ "(" ++ builderParam ++
    ": ModelBuilder) -> Model \x7b\n    // snippet begins\n"

def trailer : String :=
  "\n    // snippet ends\n    return " ++ builderParam ++ ".end();\n\x7d\n"

def wrap (snippet : String) : String :=
  header ++ snippet ++ trailer

def newlines (s : String) : Nat :=
  s.toList.count '\n'

def lineCount (text : String) : Nat :=
  newlines text + 1

/-- The line of the unit on which a snippet begins, the last line of the header. -/
def firstLine : Nat :=
  lineCount header

/-- The position in a snippet of that many lines of a position in the unit around it. -/
def locationWithin? (lines : Nat) (p : Position) : Option Position :=
  if firstLine ≤ p.line ∧ p.line < firstLine + lines then
    some ⟨p.line - firstLine + 1, p.column⟩
  else
    none

def location? (snippet : String) (p : Position) : Option Position :=
  locationWithin? (lineCount snippet) p

end SceneScript.Template
