import SceneScript.Catalog.Member

/-!
# Symbol tables

A symbol table grants some of the host's classes. Every name in a script is looked up in it, so a
class that is not granted cannot be reached.
-/

namespace SceneScript

structure SymbolTable where
  granted : List HostClass

namespace SymbolTable

/-- The table that grants the classes of the given qualified names; names the host does not know
are passed over. -/
def ofNames (names : List String) : SymbolTable :=
  ⟨names.filterMap HostClass.ofName?⟩

def resolve? (t : SymbolTable) (name : String) : Option HostClass :=
  (HostClass.ofName? name).filter (· ∈ t.granted)

def grant? (t : SymbolTable) (c : HostClass) : Option HostClass :=
  if c ∈ t.granted then some c else none

def classes (t : SymbolTable) : List HostClass :=
  HostClass.sorted t.granted

def names (t : SymbolTable) : List String :=
  t.classes.map HostClass.qualifiedName

def size (t : SymbolTable) : Nat :=
  t.classes.length

/-- The classes that scripts work with: the builder and what it is given, vectors and colours,
and the values of the language. -/
def standard : SymbolTable :=
  ⟨[.modelBuilder, .model, .node, .material, .color, .colorAttribute, .vector3, .array, .string,
    .integer, .float, .double, .boolean, .object]⟩

end SymbolTable

def simpleNameOf (name : String) : String :=
  String.ofList (name.toList.reverse.takeWhile (· != '.')).reverse

end SceneScript
