import SceneScript.Catalog.Ty

/-!
# Members of the classes

The signature of every member that the host describes, class by class.
-/

namespace SceneScript

inductive MemberKind where
  | method
  | staticMethod
  | field
  | readOnlyField
  | constant
deriving Repr, DecidableEq

namespace MemberKind

def isStatic : MemberKind → Bool
  | .staticMethod | .constant => true
  | .method | .field | .readOnlyField => false

def isField : MemberKind → Bool
  | .field | .readOnlyField => true
  | .method | .staticMethod | .constant => false

end MemberKind

structure Member where
  name : String
  kind : MemberKind
  params : List Ty
  result : Ty
deriving Repr, DecidableEq

namespace Member

def method (name : String) (params : List Ty) (result : Ty) : Member :=
  ⟨name, .method, params, result⟩

def static (name : String) (params : List Ty) (result : Ty) : Member :=
  ⟨name, .staticMethod, params, result⟩

def field (name : String) (type : Ty) : Member :=
  ⟨name, .field, [], type⟩

def readOnly (name : String) (type : Ty) : Member :=
  ⟨name, .readOnlyField, [], type⟩

def constant (name : String) (type : Ty) : Member :=
  ⟨name, .constant, [], type⟩

end Member

namespace HostClass
open Member

/-- The type of the values whose members the class describes. -/
def instanceType : HostClass → Ty
  | .boolean => .bool
  | .double | .float => .float
  | .integer => .int
  | .object => .any
  | .string => .string
  | c => .object c

def members : HostClass → List Member
  | .modelBuilder =>
    [ method "box" [.float, .float, .float] .int,
      method "sphere" [.float, .int] .int,
      method "cylinder" [.float, .float, .int] .int,
      method "cone" [.float, .float, .int] .int,
      method "plane" [.float, .float] .int,
      method "node" [] (.object .node),
      method "part" [.object .node, .int, .object .material] .void,
      method "partCount" [] .int,
      method "end" [] (.object .model) ]
  | .model =>
    [ method "nodeCount" [] .int,
      method "partCount" [] .int,
      method "vertexCount" [] .int ]
  | .node =>
    [ field "id" .string,
      readOnly "translation" (.object .vector3),
      readOnly "rotation" (.object .vector3),
      readOnly "scale" (.object .vector3),
      method "addPart" [.int, .object .material] .void,
      method "addChild" [.object .node] .void,
      method "setTranslation" [.float, .float, .float] (.object .node),
      method "childCount" [] .int ]
  | .material =>
    [ static "new" [] (.object .material),
      static "of" [.object .colorAttribute] (.object .material),
      field "id" .string,
      method "set" [.object .colorAttribute] (.object .material) ]
  | .color =>
    [ static "new" [.float, .float, .float, .float] (.object .color),
      static "rgb" [.float, .float, .float] (.object .color),
      constant "WHITE" (.object .color),
      constant "BLACK" (.object .color),
      constant "RED" (.object .color),
      constant "GREEN" (.object .color),
      constant "BLUE" (.object .color),
      constant "GRAY" (.object .color),
      constant "BROWN" (.object .color),
      field "r" .float,
      field "g" .float,
      field "b" .float,
      field "a" .float,
      method "lerp" [.object .color, .float] (.object .color),
      method "cpy" [] (.object .color) ]
  | .colorAttribute =>
    [ static "createDiffuse" [.object .color] (.object .colorAttribute),
      static "createSpecular" [.object .color] (.object .colorAttribute),
      static "createEmissive" [.object .color] (.object .colorAttribute) ]
  | .vector3 =>
    [ static "new" [.float, .float, .float] (.object .vector3),
      static "zero" [] (.object .vector3),
      field "x" .float,
      field "y" .float,
      field "z" .float,
      method "set" [.float, .float, .float] (.object .vector3),
      method "add" [.object .vector3] (.object .vector3),
      method "sub" [.object .vector3] (.object .vector3),
      method "scl" [.float] (.object .vector3),
      method "len" [] .float,
      method "nor" [] (.object .vector3),
      method "cpy" [] (.object .vector3),
      method "dot" [.object .vector3] .float,
      method "crs" [.object .vector3] (.object .vector3) ]
  | .array =>
    [ static "new" [] (.object .array),
      method "add" [.any] .void,
      method "size" [] .int,
      method "get" [.int] .any ]
  | .string =>
    [ static "valueOf" [.any] .string,
      method "length" [] .int,
      method "concat" [.string] .string,
      method "isEmpty" [] .bool,
      method "toString" [] .string ]
  | .integer =>
    [ static "parseInt" [.string] .int,
      static "max" [.int, .int] .int,
      static "min" [.int, .int] .int,
      constant "MAX_VALUE" .int,
      constant "MIN_VALUE" .int,
      method "toString" [] .string ]
  | .float =>
    [ static "parseFloat" [.string] .float,
      static "isNaN" [.float] .bool,
      static "max" [.float, .float] .float,
      static "min" [.float, .float] .float,
      constant "MAX_VALUE" .float,
      method "toString" [] .string ]
  | .double =>
    [ static "parseDouble" [.string] .float,
      static "isNaN" [.float] .bool,
      constant "MAX_VALUE" .float,
      method "toString" [] .string ]
  | .boolean =>
    [ static "parseBoolean" [.string] .bool,
      method "toString" [] .string ]
  | .object =>
    [ method "toString" [] .string ]
  | .math =>
    [ static "sin" [.float] .float,
      static "cos" [.float] .float,
      static "sqrt" [.float] .float,
      constant "PI" .float ]
  | .system =>
    [ static "exit" [.int] .void,
      static "getenv" [.string] .string,
      static "currentTimeMillis" [] .int ]
  | .files =>
    [ static "read" [.string] .string,
      static "write" [.string, .string] .void ]
  | .environment =>
    [ static "new" [] (.object .environment),
      method "setAmbient" [.object .color] .void,
      method "add" [.object .directionalLight] .void ]
  | .directionalLight =>
    [ static "new" [.object .color, .object .vector3] (.object .directionalLight) ]

def instanceMember? (c : HostClass) (name : String) : Option Member :=
  c.members.find? fun m => m.name == name && !m.kind.isStatic

def staticMember? (c : HostClass) (name : String) : Option Member :=
  c.members.find? fun m => m.name == name && m.kind.isStatic

end HostClass

end SceneScript
