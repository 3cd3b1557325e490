import SceneScript.Geometry.Matrix

/-!
# Bounding boxes

Axis-aligned boxes, given by their least and greatest corner.
-/

namespace SceneScript

structure Bounds where
  min : Vec3
  max : Vec3
deriving DecidableEq, Inhabited

namespace Bounds

def includePoint (b : Bounds) (p : Vec3) : Bounds :=
  ⟨b.min.min p, b.max.max p⟩

def ofPoints : List Vec3 → Option Bounds
  | [] => none
  | p :: rest => some (rest.foldl includePoint ⟨p, p⟩)

def center (b : Bounds) : Vec3 :=
  (b.min.add b.max).scale 0.5

def size (b : Bounds) : Vec3 :=
  b.max.sub b.min

def union (b c : Bounds) : Bounds :=
  ⟨b.min.min c.min, b.max.max c.max⟩

/-- The eight corners, the coordinate X alternating fastest. -/
def corners (b : Bounds) : List Vec3 :=
  [ ⟨b.min.x, b.min.y, b.min.z⟩, ⟨b.max.x, b.min.y, b.min.z⟩,
    ⟨b.min.x, b.max.y, b.min.z⟩, ⟨b.max.x, b.max.y, b.min.z⟩,
    ⟨b.min.x, b.min.y, b.max.z⟩, ⟨b.max.x, b.min.y, b.max.z⟩,
    ⟨b.min.x, b.max.y, b.max.z⟩, ⟨b.max.x, b.max.y, b.max.z⟩ ]

/-- The box around the images of the corners. -/
def transformed (m : Matrix) (b : Bounds) : Bounds :=
  (ofPoints (b.corners.map m.transformPoint)).getD b

end Bounds

end SceneScript
