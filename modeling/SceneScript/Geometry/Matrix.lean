import SceneScript.Geometry.Vector

/-!
# Rotations and affine maps

A rotation is given by three angles, turned into a quaternion and then into the columns of a matrix.
-/

namespace SceneScript

structure Quaternion where
  x : Float32
  y : Float32
  z : Float32
  w : Float32
deriving DecidableEq, Inhabited

def radiansPerDegree : Float32 := Float32.ofBits 0x3C8EFA35

def radians (degrees : Float32) : Float32 :=
  degrees * radiansPerDegree

namespace Quaternion

def ofEuler (a b c : Float32) : Quaternion :=
  let i := a * 0.5
  let j := -b * 0.5
  let h := c * 0.5
  let si := i.sin
  let ci := i.cos
  let sj := j.sin
  let cj := j.cos
  let sh := h.sin
  let ch := h.cos
  let cc := ci * ch
  let cs := ci * sh
  let sc := si * ch
  let ss := si * sh
  ⟨cj * sc - sj * cs, (cj * ss + sj * cc) * -1, cj * cs - sj * sc, cj * cc + sj * ss⟩

def ofDegrees (v : Vec3) : Quaternion :=
  ofEuler (radians v.x) (radians v.y) (radians v.z)

def toList (q : Quaternion) : List Float32 :=
  [q.x, q.y, q.z, q.w]

end Quaternion

structure Vec4 where
  x : Float32
  y : Float32
  z : Float32
  w : Float32
deriving DecidableEq, Inhabited

namespace Vec4

def zipWith (f : Float32 → Float32 → Float32) (v w : Vec4) : Vec4 :=
  ⟨f v.x w.x, f v.y w.y, f v.z w.z, f v.w w.w⟩

def add (v w : Vec4) : Vec4 := zipWith (· + ·) v w

def scale (v : Vec4) (s : Float32) : Vec4 :=
  ⟨v.x * s, v.y * s, v.z * s, v.w * s⟩

def toList (v : Vec4) : List Float32 :=
  [v.x, v.y, v.z, v.w]

end Vec4

structure Matrix where
  x : Vec4
  y : Vec4
  z : Vec4
  w : Vec4
deriving DecidableEq, Inhabited

namespace Matrix

def identity : Matrix :=
  ⟨⟨1, 0, 0, 0⟩, ⟨0, 1, 0, 0⟩, ⟨0, 0, 1, 0⟩, ⟨0, 0, 0, 1⟩⟩

/-- First scales, then rotates, then moves. -/
def ofParts (scale : Vec3) (q : Quaternion) (translation : Vec3) : Matrix :=
  let x2 := q.x + q.x
  let y2 := q.y + q.y
  let z2 := q.z + q.z
  let xx := q.x * x2
  let xy := q.x * y2
  let xz := q.x * z2
  let yy := q.y * y2
  let yz := q.y * z2
  let zz := q.z * z2
  let wx := q.w * x2
  let wy := q.w * y2
  let wz := q.w * z2
  { x := Vec4.scale ⟨1 - (yy + zz), xy + wz, xz - wy, 0⟩ scale.x
    y := Vec4.scale ⟨xy - wz, 1 - (xx + zz), yz + wx, 0⟩ scale.y
    z := Vec4.scale ⟨xz + wy, yz - wx, 1 - (xx + yy), 0⟩ scale.z
    w := ⟨translation.x, translation.y, translation.z, 1⟩ }

def apply (m : Matrix) (v : Vec4) : Vec4 :=
  (((m.x.scale v.x).add (m.y.scale v.y)).add (m.z.scale v.z)).add (m.w.scale v.w)

/-- The map that applies `n` first. -/
def mul (m n : Matrix) : Matrix :=
  ⟨m.apply n.x, m.apply n.y, m.apply n.z, m.apply n.w⟩

def transformPoint (m : Matrix) (p : Vec3) : Vec3 :=
  let v := m.w.add ((m.z.scale p.z).add ((m.y.scale p.y).add (m.x.scale p.x)))
  ⟨v.x, v.y, v.z⟩

def toList (m : Matrix) : List Float32 :=
  m.x.toList ++ m.y.toList ++ m.z.toList ++ m.w.toList

end Matrix

/-- The place of a node relative to its parent; the rotation is given by angles in degrees. -/
structure Transform where
  translation : Vec3
  rotation : Vec3
  scale : Vec3
deriving DecidableEq, Inhabited

namespace Transform

def identity : Transform := ⟨.zero, .zero, .one⟩

def matrix (t : Transform) : Matrix :=
  .ofParts t.scale (.ofDegrees t.rotation) t.translation

end Transform

end SceneScript
