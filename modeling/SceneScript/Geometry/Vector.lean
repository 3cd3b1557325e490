import SceneScript.Number.Conversion

/-!
# Vectors and colours

Vectors of three single-precision numbers. Each operation rounds where it is written and in the
order in which it is written.
-/

namespace SceneScript

structure Vec3 where
  x : Float32
  y : Float32
  z : Float32
deriving DecidableEq, Inhabited

namespace Vec3

def zero : Vec3 := ⟨0, 0, 0⟩

def one : Vec3 := ⟨1, 1, 1⟩

def map (f : Float32 → Float32) (v : Vec3) : Vec3 :=
  ⟨f v.x, f v.y, f v.z⟩

def zipWith (f : Float32 → Float32 → Float32) (v w : Vec3) : Vec3 :=
  ⟨f v.x w.x, f v.y w.y, f v.z w.z⟩

def add (v w : Vec3) : Vec3 := zipWith (· + ·) v w

def sub (v w : Vec3) : Vec3 := zipWith (· - ·) v w

def scale (v : Vec3) (s : Float32) : Vec3 := v.map (· * s)

def dot (v w : Vec3) : Float32 :=
  v.x * w.x + v.y * w.y + v.z * w.z

def cross (v w : Vec3) : Vec3 :=
  ⟨v.y * w.z - w.y * v.z, v.z * w.x - w.z * v.x, v.x * w.y - w.x * v.y⟩

def length (v : Vec3) : Float32 :=
  (v.dot v).sqrt

def normalize (v : Vec3) : Vec3 :=
  v.scale (1 / v.length)

/-- The vector of unit length in the same direction, or zero where there is none. -/
def normalizeOrZero (v : Vec3) : Vec3 :=
  let s := 1 / v.length
  if s.isFinite && 0 < s then v.scale s else zero

/-- The smaller of each pair of components. -/
def min (v w : Vec3) : Vec3 := zipWith Number.smaller32 v w

/-- The larger of each pair of components. -/
def max (v w : Vec3) : Vec3 := zipWith Number.larger32 v w

def isFinite (v : Vec3) : Bool :=
  v.x.isFinite && v.y.isFinite && v.z.isFinite

def toList (v : Vec3) : List Float32 :=
  [v.x, v.y, v.z]

end Vec3

structure Rgba where
  r : Float32
  g : Float32
  b : Float32
  a : Float32
deriving DecidableEq, Inhabited

namespace Rgba

def white : Rgba := ⟨1, 1, 1, 1⟩

def toList (c : Rgba) : List Float32 :=
  [c.r, c.g, c.b, c.a]

def rgb (c : Rgba) : Vec3 :=
  ⟨c.r, c.g, c.b⟩

end Rgba

end SceneScript
