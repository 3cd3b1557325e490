import SceneScript.Geometry.Mesh

/-!
# Primitive shapes

The meshes of boxes, planes, cylinders, spheres and cones, all centred at the origin and drawn in
one colour. Round shapes are divided into a number of sectors. The number of vertices of a shape is
known before it is generated; it is a 32-bit number, as are the vertex numbers in a mesh.
-/

namespace SceneScript.Primitive

def pi : Float32 := Float32.ofBits 0x40490FDB

def tau : Float32 := Float32.ofBits 0x40C90FDB

def axisX : Vec3 := ⟨1, 0, 0⟩

def axisY : Vec3 := ⟨0, 1, 0⟩

def axisZ : Vec3 := ⟨0, 0, 1⟩

def negAxisX : Vec3 := ⟨-1, 0, 0⟩

def negAxisY : Vec3 := ⟨0, -1, 0⟩

def negAxisZ : Vec3 := ⟨0, 0, -1⟩

def ofIndex (i : Nat) : Float32 :=
  (UInt32.ofNat i).toFloat32

/-- A point of the unit circle in the plane of X and Z: the `i`-th of `n` equal steps around it. -/
def circlePoint (i n : Nat) : Float32 × Float32 :=
  let a := ofIndex i * tau / ofIndex n
  (a.cos, a.sin)

/-! ## Boxes and planes -/

def boxVertices : Nat := 24

/-- The four corners of each side of a box, and its normal. -/
def boxSides (x y z : Float32) : List (List Vec3 × Vec3) :=
  [ ([⟨-x, -y, z⟩, ⟨x, -y, z⟩, ⟨x, y, z⟩, ⟨-x, y, z⟩], axisZ),
    ([⟨x, -y, -z⟩, ⟨-x, -y, -z⟩, ⟨-x, y, -z⟩, ⟨x, y, -z⟩], negAxisZ),
    ([⟨x, -y, z⟩, ⟨x, -y, -z⟩, ⟨x, y, -z⟩, ⟨x, y, z⟩], axisX),
    ([⟨-x, -y, -z⟩, ⟨-x, -y, z⟩, ⟨-x, y, z⟩, ⟨-x, y, -z⟩], negAxisX),
    ([⟨-x, y, z⟩, ⟨x, y, z⟩, ⟨x, y, -z⟩, ⟨-x, y, -z⟩], axisY),
    ([⟨-x, -y, -z⟩, ⟨x, -y, -z⟩, ⟨x, -y, z⟩, ⟨-x, -y, z⟩], negAxisY) ]

def quadIndices (base : Nat) : List UInt32 :=
  [0, 1, 2, 0, 2, 3].map fun i => UInt32.ofNat (base + i)

def box (width height depth : Float32) (color : Vec3) : Mesh :=
  let sides := boxSides (width * 0.5) (height * 0.5) (depth * 0.5)
  .ofVertices
    (sides.flatMap fun (corners, normal) => corners.map fun p => ⟨p, normal, color⟩)
    ((List.range 6).flatMap fun side => quadIndices (4 * side))

def planeVertices : Nat := 4

def plane (width depth : Float32) (color : Vec3) : Mesh :=
  let x := width * 0.5
  let z := depth * 0.5
  .ofVertices
    ([⟨-x, 0, z⟩, ⟨x, 0, z⟩, ⟨x, 0, -z⟩, ⟨-x, 0, -z⟩].map fun p => ⟨p, axisY, color⟩)
    (quadIndices 0)

/-! ## Discs -/

/-- The centre of a disc at height `y` and the points around it. -/
def discVertices (radius y : Float32) (sectors : Nat) (normal color : Vec3) : List Vertex :=
  ⟨⟨0, y, 0⟩, normal, color⟩ ::
    (List.range sectors).map fun i =>
      let (c, s) := circlePoint i sectors
      ⟨⟨radius * c, y, radius * s⟩, normal, color⟩

def discIndices (center sectors : Nat) (up : Bool) : List UInt32 :=
  (List.range sectors).flatMap fun i =>
    let a := center + 1 + i
    let b := center + 1 + (i + 1) % sectors
    (if up then [center, b, a] else [center, a, b]).map UInt32.ofNat

/-! ## Cylinders -/

def cylinderVertices (sectors : UInt32) : Nat :=
  (4 * sectors + 2 * (sectors + 1)).toNat

def cylinderSide (radius y : Float32) (sectors : Nat) (color : Vec3) (i : Nat) : List Vertex :=
  let (c₀, s₀) := circlePoint i sectors
  let (c₁, s₁) := circlePoint (i + 1) sectors
  let n₀ : Vec3 := ⟨c₀, 0, s₀⟩
  let n₁ : Vec3 := ⟨c₁, 0, s₁⟩
  [ ⟨⟨radius * c₀, -y, radius * s₀⟩, n₀, color⟩, ⟨⟨radius * c₁, -y, radius * s₁⟩, n₁, color⟩,
    ⟨⟨radius * c₁, y, radius * s₁⟩, n₁, color⟩, ⟨⟨radius * c₀, y, radius * s₀⟩, n₀, color⟩ ]

def cylinderSideIndices (i : Nat) : List UInt32 :=
  [0, 2, 1, 0, 3, 2].map fun k => UInt32.ofNat (4 * i + k)

def cylinder (radius height : Float32) (sectors : UInt32) (color : Vec3) : Mesh :=
  let n := sectors.toNat
  let y := height * 0.5
  .ofVertices
    ((List.range n).flatMap (cylinderSide radius y n color) ++
      discVertices radius y n axisY color ++ discVertices radius (-y) n negAxisY color)
    ((List.range n).flatMap cylinderSideIndices ++ discIndices (4 * n) n true ++
      discIndices (4 * n + (n + 1)) n false)

/-! ## Spheres -/

def sphereRings (divisions : UInt32) : UInt32 :=
  max (divisions / 2) 2

def sphereVertices (divisions : UInt32) : Nat :=
  ((sphereRings divisions + 1) * (divisions + 1)).toNat

def sphereVertex (radius : Float32) (rings sectors : Nat) (color : Vec3) (r s : Nat) : Vertex :=
  let phi := pi * ofIndex r / ofIndex rings
  let theta := tau * ofIndex s / ofIndex sectors
  let n : Vec3 := ⟨phi.sin * theta.cos, phi.cos, phi.sin * theta.sin⟩
  ⟨n.scale radius, n, color⟩

def sphereCell (sectors r s : Nat) : List UInt32 :=
  let i₀ := r * (sectors + 1) + s
  let i₁ := i₀ + 1
  let i₂ := i₀ + sectors + 1
  let i₃ := i₂ + 1
  [i₀, i₁, i₂, i₁, i₃, i₂].map UInt32.ofNat

def sphere (radius : Float32) (divisions : UInt32) (color : Vec3) : Mesh :=
  let rings := (sphereRings divisions).toNat
  let sectors := divisions.toNat
  .ofVertices
    ((List.range (rings + 1)).flatMap fun r =>
      (List.range (sectors + 1)).map (sphereVertex radius rings sectors color r))
    ((List.range rings).flatMap fun r => (List.range sectors).flatMap (sphereCell sectors r))

/-! ## Cones -/

def coneVertices (sectors : UInt32) : Nat :=
  (3 * sectors + sectors + 1).toNat

/-- One sector of the side of a cone: the apex and two points of the rim. -/
def coneSide (radius height y : Float32) (sectors : Nat) (color : Vec3) (i : Nat) :
    List Vertex :=
  let slope := radius / height
  let (c₀, s₀) := circlePoint i sectors
  let (c₁, s₁) := circlePoint (i + 1) sectors
  let n₀ := Vec3.normalize ⟨c₀, slope, s₀⟩
  let n₁ := Vec3.normalize ⟨c₁, slope, s₁⟩
  [ ⟨⟨0, y, 0⟩, (n₀.add n₁).normalize, color⟩,
    ⟨⟨radius * c₀, -y, radius * s₀⟩, n₀, color⟩,
    ⟨⟨radius * c₁, -y, radius * s₁⟩, n₁, color⟩ ]

def coneSideIndices (i : Nat) : List UInt32 :=
  [0, 2, 1].map fun k => UInt32.ofNat (3 * i + k)

def cone (radius height : Float32) (sectors : UInt32) (color : Vec3) : Mesh :=
  let n := sectors.toNat
  let y := height * 0.5
  .ofVertices
    ((List.range n).flatMap (coneSide radius height y n color) ++
      discVertices radius (-y) n negAxisY color)
    ((List.range n).flatMap coneSideIndices ++ discIndices (3 * n) n false)

end SceneScript.Primitive
