import Mathlib
import SceneScript.Model.Tree
import SceneScript.Proofs.Gltf.Extremes
import SceneScript.Proofs.Number.Arithmetic

/-!
# The box of a model

While all numbers are finite, the box of a model is the least box around the boxes of its parts,
it holds every vertex of the model in its place, and it does not depend on the order of nodes and
parts (`Model.bounds_enclose`).

A part contributes the box around the images of the eight corners of its own box. Each coordinate of
an image is a sum of products with constants, and rounding keeps the order of numbers: the image of
a vertex is between those of two corners, whatever the signs of the constants
(`Matrix.along_between`).
-/

namespace SceneScript

open Number Gltf

/-! ## Boxes within boxes -/

def Vec3.Le (v w : Vec3) : Prop :=
  v.x ≤ w.x ∧ v.y ≤ w.y ∧ v.z ≤ w.z

namespace Bounds

def IsFinite (b : Bounds) : Prop :=
  b.min.isFinite ∧ b.max.isFinite

def Contains (b : Bounds) (p : Vec3) : Prop :=
  b.min.Le p ∧ p.Le b.max

/-- Every point of the first box is in the second. Boxes that are within each other have the same
corners, up to the sign of zero. -/
def Within (b c : Bounds) : Prop :=
  c.min.Le b.min ∧ b.max.Le c.max

def IsHull (b : Bounds) (boxes : List Bounds) : Prop :=
  (∀ c ∈ boxes, c.Within b) ∧ ∀ d : Bounds, (∀ c ∈ boxes, c.Within d) → b.Within d

end Bounds

section

variable {u v w : Vec3} {b c d : Bounds}

theorem Vec3.isFinite_iff (v : Vec3) :
    v.isFinite ↔ v.x.isFinite ∧ v.y.isFinite ∧ v.z.isFinite := by
  simp [Vec3.isFinite, and_assoc]

theorem Vec3.Le.trans (finiteU : u.isFinite) (finiteV : v.isFinite) (finiteW : w.isFinite)
    (first : u.Le v) (second : v.Le w) : u.Le w := by
  obtain ⟨ux, uy, uz⟩ := u.isFinite_iff.1 finiteU
  obtain ⟨vx, vy, vz⟩ := v.isFinite_iff.1 finiteV
  obtain ⟨wx, wy, wz⟩ := w.isFinite_iff.1 finiteW
  exact ⟨le_trans_single ux vx wx first.1 second.1, le_trans_single uy vy wy first.2.1 second.2.1,
    le_trans_single uz vz wz first.2.2 second.2.2⟩

theorem Vec3.Le.refl (finite : v.isFinite) : v.Le v := by
  obtain ⟨x, y, z⟩ := v.isFinite_iff.1 finite
  exact ⟨le_refl_single x, le_refl_single y, le_refl_single z⟩

theorem Vec3.min_le (finiteV : v.isFinite) (finiteW : w.isFinite) :
    (v.min w).Le v ∧ (v.min w).Le w := by
  obtain ⟨vx, vy, vz⟩ := v.isFinite_iff.1 finiteV
  obtain ⟨wx, wy, wz⟩ := w.isFinite_iff.1 finiteW
  have x := smaller32_le vx wx
  have y := smaller32_le vy wy
  have z := smaller32_le vz wz
  exact ⟨⟨x.1, y.1, z.1⟩, x.2, y.2, z.2⟩

theorem Vec3.le_max (finiteV : v.isFinite) (finiteW : w.isFinite) :
    v.Le (v.max w) ∧ w.Le (v.max w) := by
  obtain ⟨vx, vy, vz⟩ := v.isFinite_iff.1 finiteV
  obtain ⟨wx, wy, wz⟩ := w.isFinite_iff.1 finiteW
  have x := le_larger32 vx wx
  have y := le_larger32 vy wy
  have z := le_larger32 vz wz
  exact ⟨⟨x.1, y.1, z.1⟩, x.2, y.2, z.2⟩

theorem Vec3.le_min (first : u.Le v) (second : u.Le w) : u.Le (v.min w) := by
  have component {x y z : Float32} (left : x ≤ y) (right : x ≤ z) : x ≤ smaller32 y z := by
    rcases smaller32_picks y z with is | is <;> rwa [is]
  exact ⟨component first.1 second.1, component first.2.1 second.2.1,
    component first.2.2 second.2.2⟩

theorem Vec3.max_le (first : v.Le u) (second : w.Le u) : (v.max w).Le u := by
  have component {x y z : Float32} (left : y ≤ x) (right : z ≤ x) : larger32 y z ≤ x := by
    rcases larger32_picks y z with is | is <;> rwa [is]
  exact ⟨component first.1 second.1, component first.2.1 second.2.1,
    component first.2.2 second.2.2⟩

namespace Bounds

theorem Within.refl (finite : b.IsFinite) : b.Within b :=
  ⟨.refl finite.1, .refl finite.2⟩

theorem Within.trans (finiteB : b.IsFinite) (finiteC : c.IsFinite) (finiteD : d.IsFinite)
    (first : b.Within c) (second : c.Within d) : b.Within d :=
  ⟨second.1.trans finiteD.1 finiteC.1 finiteB.1 first.1,
    first.2.trans finiteB.2 finiteC.2 finiteD.2 second.2⟩

theorem Contains.mono {p : Vec3} (finite : p.isFinite) (finiteB : b.IsFinite)
    (finiteC : c.IsFinite) (contains : b.Contains p) (within : b.Within c) : c.Contains p :=
  ⟨within.1.trans finiteC.1 finiteB.1 finite contains.1,
    contains.2.trans finite finiteB.2 finiteC.2 within.2⟩

theorem union_isFinite (finiteB : b.IsFinite) (finiteC : c.IsFinite) : (b.union c).IsFinite :=
  ⟨zipWith_isFinite smaller32_picks finiteB.1 finiteC.1,
    zipWith_isFinite larger32_picks finiteB.2 finiteC.2⟩

theorem within_union (finiteB : b.IsFinite) (finiteC : c.IsFinite) :
    b.Within (b.union c) ∧ c.Within (b.union c) := by
  have low := Vec3.min_le finiteB.1 finiteC.1
  have high := Vec3.le_max finiteB.2 finiteC.2
  exact ⟨⟨low.1, high.1⟩, low.2, high.2⟩

theorem union_within (first : b.Within d) (second : c.Within d) : (b.union c).Within d :=
  ⟨Vec3.le_min first.1 second.1, Vec3.max_le first.2 second.2⟩

theorem isHull_foldl (boxes : List Bounds) (finiteB : b.IsFinite)
    (finite : ∀ c ∈ boxes, c.IsFinite) :
    (boxes.foldl union b).IsFinite ∧ IsHull (boxes.foldl union b) (b :: boxes) := by
  induction boxes generalizing b with
  | nil =>
    refine ⟨finiteB, ?_, fun d all => all b (by simp)⟩
    intro c member
    rw [List.mem_singleton.1 member]
    exact .refl finiteB
  | cons c boxes ih =>
    have finiteC := finite c (by simp)
    have finiteU := union_isFinite finiteB finiteC
    obtain ⟨whole, around, least⟩ := ih finiteU fun d member => finite d (by simp [member])
    obtain ⟨first, second⟩ := within_union finiteB finiteC
    have start := around _ (List.mem_cons_self ..)
    refine ⟨whole, ?_, ?_⟩
    · intro d member
      rcases List.mem_cons.1 member with rfl | member
      · exact first.trans finiteB finiteU whole start
      · rcases List.mem_cons.1 member with rfl | member
        · exact second.trans finiteC finiteU whole start
        · exact around d (by simp [member])
    · intro d all
      refine least d fun e member => ?_
      rcases List.mem_cons.1 member with rfl | member
      · exact union_within (all b (by simp)) (all c (by simp))
      · exact all e (by simp [member])

theorem IsHull.within {boxes boxes' : List Bounds} (hull : b.IsHull boxes)
    (hull' : c.IsHull boxes') (sub : boxes ⊆ boxes') : b.Within c :=
  hull.2 c fun d member => hull'.1 d (sub member)

/-! ## The box around points -/

def point (p : Vec3) : Bounds :=
  ⟨p, p⟩

theorem foldl_includePoint_eq (points : List Vec3) (b : Bounds) :
    points.foldl includePoint b = (points.map point).foldl union b := by
  rw [List.foldl_map]
  rfl

theorem ofPoints_isHull {points : List Vec3} (nonempty : points ≠ [])
    (finite : ∀ p ∈ points, p.isFinite) :
    ∃ b, ofPoints points = some b ∧ b.IsFinite ∧ b.IsHull (points.map point) := by
  cases points with
  | nil => contradiction
  | cons p points =>
    have first := finite p (by simp)
    have rest : ∀ c ∈ points.map point, c.IsFinite := by
      intro c member
      obtain ⟨q, inside, rfl⟩ := List.mem_map.1 member
      have := finite q (by simp [inside])
      exact ⟨this, this⟩
    refine ⟨_, rfl, ?_⟩
    rw [foldl_includePoint_eq]
    exact isHull_foldl (b := point p) (points.map point) ⟨first, first⟩ rest

theorem mem_corners {b : Bounds} {c : Vec3} (x : c.x = b.min.x ∨ c.x = b.max.x)
    (y : c.y = b.min.y ∨ c.y = b.max.y) (z : c.z = b.min.z ∨ c.z = b.max.z) : c ∈ b.corners := by
  obtain ⟨cx, cy, cz⟩ := c
  dsimp only at x y z
  rcases x with rfl | rfl <;> rcases y with rfl | rfl <;> rcases z with rfl | rfl <;>
    simp [corners]

end Bounds

end

/-! ## The images of a box -/

namespace Matrix

def along (w z y x : Float32) (p : Vec3) : Float32 :=
  w + (z * p.z + (y * p.y + x * p.x))

variable {w z y x : Float32} {b : Bounds} {m : Matrix} {p : Vec3}

theorem along_finite (finite : (along w z y x p).isFinite) :
    (z * p.z).isFinite ∧ (y * p.y).isFinite ∧ (x * p.x).isFinite := by
  obtain ⟨-, inner⟩ := isFinite_of_add_single finite
  obtain ⟨atZ, inner⟩ := isFinite_of_add_single inner
  obtain ⟨atY, atX⟩ := isFinite_of_add_single inner
  exact ⟨atZ, atY, atX⟩

theorem along_le {q : Vec3} (finiteP : (along w z y x p).isFinite)
    (finiteQ : (along w z y x q).isFinite) (atZ : z * p.z ≤ z * q.z) (atY : y * p.y ≤ y * q.y)
    (atX : x * p.x ≤ x * q.x) : along w z y x p ≤ along w z y x q := by
  obtain ⟨finiteW, innerP⟩ := isFinite_of_add_single finiteP
  obtain ⟨-, innerQ⟩ := isFinite_of_add_single finiteQ
  have sum := add_le_add_single (isFinite_of_add_single innerP).2 (isFinite_of_add_single innerQ).2
    atY atX
  exact add_le_add_single finiteP finiteQ (le_refl_single finiteW)
    (add_le_add_single innerP innerQ atZ sum)

theorem along_between (corners : ∀ c ∈ b.corners, (along w z y x c).isFinite)
    (finite : (along w z y x p).isFinite) (contains : b.Contains p) :
    ∃ c ∈ b.corners, ∃ d ∈ b.corners,
      along w z y x c ≤ along w z y x p ∧ along w z y x p ≤ along w z y x d := by
  obtain ⟨⟨lowX, lowY, lowZ⟩, highX, highY, highZ⟩ := contains
  obtain ⟨atZ, atY, atX⟩ := along_finite finite
  obtain ⟨minZ, minY, minX⟩ := along_finite (corners b.min (Bounds.mem_corners (.inl rfl) (.inl rfl)
    (.inl rfl)))
  obtain ⟨maxZ, maxY, maxX⟩ := along_finite (corners b.max (Bounds.mem_corners (.inr rfl) (.inr rfl)
    (.inr rfl)))
  -- The sign of each constant says which end of the range gives the least product.
  have side {k t lo hi : Float32}
      (order : k * lo ≤ k * t ∧ k * t ≤ k * hi ∨ k * hi ≤ k * t ∧ k * t ≤ k * lo) :
      ∃ s s', (s = lo ∨ s = hi) ∧ (s' = lo ∨ s' = hi) ∧ k * s ≤ k * t ∧ k * t ≤ k * s' := by
    rcases order with ⟨low, high⟩ | ⟨low, high⟩
    · exact ⟨lo, hi, .inl rfl, .inr rfl, low, high⟩
    · exact ⟨hi, lo, .inr rfl, .inl rfl, low, high⟩
  obtain ⟨cx, dx, cornerX, cornerX', belowX, aboveX⟩ :=
    side (mul_between_single atX minX maxX lowX highX)
  obtain ⟨cy, dy, cornerY, cornerY', belowY, aboveY⟩ :=
    side (mul_between_single atY minY maxY lowY highY)
  obtain ⟨cz, dz, cornerZ, cornerZ', belowZ, aboveZ⟩ :=
    side (mul_between_single atZ minZ maxZ lowZ highZ)
  have first : ⟨cx, cy, cz⟩ ∈ b.corners := Bounds.mem_corners cornerX cornerY cornerZ
  have second : ⟨dx, dy, dz⟩ ∈ b.corners := Bounds.mem_corners cornerX' cornerY' cornerZ'
  exact ⟨_, first, _, second, along_le (corners _ first) finite belowZ belowY belowX,
    along_le finite (corners _ second) aboveZ aboveY aboveX⟩

theorem along_within {lo hi : Float32} (finiteLo : lo.isFinite) (finiteHi : hi.isFinite)
    (corners : ∀ c ∈ b.corners, (along w z y x c).isFinite)
    (bounds : ∀ c ∈ b.corners, lo ≤ along w z y x c ∧ along w z y x c ≤ hi)
    (finite : (along w z y x p).isFinite) (contains : b.Contains p) :
    lo ≤ along w z y x p ∧ along w z y x p ≤ hi := by
  obtain ⟨c, low, d, high, below, above⟩ := along_between corners finite contains
  exact ⟨le_trans_single finiteLo (corners c low) finite (bounds c low).1 below,
    le_trans_single finite (corners d high) finiteHi above (bounds d high).2⟩

end Matrix

namespace Bounds

variable {b : Bounds} {m : Matrix} {p : Vec3}

theorem transformed_isHull (corners : ∀ c ∈ b.corners, (m.transformPoint c).isFinite) :
    (b.transformed m).IsFinite ∧
      (b.transformed m).IsHull ((b.corners.map m.transformPoint).map point) := by
  have images : ∀ q ∈ b.corners.map m.transformPoint, q.isFinite := by
    intro q member
    obtain ⟨c, corner, rfl⟩ := List.mem_map.1 member
    exact corners c corner
  obtain ⟨t, is, hull⟩ := ofPoints_isHull (by simp [Bounds.corners]) images
  have same : b.transformed m = t := by rw [transformed, is, Option.getD_some]
  rwa [same]

/-- The box around the images of the corners holds the images of all points of a box. -/
theorem transformed_contains (corners : ∀ c ∈ b.corners, (m.transformPoint c).isFinite)
    (finite : (m.transformPoint p).isFinite) (contains : b.Contains p) :
    (b.transformed m).Contains (m.transformPoint p) := by
  obtain ⟨finiteT, around, -⟩ := transformed_isHull corners
  generalize b.transformed m = t at finiteT around
  have each : ∀ c ∈ b.corners, t.Contains (m.transformPoint c) := fun c corner =>
    around (point (m.transformPoint c)) (List.mem_map_of_mem (List.mem_map_of_mem corner))
  obtain ⟨minX, minY, minZ⟩ := t.min.isFinite_iff.1 finiteT.1
  obtain ⟨maxX, maxY, maxZ⟩ := t.max.isFinite_iff.1 finiteT.2
  have parts (q : Vec3) := (m.transformPoint q).isFinite_iff
  obtain ⟨finiteX, finiteY, finiteZ⟩ := (parts p).1 finite
  have x := Matrix.along_within minX maxX (fun c corner => ((parts c).1 (corners c corner)).1)
    (fun c corner => ⟨(each c corner).1.1, (each c corner).2.1⟩) finiteX contains
  have y := Matrix.along_within minY maxY (fun c corner => ((parts c).1 (corners c corner)).2.1)
    (fun c corner => ⟨(each c corner).1.2.1, (each c corner).2.2.1⟩) finiteY contains
  have z := Matrix.along_within minZ maxZ (fun c corner => ((parts c).1 (corners c corner)).2.2)
    (fun c corner => ⟨(each c corner).1.2.2, (each c corner).2.2.2⟩) finiteZ contains
  exact ⟨⟨x.1, y.1, z.1⟩, x.2, y.2, z.2⟩

end Bounds

/-! ## Parts in their places -/

/-- The positions of a part and the corners of its box are finite numbers, as are their images. -/
def Part.FiniteUnder (world : Matrix) (p : Part) : Prop :=
  (∀ q ∈ p.mesh.positions, q.isFinite ∧ (world.transformPoint q).isFinite) ∧
    ∀ box ∈ p.mesh.bounds, ∀ c ∈ box.corners, (world.transformPoint c).isFinite

instance (world : Matrix) (p : Part) : Decidable (p.FiniteUnder world) :=
  inferInstanceAs (Decidable (_ ∧ _))

def boxesOf (placed : List (Matrix × Part)) : List Bounds :=
  placed.filterMap fun (world, p) => p.mesh.bounds.map (·.transformed world)

def boxOf (placed : List (Matrix × Part)) : Option Bounds :=
  match boxesOf placed with
  | [] => none
  | b :: rest => some (rest.foldl Bounds.union b)

section

variable {placed placed' : List (Matrix × Part)} {world : Matrix} {part : Part}

theorem Part.FiniteUnder.contains (finite : part.FiniteUnder world)
    (nonempty : part.mesh.positions ≠ []) :
    ∃ box, part.mesh.bounds = some box ∧ (box.transformed world).IsFinite ∧
      ∀ p ∈ part.mesh.positions, (box.transformed world).Contains (world.transformPoint p) := by
  obtain ⟨box, is, -, around, -⟩ :=
    Bounds.ofPoints_isHull nonempty fun q member => (finite.1 q member).1
  have corners := finite.2 box is
  refine ⟨box, is, (Bounds.transformed_isHull corners).1, fun p member => ?_⟩
  exact Bounds.transformed_contains corners (finite.1 p member).2
    (around (.point p) (List.mem_map_of_mem member))

theorem mem_boxesOf {b : Bounds} : b ∈ boxesOf placed ↔
    ∃ part ∈ placed, ∃ box, part.2.mesh.bounds = some box ∧ box.transformed part.1 = b := by
  simp [boxesOf, List.mem_filterMap]

theorem boxesOf_isFinite (finite : ∀ part ∈ placed, part.2.FiniteUnder part.1) :
    ∀ b ∈ boxesOf placed, b.IsFinite := by
  intro b member
  obtain ⟨part, inside, box, is, rfl⟩ := mem_boxesOf.1 member
  exact (Bounds.transformed_isHull ((finite part inside).2 box is)).1

theorem boxOf_isHull (nonempty : boxesOf placed ≠ [])
    (finite : ∀ part ∈ placed, part.2.FiniteUnder part.1) :
    ∃ b, boxOf placed = some b ∧ b.IsFinite ∧ b.IsHull (boxesOf placed) := by
  have each := boxesOf_isFinite finite
  rw [boxOf]
  cases boxes : boxesOf placed with
  | nil => contradiction
  | cons b rest =>
    rw [boxes] at each
    exact ⟨_, rfl, Bounds.isHull_foldl rest (each b (by simp)) fun c member =>
      each c (by simp [member])⟩

end

/-! ## Ways to place nodes

The sines and cosines of a rotation are the platform's, and nothing is known of them here. What
follows holds of every way `place` to make a matrix of the place of a node.
-/

namespace ModelNode

variable {place : Transform → Matrix}

mutual

/-- The parts of a tree with their matrices in the world, a node before its children. -/
def worldPartsBy (place : Transform → Matrix) (parent : Matrix) : ModelNode → List (Matrix × Part)
  | ⟨_, transform, parts, children⟩ =>
    let world := parent.mul (place transform)
    parts.map (world, ·) ++ worldPartsByAll place world children

def worldPartsByAll (place : Transform → Matrix) (parent : Matrix) :
    List ModelNode → List (Matrix × Part)
  | [] => []
  | n :: rest => n.worldPartsBy place parent ++ worldPartsByAll place parent rest

end

mutual

theorem worldPartsBy_matrix (parent : Matrix) (n : ModelNode) :
    n.worldPartsBy Transform.matrix parent = n.worldParts parent := by
  obtain ⟨name, transform, parts, children⟩ := n
  rw [worldPartsBy, worldParts]
  exact congrArg _ (worldPartsByAll_matrix _ children)

theorem worldPartsByAll_matrix (parent : Matrix) (ns : List ModelNode) :
    worldPartsByAll Transform.matrix parent ns = worldPartsAll parent ns := by
  cases ns with
  | nil => rfl
  | cons n rest =>
    rw [worldPartsByAll, worldPartsAll, worldPartsBy_matrix parent n,
      worldPartsByAll_matrix parent rest]

end

/-- The same trees, up to their order and that of the parts and of the children of every node. -/
inductive Rearranged : List ModelNode → List ModelNode → Prop
  | nil : Rearranged [] []
  | cons {name transform parts parts' children children' rest rest'} :
      List.Perm parts parts' → Rearranged children children' → Rearranged rest rest' →
      Rearranged (⟨name, transform, parts, children⟩ :: rest)
        (⟨name, transform, parts', children'⟩ :: rest')
  | swap (m n : ModelNode) (rest : List ModelNode) :
      Rearranged (m :: n :: rest) (n :: m :: rest)
  | trans {ns ns' ns''} : Rearranged ns ns' → Rearranged ns' ns'' → Rearranged ns ns''

theorem Rearranged.worldParts {ns ns' : List ModelNode} (same : Rearranged ns ns')
    (parent : Matrix) :
    (worldPartsByAll place parent ns).Perm (worldPartsByAll place parent ns') := by
  induction same generalizing parent with
  | nil => exact .refl _
  | cons parts _ _ children rest =>
    simp only [worldPartsByAll, worldPartsBy]
    exact ((parts.map _).append (children _)).append (rest parent)
  | swap =>
    simp only [worldPartsByAll, ← List.append_assoc]
    exact List.perm_append_comm.append_right _
  | trans _ _ first second => exact (first parent).trans (second parent)

end ModelNode

namespace Model

def worldPartsBy (place : Transform → Matrix) (m : Model) : List (Matrix × Part) :=
  ModelNode.worldPartsByAll place .identity m.roots

def boundsBy (place : Transform → Matrix) (m : Model) : Option Bounds :=
  boxOf (m.worldPartsBy place)

theorem worldPartsBy_matrix (m : Model) : m.worldPartsBy Transform.matrix = m.worldParts :=
  ModelNode.worldPartsByAll_matrix .identity m.roots

theorem boundsBy_matrix (m : Model) : m.boundsBy Transform.matrix = m.bounds := by
  rw [boundsBy, worldPartsBy_matrix]
  rfl

/-- While all numbers are finite, a model with a vertex has a box, the least box around the boxes
of its parts in the world, which holds every vertex in the world and stays the same for any order of
nodes and parts. The matrix of a node is `place` of its place; with that of the platform the parts
and the box are those of the model. -/
theorem bounds_enclose (place : Transform → Matrix) {m : Model}
    (geometry : ∃ part ∈ m.worldPartsBy place, part.2.mesh.positions ≠ [])
    (finite : ∀ part ∈ m.worldPartsBy place, part.2.FiniteUnder part.1) :
    (m.worldPartsBy Transform.matrix = m.worldParts ∧ m.boundsBy Transform.matrix = m.bounds) ∧
      ∃ b, m.boundsBy place = some b ∧ b.IsHull (boxesOf (m.worldPartsBy place)) ∧
        (∀ part ∈ m.worldPartsBy place, ∀ p ∈ part.2.mesh.positions,
          b.Contains (part.1.transformPoint p)) ∧
        ∀ m' : Model, ModelNode.Rearranged m.roots m'.roots →
          ∃ b', m'.boundsBy place = some b' ∧ b.Within b' ∧ b'.Within b := by
  refine ⟨⟨m.worldPartsBy_matrix, m.boundsBy_matrix⟩, ?_⟩
  have nonempty {placed : List (Matrix × Part)} (same : (m.worldPartsBy place).Perm placed) :
      boxesOf placed ≠ [] := by
    obtain ⟨part, inside, vertices⟩ := geometry
    obtain ⟨box, is, -⟩ := (finite part inside).contains vertices
    exact List.ne_nil_of_mem (mem_boxesOf.2 ⟨part, same.mem_iff.1 inside, box, is, rfl⟩)
  obtain ⟨b, is, finiteB, hull⟩ := boxOf_isHull (nonempty (.refl _)) finite
  refine ⟨b, is, hull, fun part inside p member => ?_, fun m' rearranged => ?_⟩
  · obtain ⟨box, own, finiteT, contains⟩ :=
      (finite part inside).contains (List.ne_nil_of_mem member)
    exact (contains p member).mono ((finite part inside).1 p member).2 finiteT finiteB
      (hull.1 _ (mem_boxesOf.2 ⟨part, inside, box, own, rfl⟩))
  · have same : (m.worldPartsBy place).Perm (m'.worldPartsBy place) :=
      rearranged.worldParts .identity
    obtain ⟨b', is', -, hull'⟩ := boxOf_isHull (nonempty same) fun part inside =>
      finite part (same.mem_iff.2 inside)
    -- The boxes are the same up to order, so each hull is within the other.
    have boxes : (boxesOf (m.worldPartsBy place)).Perm (boxesOf (m'.worldPartsBy place)) :=
      same.filterMap _
    exact ⟨b', is', hull.within hull' boxes.subset, hull'.within hull boxes.symm.subset⟩

def mirroredNeedle : Model :=
  let needle : Mesh := ⟨#[1, 2, 3, 0, 0, 1, 1, 1, 1, -1, 4, 0, 0, 0, 1, 1, 1, 1], #[]⟩
  let paint : Material := ⟨"paint", .white, none, none⟩
  let inner : ModelNode := ⟨"inner", ⟨.zero, .zero, ⟨-2, 1, 1⟩⟩, [⟨needle, paint⟩], []⟩
  ⟨1, [⟨"outer", ⟨⟨5, 0, 0⟩, .zero, .one⟩, [], [inner]⟩]⟩

def unturned (t : Transform) : Matrix :=
  .ofParts t.scale ⟨0, 0, 0, 1⟩ t.translation

set_option maxRecDepth 4000 in
theorem bounds_enclose_mirroredNeedle :
    ∃ b, mirroredNeedle.boundsBy unturned = some b ∧
      b.IsHull (boxesOf (mirroredNeedle.worldPartsBy unturned)) ∧
      ∀ part ∈ mirroredNeedle.worldPartsBy unturned, ∀ p ∈ part.2.mesh.positions,
        b.Contains (part.1.transformPoint p) := by
  obtain ⟨-, b, is, hull, contains, -⟩ :=
    bounds_enclose unturned (m := mirroredNeedle) (by decide) (by decide)
  exact ⟨b, is, hull, contains⟩

end Model

end SceneScript
