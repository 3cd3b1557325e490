import SceneScript.Proofs.Geometry.SoundShapes
import SceneScript.Proofs.VertexBudget

/-!
# Valid primitives

A call that makes a primitive takes sizes that are positive and finite, and rounds them to single
precision. A rounded size is finite, but it is zero if it was too small. Nothing is wrong with the
mesh, given accurate functions, unless it is of a cone whose slope has no square, or of more
vertices than 32 bits count (`Building.primitive_valid_iff`).
-/

namespace SceneScript

open Number Run

namespace Building

variable {limits : Limits} {s : RunState} {v : Value} {x : Float32} {most : ℕ}

/-! ## Requests -/

def Size (v : Value) (x : Float32) : Prop :=
  ∃ y, v.asFloat = .ok y ∧ y.isFinite ∧ 0 < value y.toModel.unpack ∧ x = narrow y ∧ x.isFinite

def Count (most : ℕ) (v : Value) (n : UInt32) : Prop :=
  ∃ k, v.asInt = .ok k ∧ 3 ≤ k.toInt ∧ k.toInt ≤ most ∧ n = .ofNat k.toInt.toNat

/-- The shape that a call asks for. -/
inductive Requests (most : ℕ) : String → List Value → Shape → Prop
  | box {w h d : Value} {width height depth : Float32} (ofWidth : Size w width)
      (ofHeight : Size h height) (ofDepth : Size d depth) :
      Requests most "box" [w, h, d] (.box width height depth)
  | sphere {r n : Value} {radius : Float32} {divisions : UInt32} (ofRadius : Size r radius)
      (counted : Count most n divisions) : Requests most "sphere" [r, n] (.sphere radius divisions)
  | cylinder {r h n : Value} {radius height : Float32} {sectors : UInt32} (ofRadius : Size r radius)
      (ofHeight : Size h height) (counted : Count most n sectors) :
      Requests most "cylinder" [r, h, n] (.cylinder radius height sectors)
  | cone {r h n : Value} {radius height : Float32} {sectors : UInt32} (ofRadius : Size r radius)
      (ofHeight : Size h height) (counted : Count most n sectors) :
      Requests most "cone" [r, h, n] (.cone radius height sectors)
  | plane {w d : Value} {width depth : Float32} (ofWidth : Size w width)
      (ofDepth : Size d depth) : Requests most "plane" [w, d] (.plane width depth)

namespace Requests

variable {name : String} {args : List Value} {shape : Shape}

theorem divided (requests : Requests most name args shape) (range : most < 2 ^ 32) :
    shape.Divided := by
  have counted {v : Value} {n : UInt32} (count : Count most v n) : 3 ≤ n.toNat := by
    obtain ⟨k, -, least, within, rfl⟩ := count
    have small : k.toInt.toNat < 2 ^ 32 := by omega
    rw [UInt32.toNat_ofNat_of_lt' small]
    omega
  cases requests with
  | box | plane => trivial
  | sphere _ count | cylinder _ _ count | cone _ _ count => exact counted count

theorem size (requests : Requests most name args shape) (mem : x ∈ shape.sizes) :
    ∃ v ∈ args, Size v x := by
  cases requests with
  | box width height depth =>
    simp only [Shape.sizes, List.mem_cons, List.not_mem_nil, or_false] at mem
    rcases mem with rfl | rfl | rfl
    · exact ⟨_, by simp, width⟩
    · exact ⟨_, by simp, height⟩
    · exact ⟨_, by simp, depth⟩
  | sphere radius =>
    cases List.mem_singleton.1 mem
    exact ⟨_, by simp, radius⟩
  | cylinder radius height | cone radius height =>
    simp only [Shape.sizes, List.mem_cons, List.not_mem_nil, or_false] at mem
    rcases mem with rfl | rfl
    · exact ⟨_, by simp, radius⟩
    · exact ⟨_, by simp, height⟩
  | plane width depth =>
    simp only [Shape.sizes, List.mem_cons, List.not_mem_nil, or_false] at mem
    rcases mem with rfl | rfl
    · exact ⟨_, by simp, width⟩
    · exact ⟨_, by simp, depth⟩

theorem sized {color : Vec3} (requests : Requests most name args shape) :
    ∃ count, Primitive.Sized most (shape.drawn color) count := by
  cases requests with
  | box => exact ⟨_, .box ..⟩
  | plane => exact ⟨_, .plane ..⟩
  | sphere _ count =>
    obtain ⟨k, -, least, within, rfl⟩ := count
    exact ⟨_, .sphere _ _ (by omega) (by omega)⟩
  | cylinder _ _ count =>
    obtain ⟨k, -, least, within, rfl⟩ := count
    exact ⟨_, .cylinder _ _ _ (by omega) (by omega)⟩
  | cone _ _ count =>
    obtain ⟨k, -, least, within, rfl⟩ := count
    exact ⟨_, .cone _ _ _ (by omega) (by omega)⟩

theorem isFinite (requests : Requests most name args shape) (mem : x ∈ shape.sizes) :
    x.isFinite := by
  obtain ⟨v, -, y, -, -, -, -, finite⟩ := requests.size mem
  exact finite

end Requests

/-! ## Calls -/

def Gives {α : Type} (limits : Limits) (s : RunState) (run : Run α) (holds : α → Prop) : Prop :=
  Ends limits s run (fun a s' => s'.building.meshes = s.building.meshes ∧ holds a) fun _ _ => True

theorem Gives.bind {α β : Type} {run : Run α} {next : α → Run β} {holds : α → Prop}
    {holds' : β → Prop} (first : Gives limits s run holds)
    (rest : ∀ a s', holds a → Gives limits s' (next a) holds') :
    Gives limits s (run >>= next) holds' := by
  refine Ends.bind first fun a s' ⟨same, holds⟩ => ?_
  have ends := rest a s' holds
  rwa [Gives, same] at ends

theorem gives_size (what : Dimension) (v : Value) :
    Gives limits s (dimension what v) (Size v) := by
  apply Ends.lift_bind (fun _ _ => trivial)
  intro y is
  apply Ends.guard trivial
  intro valid
  simp only [Bool.or_eq_true, Bool.not_eq_true', decide_eq_true_eq, not_or, Bool.not_eq_false]
    at valid
  obtain ⟨⟨finite, narrowed⟩, positive⟩ := valid
  exact .pure ⟨rfl, y, is, finite, value_pos finite positive, rfl, narrowed⟩

theorem gives_count (v : Value) : Gives limits s (divisions v) (Count limits.maxDivisions v) := by
  apply Ends.lift_bind (fun _ _ => trivial)
  intro k is
  apply Ends.limits_bind
  apply Ends.guard trivial
  intro within
  exact .pure ⟨rfl, k, is, by omega, by omega, rfl⟩

theorem gives_reserved {count : ℕ} {mesh : Mesh} {holds : Mesh → Prop} (is : holds mesh) :
    Gives limits s (reserve count >>= fun _ => pure mesh) holds := by
  have reserved : Gives limits s (reserve count) fun _ => True :=
    .building_bind (.limits_bind (.guard trivial fun _ => .modifyBuilding ⟨rfl, trivial⟩))
  exact reserved.bind fun _ _ _ => .pure ⟨rfl, is⟩

theorem gives_requested (name : String) (args : List Value) :
    Gives limits s (generate name args) fun mesh =>
      ∃ shape, Requests limits.maxDivisions name args shape ∧ mesh = shape.drawn uncolored := by
  unfold generate
  split
  · refine .bind (gives_size _ _) fun width _ w => .bind (gives_size _ _) fun height _ h => ?_
    exact .bind (gives_size _ _) fun depth _ d => gives_reserved ⟨_, .box w h d, rfl⟩
  · refine .bind (gives_size _ _) fun radius _ r => .bind (gives_count _) fun n _ count => ?_
    exact gives_reserved ⟨_, .sphere r count, rfl⟩
  · refine .bind (gives_size _ _) fun radius _ r => .bind (gives_size _ _) fun height _ h => ?_
    exact .bind (gives_count _) fun n _ count => gives_reserved ⟨_, .cylinder r h count, rfl⟩
  · refine .bind (gives_size _ _) fun radius _ r => .bind (gives_size _ _) fun height _ h => ?_
    exact .bind (gives_count _) fun n _ count => gives_reserved ⟨_, .cone r h count, rfl⟩
  · refine .bind (gives_size _ _) fun width _ w => .bind (gives_size _ _) fun depth _ d => ?_
    exact gives_reserved ⟨_, .plane w d, rfl⟩
  · trivial

theorem ends_requested (name : String) (args : List Value) :
    Ends limits s (primitive name args) (fun _ s' => ∃ shape,
      Requests limits.maxDivisions name args shape ∧
        s'.building.meshes = s.building.meshes.push (shape.drawn uncolored)) fun _ _ => True := by
  refine ends_ensureOpen_bind trivial fun _ => .limits_bind (.building_bind ?_)
  apply Ends.guard trivial
  intro _
  apply Ends.bind (gives_requested name args)
  rintro _ s' ⟨same, shape, requests, rfl⟩
  exact .building_bind (.modifyBuilding_bind (.pure ⟨shape, requests, by rw [same]⟩))

theorem primitive_run {name : String} {args : List Value} {mesh : Mesh} {s' : RunState}
    (isOpen : s.building.ended = false) (room : s.building.meshes.size < limits.maxParts)
    (made : generate name args limits s = .ok mesh s') :
    primitive name args limits s = .ok (.int (.ofNat s'.building.meshes.size))
      { s' with building := { s'.building with meshes := s'.building.meshes.push mesh } } := by
  rw [primitive, bind_apply, ensureOpen_run isOpen]
  change (if s.building.meshes.size ≥ limits.maxParts then _ else _ : Run Value) limits s = _
  rw [if_neg (Nat.not_le.2 room), bind_apply, made]
  rfl

theorem cone_run {x y : Float}
    (radius : (!x.isFinite || !(narrow x).isFinite || x ≤ 0) = false)
    (height : (!y.isFinite || !(narrow y).isFinite || y ≤ 0) = false) :
    ∃ s, primitive "cone" [.float x, .float y, .int 8] {} (.start 0) = .ok (.int 0) s ∧
      s.building.meshes = #[Primitive.cone (narrow x) (narrow y) 8 uncolored] := by
  have made : generate "cone" [.float x, .float y, .int 8] {} (.start 0) =
      .ok (Primitive.cone (narrow x) (narrow y) 8 uncolored) (RunState.counting (.start 0) 33) := by
    have sectors : divisions (.int 8) {} (.start 0) = .ok 8 (.start 0) :=
      divisions_run (by decide) (by decide)
    have predicted : Primitive.coneVertices 8 = 33 := by decide
    simp only [generate, bind_apply, dimension_run radius, dimension_run height, sectors, predicted,
      reserve_run]
    rfl
  exact ⟨_, primitive_run rfl (by decide) made, rfl⟩

/-- A call that makes a primitive adds the shape that it asks for, of sizes that are its arguments
rounded to single precision. A size is positive if its argument is more than half of the least
number there is. With accurate functions, which those of the platform should be
(`Shape.mesh_platform`), nothing is wrong with the mesh if its vertices are counted in 32 bits and
the slope of a cone has a square. Without that something is, whatever the functions give. So nothing
is wrong if not too many divisions are allowed and the sizes are not too different. -/
theorem primitive_valid_iff {limits : Limits} (range : limits.maxDivisions < 2 ^ 32) {name : String}
    {args : List Value} {s s' : RunState} {v : Value}
    (made : primitive name args limits s = .ok v s') :
    ∃ shape, Requests limits.maxDivisions name args shape ∧
      s'.building.meshes = s.building.meshes.push (shape.drawn uncolored) ∧
      (∀ x ∈ shape.sizes, x.isFinite ∧ ∃ a ∈ args, ∃ y, a.asFloat = .ok y ∧ y.isFinite ∧
        0 < value y.toModel.unpack ∧ x = narrow y ∧
        (0 < x ↔ 1 / 2 ^ 150 < value y.toModel.unpack)) ∧
      (∀ t : Trigonometry, t.Accurate → ((shape.mesh t uncolored).issues = [] ↔
        (shape.drawn uncolored).vertexCount < 2 ^ 32 ∧ shape.SlopeFits)) ∧
      ((shape.drawn uncolored).issues = [] →
        (shape.drawn uncolored).vertexCount < 2 ^ 32 ∧ shape.SlopeFits) ∧
      (limits.maxDivisions ≤ 92680 → (shape.drawn uncolored).vertexCount < 2 ^ 32) ∧
      (shape.Proportioned → shape.SlopeFits) := by
  obtain ⟨shape, requests, pushed⟩ := (ends_requested name args).of_ok made
  have divided := requests.divided range
  have finite : ∀ x ∈ shape.sizes, x.isFinite := fun x => requests.isFinite
  refine ⟨shape, requests, pushed, ?_, ?_, Shape.fits_of_valid divided, ?_, ?_⟩
  · intro x mem
    obtain ⟨a, isArg, y, is, finite, positive, rfl, narrowed⟩ := requests.size mem
    exact ⟨narrowed, a, isArg, y, is, finite, positive, rfl, narrow_pos_iff finite narrowed⟩
  · intro t accurate
    exact Shape.issues_iff accurate divided finite rfl
  · intro few
    obtain ⟨count, sized⟩ := requests.sized
    exact sized.fits (.of_small few)
  · exact Shape.slopeFits_of_proportioned finite

/-- A unit cone. -/
theorem primitive_valid_unit : ∃ s, primitive "cone" [.float 1, .float 1, .int 8] {} (.start 0) =
      .ok (.int 0) s ∧ Trigonometry.rounded.Accurate ∧
    (Shape.mesh .rounded uncolored (.cone 1 1 8)).issues = [] := by
  obtain ⟨s, made, -⟩ := cone_run (x := 1) (y := 1) (by decide +kernel) (by decide +kernel)
  obtain ⟨shape, requests, -, -, valid, -, count, -⟩ := primitive_valid_iff (by decide) made
  have fits := count (by decide)
  have one : narrow 1 = 1 := by decide +kernel
  generalize isName : "cone" = name at requests
  generalize isArgs : [Value.float 1, .float 1, .int 8] = args at requests
  cases requests with
  | box | plane | sphere | cylinder => exact absurd isName (by decide)
  | cone radius height counted =>
    obtain ⟨x, is, -, -, rfl, -⟩ := radius
    obtain ⟨y, is', -, -, rfl, -⟩ := height
    obtain ⟨n, isCount, -, -, rfl⟩ := counted
    cases isArgs
    cases is
    cases is'
    cases isCount
    rw [one] at valid fits
    refine ⟨s, made, Trigonometry.rounded_accurate, ?_⟩
    have slope : ((1 : Float32) / 1 * (1 / 1)).isFinite = true := by decide +kernel
    exact (valid _ Trigonometry.rounded_accurate).2 ⟨fits, slope⟩

/-- Sizes so small that they are rounded to zero have no slope, and one size that is much greater
than the other has a slope without a square. -/
theorem primitive_invalid :
    (∃ s, primitive "cone" [.float 1e-50, .float 1e-50, .int 8] {} (.start 0) = .ok (.int 0) s ∧
      s.building.meshes = #[Primitive.cone 0 0 8 uncolored] ∧
      (Primitive.cone 0 0 8 uncolored).issues ≠ []) ∧
    ∃ s, primitive "cone" [.float 1e20, .float 1, .int 8] {} (.start 0) = .ok (.int 0) s ∧
      s.building.meshes = #[Primitive.cone 1e20 1 8 uncolored] ∧
      (Primitive.cone 1e20 1 8 uncolored).issues ≠ [] := by
  have steep {x y : Float32} (steep : ¬(x / y * (x / y)).isFinite) :
      (Primitive.cone x y 8 uncolored).issues ≠ [] := by
    intro valid
    have divided : Shape.Divided (.cone x y 8) := show 3 ≤ 8 by decide
    exact steep (Shape.fits_of_valid divided valid).2
  constructor
  · obtain ⟨s, made, meshes⟩ :=
      cone_run (x := 1e-50) (y := 1e-50) (by decide +kernel) (by decide +kernel)
    have zero : narrow 1e-50 = 0 := by decide +kernel
    rw [zero] at meshes
    exact ⟨s, made, meshes, steep (by decide +kernel)⟩
  · obtain ⟨s, made, meshes⟩ :=
      cone_run (x := 1e20) (y := 1) (by decide +kernel) (by decide +kernel)
    have large : narrow 1e20 = 1e20 := by decide +kernel
    have one : narrow 1 = 1 := by decide +kernel
    rw [large, one] at meshes
    exact ⟨s, made, meshes, steep (by decide +kernel)⟩

end Building

end SceneScript
