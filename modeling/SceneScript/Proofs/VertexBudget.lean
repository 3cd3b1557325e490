import SceneScript.Proofs.Machine.Edits
import SceneScript.Proofs.PrimitiveMeshes

/-!
# The budget of vertices

The vertices of a primitive are reserved before its mesh is made, and the number that is reserved is
counted in 32 bits (`Building.generate_reserves`). A sphere of more than 92680 divisions can have
more vertices than 32 bits count. Where that many divisions are allowed, it is only the remainder
that has to be within the limit (`Building.generate_wraps`).
-/

namespace SceneScript

open Run

def RunState.counting (s : RunState) (count : Nat) : RunState :=
  { s with building := { s.building with vertices := s.building.vertices + count } }

theorem Primitive.Sized.drawn {divisions count : Nat} {mesh : Mesh}
    (sized : Sized divisions mesh count) (fit : CountsFit divisions) :
    ∃ entries, Drawn mesh count entries := by
  cases sized with
  | box width height depth color => exact ⟨_, .box width height depth color⟩
  | plane width depth color => exact ⟨_, .plane width depth color⟩
  | @sphere radius n color least most =>
    obtain ⟨fits, -⟩ := fit n least most
    exact ⟨_, .sphere radius color least fits⟩
  | @cylinder radius height n color least most =>
    obtain ⟨-, fits, -⟩ := fit n least most
    exact ⟨_, .cylinder radius height color least fits⟩
  | @cone radius height n color least most =>
    obtain ⟨-, -, fits⟩ := fit n least most
    exact ⟨_, .cone radius height color least fits⟩

namespace Building

variable {limits : Limits} {s : RunState} {α : Type} {run : Run α} {passes : α → Prop}

/-! ## Checks -/

def Checks (limits : Limits) (s : RunState) (run : Run α) (passes : α → Prop) : Prop :=
  Ends limits s run (fun a s' => s' = s ∧ passes a)
    fun cause s' => s' = s ∧ ∀ limit, cause ≠ .vertexLimit limit

theorem checks_dimension (what : Dimension) (v : Value) :
    Checks limits s (dimension what v) fun _ => True := by
  refine (ends_dimension what v).mono (fun _ _ same => ⟨same, trivial⟩) ?_
  rintro cause s' ⟨same, fails | ⟨x, rfl⟩⟩
  · cases v <;> cases fails
    all_goals exact ⟨same, nofun⟩
  · exact ⟨same, nofun⟩

theorem checks_divisions (v : Value) : Checks limits s (divisions v) fun d =>
    ∃ n : Nat, 3 ≤ n ∧ n ≤ limits.maxDivisions ∧ d = .ofNat n := by
  refine (ends_divisions v).mono (fun _ _ => id) ?_
  rintro cause s' ⟨same, fails | ⟨n, rfl⟩⟩
  · cases v <;> cases fails
    all_goals exact ⟨same, nofun⟩
  · exact ⟨same, nofun⟩

theorem dimension_run {what : Dimension} {x : Float}
    (valid : (!x.isFinite || !(Number.narrow x).isFinite || x ≤ 0) = false) :
    dimension what (.float x) limits s = .ok (Number.narrow x) s := by
  change (if (!x.isFinite || !(Number.narrow x).isFinite || x ≤ 0) = true then
    Run.fault (.invalidSize what x) >>= fun _ => _
    else pure (Number.narrow x) : Run Float32) limits s = _
  rw [if_neg (Bool.eq_false_iff.1 valid)]
  rfl

theorem divisions_run {n : Int64} (least : 3 ≤ n.toInt) (most : n.toInt ≤ limits.maxDivisions) :
    divisions (.int n) limits s = .ok (.ofNat n.toInt.toNat) s := by
  change (if n.toInt < 3 ∨ (limits.maxDivisions : Int) < n.toInt then
    Run.fault (.invalidDivisions n limits.maxDivisions) >>= fun _ => _
    else pure (.ofNat n.toInt.toNat) : Run UInt32) limits s = _
  rw [if_neg (by omega)]
  rfl

/-! ## Reserving -/

theorem reserve_run (count : Nat) (limits : Limits) (s : RunState) : reserve count limits s =
    if s.building.vertices + count > limits.maxVertices then
      .error ⟨.vertexLimit limits.maxVertices, none⟩ s
    else .ok () (s.counting count) := by
  change (if s.building.vertices + count > limits.maxVertices then
    Run.fault (.vertexLimit limits.maxVertices) >>= fun _ => _ else _ : Run Unit) limits s = _
  split <;> rfl

/-- A run that makes a primitive: it fails in its checks, or makes a mesh once the vertices that are
predicted for that are reserved. -/
def Reserves (limits : Limits) (s : RunState) (run : Run Mesh) : Prop :=
  (∃ f, (∀ limit, f.cause ≠ .vertexLimit limit) ∧ run limits s = .error f s) ∨
    ∃ mesh count, Primitive.Sized limits.maxDivisions mesh count ∧
      run limits s = (reserve count >>= fun _ => pure mesh) limits s

namespace Reserves

theorem bind {next : α → Run Mesh} (checks : Checks limits s run passes)
    (rest : ∀ a, passes a → Reserves limits s (next a)) : Reserves limits s (run >>= next) := by
  unfold Reserves
  rw [bind_apply]
  cases ran : run limits s with
  | ok a s' =>
    obtain ⟨rfl, passed⟩ := checks.of_ok ran
    exact rest a passed
  | error f s' =>
    obtain ⟨rfl, other⟩ := checks.of_error ran
    exact .inl ⟨f, other, rfl⟩

theorem dimension_bind {what : Dimension} {v : Value} {next : Float32 → Run Mesh}
    (rest : ∀ x, Reserves limits s (next x)) : Reserves limits s (dimension what v >>= next) :=
  bind (checks_dimension what v) fun x _ => rest x

theorem divisions_bind {v : Value} {next : UInt32 → Run Mesh}
    (rest : ∀ n : Nat, 3 ≤ n → n ≤ limits.maxDivisions → Reserves limits s (next (.ofNat n))) :
    Reserves limits s (divisions v >>= next) := by
  refine bind (checks_divisions v) ?_
  rintro _ ⟨n, least, most, rfl⟩
  exact rest n least most

theorem reserved {mesh : Mesh} {count : Nat}
    (sized : Primitive.Sized limits.maxDivisions mesh count) :
    Reserves limits s (reserve count >>= fun _ => pure mesh) :=
  .inr ⟨mesh, count, sized, rfl⟩

theorem generate (limits : Limits) (s : RunState) (name : String) (args : List Value) :
    Reserves limits s (generate name args) := by
  unfold Building.generate
  split
  · exact dimension_bind fun w => dimension_bind fun h => dimension_bind fun d =>
      reserved (.box w h d _)
  · exact dimension_bind fun r => divisions_bind fun n least most =>
      reserved (.sphere r _ least most)
  · exact dimension_bind fun r => dimension_bind fun h => divisions_bind fun n least most =>
      reserved (.cylinder r h _ least most)
  · exact dimension_bind fun r => dimension_bind fun h => divisions_bind fun n least most =>
      reserved (.cone r h _ least most)
  · exact dimension_bind fun w => dimension_bind fun d => reserved (.plane w d _)
  · exact .inl ⟨⟨.unknownPrimitive _, none⟩, nofun, rfl⟩

end Reserves

/-- Where the checks on the arguments of a primitive fail, nothing changes. Where they pass, it depends
on the number of vertices in 32 bits, and on nothing else, whether the mesh is made. That is the
number itself, and the mesh is well-formed, unless more than 92680 divisions are allowed. -/
theorem generate_reserves (limits : Limits) (name : String) (args : List Value) (s : RunState) :
    (∃ f, (∀ limit, f.cause ≠ .vertexLimit limit) ∧ generate name args limits s = .error f s) ∨
    ∃ mesh count, count = mesh.vertexCount % 2 ^ 32 ∧
      (limits.maxDivisions ≤ 92680 → count = mesh.vertexCount ∧
        ∃ entries, Primitive.Drawn mesh count entries) ∧
      generate name args limits s =
        if s.building.vertices + count > limits.maxVertices then
          .error ⟨.vertexLimit limits.maxVertices, none⟩ s
        else .ok mesh (s.counting count) := by
  obtain failed | ⟨mesh, count, sized, generates⟩ := Reserves.generate limits s name args
  · exact .inl failed
  · refine .inr ⟨mesh, count, sized.remainder, fun small => ?_, ?_⟩
    · have fit := Primitive.countsFit_iff.2 small
      exact ⟨sized.vertexCount fit, sized.drawn fit⟩
    · rw [generates, bind_apply, reserve_run]
      by_cases tooMany : s.building.vertices + count > limits.maxVertices
      · rw [if_pos tooMany, if_pos tooMany]
      · rw [if_neg tooMany, if_neg tooMany]
        rfl

theorem generate_sphere {s' : RunState} {r n : Value} {x : Float32} {d : UInt32}
    (radius : dimension .radius r limits s = .ok x s) (sectors : divisions n limits s = .ok d s)
    (reserves : reserve (Primitive.sphereVertices d) limits s = .ok () s') :
    generate "sphere" [r, n] limits s = .ok (Primitive.sphere x d uncolored) s' := by
  simp only [generate, bind_apply, radius, sectors, reserves]
  rfl

/-- With one more division, four billion vertices are taken for nine thousand. -/
theorem generate_wraps :
    let limits : Limits := { maxDivisions := 92681 }
    ∃ mesh s', generate "sphere" [.float 1, .int 92681] limits (.start 0) = .ok mesh s' ∧
      s'.building.vertices = 9266 ∧ mesh.vertexCount = 4294976562 ∧
      limits.maxVertices < mesh.vertexCount := by
  intro limits
  have radius : dimension .radius (.float 1) limits (.start 0) =
      .ok (Number.narrow 1) (.start 0) :=
    dimension_run (by decide +kernel)
  have sectors : divisions (.int 92681) limits (.start 0) = .ok 92681 (.start 0) :=
    divisions_run (by decide) (by decide)
  have reserves : reserve (Primitive.sphereVertices 92681) limits (.start 0) =
      .ok () (RunState.counting (.start 0) 9266) := by
    have predicted : Primitive.sphereVertices 92681 = 9266 := by decide
    rw [predicted, reserve_run, if_neg (by decide)]
  have counted : (Primitive.sphere (Number.narrow 1) 92681 uncolored).vertexCount =
      4294976562 := by
    rw [Primitive.vertexCount_sphere]
    decide
  have most : limits.maxVertices < 4294976562 := by decide
  exact ⟨_, _, generate_sphere radius sectors reserves, rfl, counted, counted ▸ most⟩

end Building

end SceneScript
