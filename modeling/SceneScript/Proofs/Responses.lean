import SceneScript.Message.Response
import SceneScript.Proofs.Json.Records
import SceneScript.Proofs.Locations

/-!
# Responses are read back

The text of a response is read back as that response, whatever its messages say, if its coordinates
are; a coordinate that is not finite is written as null, and then there is no response to be read
(`Slot.response_read_back`).
-/

namespace SceneScript

open Json

/-! ## Diagnostics -/

theorem halfWord?_nat (n : Nat) : (nat n).halfWord? = if n < UInt32.size then some n else none :=
  natBelow?_nat (by decide) n

theorem word?_nat (n : Nat) : (nat n).word? = if n < wordBound then some n else none :=
  natBelow?_nat (Nat.le_refl _) n

def Position.Fits (p : Position) : Prop :=
  p.line < UInt32.size ∧ p.column < UInt32.size

namespace Position

theorem json_eq (p : Position) :
    p.json = record ["line", "column"] [some (.nat p.line), some (.nat p.column)] :=
  rfl

theorem written (p : Position) : p.json.Written := by
  rw [json_eq, written_record rfl]
  simp [written_nat]

theorem holdable_json (depth : Nat) {p : Position} (fits : p.Fits) :
    holdable (depth + 1) p.json = true := by
  have half : UInt32.size < wordBound := by decide
  rw [json_eq, holdable_record rfl]
  simp [holdable_nat depth (fits.1.trans half), holdable_nat depth (fits.2.trans half)]

theorem read_back (p : Position) : ofJson? p.json = some p ↔ p.Fits := by
  obtain ⟨line, column⟩ := p
  rw [json_eq, ofJson?, slots?_record (by decide) rfl]
  simp [required, halfWord?_nat, Fits, Option.bind_eq_some_iff]

theorem optional_back (location : Option Position) :
    Json.optional ofJson? (location.map json) = some location ↔ ∀ p ∈ location, p.Fits := by
  simpa only [read_back] using optional_map ofJson? json (fun _ => nofun) location

end Position

namespace Note

theorem json_eq (n : Note) : n.json =
    record ["message", "location"] [some (.text n.message), n.location.map Position.json] := by
  obtain ⟨message, _ | location⟩ := n <;> rfl

theorem written (n : Note) : n.json.Written := by
  rw [json_eq, written_record rfl]
  simp [written_text, Position.written]

theorem holdable_json (depth : Nat) {n : Note} (fits : ∀ p ∈ n.location, p.Fits) :
    holdable (depth + 2) n.json = true := by
  rw [json_eq, holdable_record rfl]
  simpa [holdable_text] using fun p mem => Position.holdable_json depth (fits p mem)

theorem read_back (n : Note) : ofJson? n.json = some n ↔ ∀ p ∈ n.location, p.Fits := by
  obtain ⟨message, location⟩ := n
  rw [json_eq, ofJson?, slots?_record (by decide) rfl]
  simpa [required, text?_text, Option.bind_eq_some_iff] using Position.optional_back location

end Note

namespace Diagnostic

theorem json_eq (d : Diagnostic) : d.json = record ["stage", "message", "location", "notes"]
    [some d.stage.json, some (.text d.message), d.location.map Position.json,
      if d.notes.isEmpty then none else some (.array (d.notes.map Note.json))] := by
  obtain ⟨stage, message, _ | location, _ | ⟨note, notes⟩⟩ := d <;> rfl

theorem notes_back (notes : List Note) : withDefault [] (listOf? Note.ofJson?)
    (if notes.isEmpty then none else some (.array (notes.map Note.json))) = some notes ↔
      ∀ n ∈ notes, ∀ p ∈ n.location, p.Fits := by
  simp only [← Note.read_back, ← mapM_map_self]
  cases notes <;> rfl

def Fits (d : Diagnostic) : Prop :=
  (∀ p ∈ d.location, p.Fits) ∧ ∀ n ∈ d.notes, ∀ p ∈ n.location, p.Fits

theorem written (d : Diagnostic) : d.json.Written := by
  rw [json_eq, written_record rfl]
  have notes : (array (d.notes.map Note.json)).Written := written_map.2 fun n _ => n.written
  simp [Stage.json, written_text, Position.written, notes]

theorem holdable_json (depth : Nat) {d : Diagnostic} (fits : d.Fits) :
    holdable (depth + 4) d.json = true := by
  have notes : holdable (depth + 3) (.array (d.notes.map Note.json)) = true :=
    holdable_map.2 fun n mem => Note.holdable_json depth (fits.2 n mem)
  have location : ∀ p ∈ d.location, holdable (depth + 3) p.json = true :=
    fun p mem => Position.holdable_json _ (fits.1 p mem)
  rw [json_eq, holdable_record rfl]
  simpa [Stage.json, holdable_text, notes] using location

theorem read_back {readStage : Json → Option Stage}
    (stages : ∀ stage : Stage, readStage stage.json = some stage) (d : Diagnostic) :
    read? readStage d.json = some d ↔ d.Fits := by
  obtain ⟨stage, message, location, notes⟩ := d
  rw [json_eq, read?, slots?_record (by decide) rfl]
  simpa [required, text?_text, stages, Option.bind_eq_some_iff, Fits] using
    and_congr (Position.optional_back location) (notes_back notes)

end Diagnostic

/-! ## Summaries -/

namespace Summary

def coordinates (s : Summary) : List Float32 :=
  s.bounds.elim [] fun b => b.min.toList ++ b.max.toList

theorem forall_coordinates {s : Summary} {P : Float32 → Prop} : (∀ x ∈ s.coordinates, P x) ↔
    ∀ b ∈ s.bounds, ∀ v ∈ [b.min, b.max], ∀ x ∈ v.toList, P x := by
  rw [coordinates]
  cases s.bounds with
  | none => simp
  | some b => simp only [Option.elim_some, List.forall_mem_append, Option.mem_some,
      List.forall_mem_cons, forall_eq', List.not_mem_nil, false_implies, implies_true, and_true]

def Fits (s : Summary) : Prop :=
  ∀ n ∈ [s.id, s.nodes, s.parts, s.vertices, s.triangles], n < wordBound

instance (s : Summary) : Decidable s.Fits :=
  inferInstanceAs (Decidable (∀ n ∈ _, n < wordBound))

def ReadBack (x : Float32) : Prop :=
  single? (coordinate x) = some x

instance (x : Float32) : Decidable (ReadBack x) :=
  inferInstanceAs (Decidable (_ = _))

def boxJson (b : Bounds) : Json :=
  .array ([b.min, b.max].map point)

theorem json_eq (s : Summary) : s.json = record
    ["id", "node_count", "part_count", "vertex_count", "triangle_count", "bounds"]
    [some (.nat s.id), some (.nat s.nodes), some (.nat s.parts), some (.nat s.vertices),
      some (.nat s.triangles), s.bounds.map boxJson] := by
  obtain ⟨id, nodes, parts, vertices, triangles, _ | bounds⟩ := s <;> rfl

/-! ### Writing -/

theorem written_coordinate (x : Float32) : (coordinate x).Written := by
  unfold coordinate
  split
  · next finite => exact Decimal.Layout.numeral_float32 _ finite
  · trivial

theorem written_box (b : Bounds) : (boxJson b).Written :=
  written_map.2 fun _ _ => written_map.2 fun x _ => written_coordinate x

theorem written (s : Summary) : s.json.Written := by
  rw [json_eq, written_record rfl]
  simp [written_nat, written_box]

theorem holdable_coordinate (depth : Nat) {x : Float32} (back : ReadBack x) :
    holdable depth (coordinate x) = true := by
  unfold ReadBack at back
  cases is : coordinate x with
  | number text =>
    rw [is, single?] at back
    obtain ⟨n, read, -⟩ := Option.map_eq_some_iff.1 back
    exact holdable_number (Option.isSome_of_mem read)
  | null => cases depth <;> rfl
  | _ =>
    rw [is] at back
    cases back

theorem holdable_json (depth : Nat) {s : Summary} (fits : s.Fits)
    (back : ∀ x ∈ s.coordinates, ReadBack x) : holdable (depth + 3) s.json = true := by
  have box : ∀ b ∈ s.bounds, holdable (depth + 2) (boxJson b) = true := fun b mem =>
    holdable_map.2 fun v inBox => holdable_map.2 fun x inPoint =>
      holdable_coordinate depth (forall_coordinates.1 back b mem v inBox x inPoint)
  have count : ∀ n ∈ [s.id, s.nodes, s.parts, s.vertices, s.triangles],
      holdable (depth + 2) (.nat n) = true := fun n mem => holdable_nat _ (fits n mem)
  rw [json_eq, holdable_record rfl]
  simp only [List.forall_mem_cons] at count
  simpa [count] using box

/-! ### Reading -/

theorem point_back (v : Vec3) : point? (point v) = some v ↔ ∀ x ∈ v.toList, ReadBack x := by
  obtain ⟨x, y, z⟩ := v
  simp [point?, point, listOf?, items?, Vec3.toList, Option.bind_eq_some_iff, ReadBack, and_assoc]

theorem box_back (b : Bounds) :
    bounds? (boxJson b) = some b ↔ ∀ v ∈ [b.min, b.max], ∀ x ∈ v.toList, ReadBack x := by
  obtain ⟨low, high⟩ := b
  simp [bounds?, boxJson, listOf?, items?, Option.bind_eq_some_iff, point_back]

theorem read_back (s : Summary) :
    ofJson? s.json = some s ↔ s.Fits ∧ ∀ x ∈ s.coordinates, ReadBack x := by
  obtain ⟨id, nodes, parts, vertices, triangles, bounds⟩ := s
  have box := optional_map bounds? boxJson (fun _ => nofun) bounds
  simp only [box_back] at box
  rw [json_eq, ofJson?, slots?_record (by decide) rfl, forall_coordinates, ← box]
  simp [required, word?_nat, Option.bind_eq_some_iff, Fits, and_assoc]

theorem point_unread {v : Vec3} {x : Float32} (mem : x ∈ v.toList) (infinite : x.isFinite = false) :
    point? (point v) = none := by
  have null : single? (coordinate x) = none := by
    rw [coordinate, infinite]
    rfl
  have items : listOf? single? (point v) = none := mapM_map_none mem null
  rw [point?, items]
  rfl

/-- A coordinate that is not finite is written as null, which is no coordinate. -/
theorem unread {s : Summary} {x : Float32} (mem : x ∈ s.coordinates)
    (infinite : x.isFinite = false) : ofJson? s.json = none := by
  obtain ⟨id, nodes, parts, vertices, triangles, _ | b⟩ := s
  · cases mem
  have corner : ∃ v ∈ [b.min, b.max], x ∈ v.toList := by
    obtain low | high := List.mem_append.1 mem
    · exact ⟨_, List.mem_cons_self, low⟩
    · exact ⟨_, List.mem_cons_of_mem _ List.mem_cons_self, high⟩
  obtain ⟨v, inBox, mem⟩ := corner
  have corners : listOf? point? (boxJson b) = none :=
    mapM_map_none inBox (point_unread mem infinite)
  have none : Json.optional bounds? (some (boxJson b)) = none := by
    change (bounds? (boxJson b)).map some = none
    rw [bounds?, corners]
    rfl
  rw [json_eq, ofJson?, slots?_record (by decide) rfl]
  simp [none]

end Summary

/-! ## Responses -/

namespace CompileResponse

def reread? (r : CompileResponse) : Option CompileResponse :=
  (Json.read? r.json.render).bind ofJson?

def content : CompileResponse → String × Json
  | .ok s => ("model", s.json)
  | .error d => ("diagnostic", d.json)

def status : CompileResponse → String
  | .ok _ => "ok"
  | .error _ => "error"

theorem json_eq (r : CompileResponse) :
    r.json = record ["status", r.content.1] [some (.text r.status), some r.content.2] := by
  cases r <;> rfl

theorem isStatus_field (name : String) (v : Json) :
    isStatus (field name v) = decide (name = "status") := by
  rw [isStatus, field, unescape?_escape]
  rfl

theorem split?_json (r : CompileResponse) :
    split? r.json = some (.text r.status, record [r.content.1] [some r.content.2]) := by
  have other : r.content.1 ≠ "status" := by
    cases r <;> simp [content]
  rw [json_eq]
  change split? (.object [field "status" (.text r.status), field r.content.1 r.content.2]) = _
  simp [split?, isStatus_field, other]
  exact ⟨rfl, rfl⟩

theorem content?_record {α : Type} (name : String) (read : Json → Option α) (v : Json) :
    content? name read (record [name] [some v]) = read v := by
  rw [content?, slots?_record (List.nodup_singleton name) rfl]
  rfl

theorem stage_back (stage : Stage) : Stage.read? Json.isVoid stage.json = some stage := by
  cases stage <;> decide

theorem ofJson?_json (r : CompileResponse) :
    ofJson? r.json = if holdable maxDepth r.json then
      match r with
      | .ok s => (Summary.ofJson? s.json).map .ok
      | .error d => (Diagnostic.read? (Stage.read? Json.isVoid) d.json).map .error
    else none := by
  rw [ofJson?, split?_json]
  cases holdable maxDepth r.json with
  | false => rfl
  | true =>
    cases r <;> simp [text?_text, status, content, content?_record, Option.map_eq_bind]

def Readable : CompileResponse → Prop
  | .ok s => s.Fits ∧ ∀ x ∈ s.coordinates, Summary.ReadBack x
  | .error d => d.Fits

theorem written (r : CompileResponse) : r.json.Written := by
  have content : r.content.2.Written := by
    cases r with
    | ok s => exact s.written
    | error d => exact d.written
  rw [json_eq, written_record rfl]
  simp [written_text, content]

theorem Readable.holdable {r : CompileResponse} (readable : r.Readable) :
    holdable maxDepth r.json = true := by
  have content : Json.holdable 126 r.content.2 = true := by
    cases r with
    | ok s => exact s.holdable_json 123 readable.1 readable.2
    | error d => exact d.holdable_json 122 readable
  rw [json_eq, maxDepth, holdable_record rfl]
  simp [holdable_text, content]

theorem reread?_eq (r : CompileResponse) : r.reread? = ofJson? r.json := by
  rw [reread?, read?_render r.written, Option.bind_some]

theorem reread_iff (r : CompileResponse) : r.reread? = some r ↔ r.Readable := by
  rw [reread?_eq, ofJson?_json]
  constructor
  · intro read
    split at read
    · cases r with
      | ok s =>
        obtain ⟨s', is, same⟩ := Option.map_eq_some_iff.1 read
        cases same
        exact s.read_back.1 is
      | error d =>
        obtain ⟨d', is, same⟩ := Option.map_eq_some_iff.1 read
        cases same
        exact (d.read_back stage_back).1 is
    · cases read
  · intro readable
    rw [if_pos readable.holdable]
    cases r with
    | ok s => simp [s.read_back.2 readable]
    | error d => simp [(d.read_back stage_back).2 readable]

theorem unread {s : Summary} {x : Float32} (mem : x ∈ s.coordinates)
    (infinite : x.isFinite = false) : (ok s).reread? = none := by
  rw [reread?_eq, ofJson?_json]
  dsimp only
  rw [Summary.unread mem infinite]
  split <;> rfl

end CompileResponse

/-! ## Attempts -/

def Replacement.response (r : Replacement) : CompileResponse :=
  .ofResult (r.result.map Model.summary)

theorem Position.fits_place {front : List Char} (short : front.length + 1 < UInt32.size) :
    (place front).Fits := by
  have line : front.count '\n' ≤ front.length := List.count_le_length
  have column : (front.rtakeWhile (· != '\n')).length ≤ front.length :=
    (List.rtakeWhile_suffix _ _).length_le
  exact ⟨by dsimp only [place]; omega, by dsimp only [place]; omega⟩

theorem Slot.fits_replace {s : Slot} {snippet : String} (short : snippet.length < UInt32.size)
    {d : Diagnostic} (failed : (s.replace snippet).result = .error d) : d.Fits := by
  have result : (attempt .standard s.limits s.nextModel snippet).result = .error d := by
    rw [← failed, s.replace_eq snippet]
  have fits (p : Position) (mem : some p ∈ d.places) : p.Fits := by
    obtain ⟨front, c, back, is, -, rfl⟩ := Reported.own_of_mem (attempt_reported result) p mem
    have length := congrArg List.length is
    rw [String.length_toList, List.length_append, List.length_cons] at length
    exact Position.fits_place (by omega)
  refine ⟨fun p mem => fits p ?_, fun n mem p mem' => fits p ?_⟩
  · exact List.mem_cons.2 (.inl mem.symm)
  · exact List.mem_cons_of_mem _ (List.mem_map.2 ⟨n, mem, mem'⟩)

/-- What is read from the text of a response to an attempt is the response, if the attempt has
failed. If there is a model, its numbers must have 64 bits, and its coordinates must be read back. A
coordinate that is not finite makes the response unreadable. -/
theorem Slot.response_read_back (s : Slot) (snippet : String)
    (short : snippet.length < UInt32.size) :
    let r := s.replace snippet
    match r.result with
    | .error d => r.response = .error d ∧ r.response.reread? = some r.response
    | .ok m => r.response = .ok m.summary ∧
      (r.response.reread? = some r.response ↔
        m.summary.Fits ∧ ∀ x ∈ m.summary.coordinates, Summary.ReadBack x) ∧
      ((∃ x ∈ m.summary.coordinates, x.isFinite = false) → r.response.reread? = none) := by
  intro r
  cases result : r.result with
  | error d =>
    have response : r.response = .error d := by
      rw [Replacement.response, result]
      rfl
    rw [response]
    exact ⟨rfl, (CompileResponse.reread_iff _).2 (fits_replace short result)⟩
  | ok m =>
    have response : r.response = .ok m.summary := by
      rw [Replacement.response, result]
      rfl
    rw [response]
    refine ⟨rfl, CompileResponse.reread_iff _, ?_⟩
    rintro ⟨x, mem, infinite⟩
    exact CompileResponse.unread mem infinite

theorem Slot.response_read_back_hash : "#".length < UInt32.size ∧ ∃ d,
    ((empty {} 0).replace "#").response = .error d ∧ d.location = some ⟨1, 1⟩ ∧
      ((empty {} 0).replace "#").response.reread? = some (.error d) := by
  have reads : Token.Stream.ofText "#" = .error ⟨.unexpectedCharacter '#', ⟨1, 1⟩⟩ := by
    have toList : "#".toList = ['#'] := rfl
    unfold Token.Stream.ofText
    rw [toList, Token.Stream.extend_error rfl]
    rfl
  have fits : "#".utf8ByteSize ≤ (empty {} 0).limits.maxSnippetBytes := by decide
  have short : "#".length < UInt32.size := by decide
  obtain ⟨d, failed, places⟩ := replace_unreadable fits reads
  have back := response_read_back (empty {} 0) "#" short
  simp only [failed] at back
  exact ⟨short, d, back.1, (List.cons.inj places).1, back.1 ▸ back.2⟩

/-- A box is read back, but not one that is infinitely large. -/
theorem CompileResponse.infinite_lost :
    let response (size : Float32) : CompileResponse :=
      .ok ⟨1000001, 2, 1, 24, 12, some ⟨⟨-size, -size, -size⟩, ⟨size, size, size⟩⟩⟩
    (response 0.5).reread? = some (response 0.5) ∧ (response (3e38 * 3e38)).reread? = none := by
  refine ⟨(reread_iff _).2 ⟨by decide, ?_⟩, unread List.mem_cons_self ?_⟩
  · decide +kernel
  · decide +kernel

end SceneScript
