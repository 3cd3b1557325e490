import SceneScript.Proofs.Machine.Ends

/-!
# Rendering values

The rendering of a value is its whole text, defined all at once (`Heap.render`). Showing a value
writes its text bit by bit under two bounds, and gives the rendering just where the rendering and the
values in it stay within these (`Run.display_renders`). Arrays may contain themselves, so that the
rendering has far more values than the heap has objects. Still a step is taken for at most one value
more than the bytes that may be written, since every value but the first has a byte in front of it
(`Text.Writes`).
-/

namespace SceneScript

/-! ## Renderings -/

namespace Heap

def items? (h : Heap) : Value → Option (List Value)
  | .object ref =>
    match h.objects[ref]? with
    | some (.array items) => some items.toList
    | _ => none
  | _ => none

def ownText (h : Heap) : Value → String
  | .object ref =>
    match h.objects[ref]? with
    | some (.node n) => s!"Node({n.id})"
    | some (.vector v) => Text.showVector v
    | some (.color c) => Text.showColor c
    | some (.material m) => s!"Material({m.id})"
    | some o => s!"{o.kind.describe}#{ref}"
    | none => s!"object#{ref}"
  | v => v.text

/-- The text of a value in which arrays are shown down to the given depth. -/
def render (h : Heap) : Nat → Value → String
  | 0, v => if (h.items? v).isSome then "[...]" else h.ownText v
  | depth + 1, v =>
    match h.items? v with
    | some items => "[" ++ ", ".intercalate (items.map (h.render depth)) ++ "]"
    | none => h.ownText v

def rendered (h : Heap) : Nat → Value → Nat
  | 0, _ => 1
  | depth + 1, v => 1 + (((h.items? v).getD []).map (h.rendered depth)).sum

end Heap

/-! ## Writers -/

namespace Text

def Sink.extend (s : Sink) (t : String) (n : Nat) : Sink :=
  ⟨s.text ++ t, s.steps + n⟩

def Sink.Room (b : Bounds) (s : Sink) (t : String) (n : Nat) : Prop :=
  s.text.utf8ByteSize + t.utf8ByteSize ≤ b.maxLen ∧ n ≤ b.maxSteps - s.steps

/-- A writer adds a text and takes steps if there is room for both, and fails otherwise. Either way
it takes no more steps than there are bytes that it writes or may write, but for some on credit. -/
structure Writes (b : Bounds) (credit : Nat) (writer : Writer Unit) (t : String) (n : Nat) :
    Prop where
  covered : n ≤ t.utf8ByteSize + credit
  succeeds : ∀ {s : Sink}, s.text.utf8ByteSize ≤ b.maxLen → s.Room b t n →
    writer b s = .ok () (s.extend t n)
  fails : ∀ {s : Sink}, s.text.utf8ByteSize ≤ b.maxLen → ¬s.Room b t n →
    ∃ cause s', writer b s = .error cause s' ∧ s.steps ≤ s'.steps ∧
      s'.steps + s.text.utf8ByteSize ≤ s.steps + b.maxLen + credit

namespace Writes

variable {b : Bounds} {credit first rest n m : Nat} {writer next : Writer Unit} {t u : String}

theorem nothing : Writes b credit (pure ()) "" 0 where
  covered := Nat.zero_le _
  succeeds {s} _ _ := by
    change EStateM.Result.ok () s = .ok () ⟨s.text ++ "", s.steps⟩
    rw [String.append_empty]
  fails short noRoom := absurd ⟨short, Nat.zero_le _⟩ noRoom

theorem step : Writes b 1 step "" 1 where
  covered := Nat.le_refl 1
  succeeds {s} _ room := by
    have within : ¬s.steps + 1 > b.maxSteps := by
      have left := room.2
      omega
    rw [step_run]
    simp only [if_neg within, Sink.extend, String.append_empty]
  fails {s} short noRoom := by
    have beyond : s.steps + 1 > b.maxSteps := by
      by_contra within
      exact noRoom ⟨short, by omega⟩
    refine ⟨b.outOfSteps, { s with steps := s.steps + 1 }, ?_, Nat.le_succ _, ?_⟩
    · rw [step_run]
      simp only [if_pos beyond]
    · dsimp only
      omega

theorem add_run (t : String) (b : Bounds) (s : Sink) : add t b s =
    if s.text.utf8ByteSize + t.utf8ByteSize > b.maxLen then
      .error (.stringLimit (s.text.utf8ByteSize + t.utf8ByteSize) b.maxLen) s
    else .ok () { s with text := s.text ++ t } := by
  change (if s.text.utf8ByteSize + t.utf8ByteSize > b.maxLen then
    throw (.stringLimit (s.text.utf8ByteSize + t.utf8ByteSize) b.maxLen) >>= fun _ => modify _
    else modify _ : Writer Unit) b s = _
  split <;> rfl

theorem add (t : String) : Writes b 0 (add t) t 0 where
  covered := Nat.zero_le _
  succeeds {s} _ room := by
    rw [add_run, if_neg (Nat.not_lt.2 room.1)]
    rfl
  fails {s} short noRoom := by
    have beyond : s.text.utf8ByteSize + t.utf8ByteSize > b.maxLen := by
      by_contra within
      exact noRoom ⟨Nat.not_lt.1 within, Nat.zero_le _⟩
    have failed := add_run t b s
    rw [if_pos beyond] at failed
    exact ⟨_, s, failed, Nat.le_refl _, Nat.add_le_add_left short _⟩

theorem bind (writes : Writes b first writer t n) (writesNext : Writes b rest next u m)
    (less : first ≤ credit) (paid : n + rest ≤ t.utf8ByteSize + credit) :
    Writes b credit (writer >>= fun _ => next) (t ++ u) (n + m) where
  covered := by
    have covered := writesNext.covered
    rw [String.utf8ByteSize_append]
    omega
  succeeds {s} short room := by
    obtain ⟨bytes, steps⟩ := room
    rw [String.utf8ByteSize_append] at bytes
    have ran := writes.succeeds short ⟨by omega, by omega⟩
    have ranNext : next b (s.extend t n) = .ok () ((s.extend t n).extend u m) := by
      apply writesNext.succeeds
      · rw [Sink.extend, String.utf8ByteSize_append]
        omega
      · constructor
        · rw [Sink.extend, String.utf8ByteSize_append]
          omega
        · change m ≤ b.maxSteps - (s.steps + n)
          omega
    change (writer b >>= fun _ => next b) s = _
    rw [Meter.Scales.bind_of_ok ran, ranNext]
    simp only [Sink.extend, String.append_assoc, Nat.add_assoc]
  fails {s} short noRoom := by
    change ∃ cause s', (writer b >>= fun _ => next b) s = _ ∧ _
    -- Either the first fails, or its bytes pay for the credit of the next, which then fails.
    by_cases room : s.Room b t n
    · have ran := writes.succeeds short room
      obtain ⟨bytes, steps⟩ := room
      have size : (s.extend t n).text.utf8ByteSize = s.text.utf8ByteSize + t.utf8ByteSize :=
        String.utf8ByteSize_append
      have noRoom' : ¬(s.extend t n).Room b u m := by
        rintro ⟨bytes', steps'⟩
        rw [size] at bytes'
        change m ≤ b.maxSteps - (s.steps + n) at steps'
        apply noRoom
        constructor
        · rw [String.utf8ByteSize_append]
          omega
        · omega
      obtain ⟨cause, s', failed, more, most⟩ := writesNext.fails (size ▸ bytes) noRoom'
      rw [size] at most
      change s.steps + n ≤ s'.steps at more
      change _ ≤ s.steps + n + b.maxLen + rest at most
      exact ⟨cause, s', by rw [Meter.Scales.bind_of_ok ran, failed], by omega, by omega⟩
    · obtain ⟨cause, s', failed, more, most⟩ := writes.fails short room
      exact ⟨cause, s', Meter.Scales.bind_of_error failed, more, by omega⟩

end Writes

/-! ## Values -/

variable {b : Bounds} {h : Heap} {item : Value → Writer Unit} {text : Value → String}
  {count : Value → Nat}

def writeBracketed (item : Value → Writer Unit) (vs : List Value) : Writer Unit := do
  add "["
  writeItems item vs
  add "]"

theorem writeItems_cons_cons (v w : Value) (vs : List Value) :
    writeItems item (v :: w :: vs) =
      item v >>= fun _ => add ", " >>= fun _ => writeItems item (w :: vs) := rfl

/-- The first item is written on credit, and each of the others has a comma in front. -/
theorem writes_items (items : ∀ v, Writes b 1 (item v) (text v) (count v)) (vs : List Value) :
    Writes b 1 (writeItems item vs) (", ".intercalate (vs.map text)) (vs.map count).sum := by
  induction vs with
  | nil => exact .nothing
  | cons v vs ih =>
    cases vs with
    | nil =>
      have single : writeItems item [v] = item v := bind_pure _
      rw [single, List.map_singleton, String.intercalate_singleton, List.map_singleton,
        List.sum_singleton]
      exact items v
    | cons w vs =>
      have separated : Writes b 0 _ _ _ :=
        (Writes.add ", ").bind ih (Nat.le_refl 0) (by decide)
      have whole : Writes b 1 _ _ _ :=
        (items v).bind separated (Nat.le_refl 1) (items v).covered
      rw [Nat.zero_add, ← String.append_assoc] at whole
      rw [writeItems_cons_cons, List.map_cons, List.map_cons, String.intercalate_cons_cons,
        List.map_cons, List.sum_cons]
      exact whole

theorem writes_step_bind {next : Writer Unit} {t : String} {n : Nat}
    (writes : Writes b 0 next t n) : Writes b 1 (step >>= fun _ => next) t (1 + n) := by
  have both : Writes b 1 _ _ _ := Writes.step.bind writes (Nat.le_refl 1) (Nat.le_refl 1)
  rwa [String.empty_append] at both

theorem writes_bracketed (items : ∀ v, Writes b 1 (item v) (text v) (count v)) (vs : List Value) :
    Writes b 0 (writeBracketed item vs)
      ("[" ++ ", ".intercalate (vs.map text) ++ "]") (vs.map count).sum := by
  have inner := writes_items items vs
  have closed : Writes b 1 _ _ _ := inner.bind (.add "]") (Nat.le_refl 1) inner.covered
  have whole : Writes b 0 _ _ _ := (Writes.add "[").bind closed (Nat.le_refl 0) (by decide)
  rwa [Nat.zero_add, Nat.add_zero, ← String.append_assoc] at whole

theorem writeOne_own {item : Option (Value → Writer Unit)} {v : Value} (own : h.items? v = none) :
    writeOne h item v = step >>= fun _ => add (h.ownText v) := by
  cases v with
  | object ref =>
    simp only [Heap.items?] at own
    simp only [writeOne, Heap.ownText]
    cases found : h.objects[ref]? with
    | none => rfl
    | some o =>
      rw [found] at own
      cases o with
      | array => cases own
      | _ => rfl
  | _ => rfl

theorem array_of_items? {v : Value} {vs : List Value} (is : h.items? v = some vs) :
    ∃ ref items, v = .object ref ∧ h.objects[ref]? = some (.array items) ∧ items.toList = vs := by
  cases v with
  | object ref =>
    simp only [Heap.items?] at is
    split at is
    · next items found =>
      cases is
      exact ⟨ref, items, rfl, found, rfl⟩
    · cases is
  | _ => cases is

theorem writeOne_hint {v : Value} {vs : List Value} (is : h.items? v = some vs) :
    writeOne h none v = step >>= fun _ => add "[...]" := by
  obtain ⟨ref, items, rfl, found, -⟩ := array_of_items? is
  simp only [writeOne, found]

theorem writeOne_items {v : Value} {vs : List Value} (is : h.items? v = some vs) :
    writeOne h (some item) v = step >>= fun _ => writeBracketed item vs := by
  obtain ⟨ref, items, rfl, found, rfl⟩ := array_of_items? is
  simp only [writeOne, found, writeBracketed]

theorem writes_nested (h : Heap) (depth : Nat) (v : Value) :
    Writes b 1 (writeNested h depth v) (h.render depth v) (h.rendered depth v) := by
  induction depth generalizing v with
  | zero =>
    rw [writeNested, Heap.render, Heap.rendered]
    cases items : h.items? v with
    | none =>
      rw [writeOne_own items]
      exact writes_step_bind (.add _)
    | some vs =>
      rw [writeOne_hint items]
      exact writes_step_bind (.add _)
  | succ depth ih =>
    rw [writeNested, Heap.render, Heap.rendered]
    cases items : h.items? v with
    | none =>
      rw [writeOne_own items]
      exact writes_step_bind (.add _)
    | some vs =>
      rw [writeOne_items items]
      exact writes_step_bind (writes_bracketed ih vs)

end Text

/-! ## Runs -/

namespace Run

variable {limits : Limits} {s : RunState} {v : Value} {t : String} {n : Nat}

theorem display_of_writes (writes : Text.Writes (textBounds limits) 1 (Text.write s.heap v) t n) :
    (t.utf8ByteSize ≤ limits.maxStringLen ∧ n ≤ limits.maxSteps - s.steps →
      display v limits s = .ok t { s with steps := s.steps + n }) ∧
    (¬(t.utf8ByteSize ≤ limits.maxStringLen ∧ n ≤ limits.maxSteps - s.steps) →
      ∃ f, ∃ taken ≤ limits.maxStringLen + 1,
        display v limits s = .error f { s with steps := s.steps + taken }) := by
  have empty : (⟨"", s.steps⟩ : Text.Sink).text.utf8ByteSize ≤ limits.maxStringLen :=
    Nat.zero_le _
  have room : Text.Sink.Room (textBounds limits) ⟨"", s.steps⟩ t n ↔
      t.utf8ByteSize ≤ limits.maxStringLen ∧ n ≤ limits.maxSteps - s.steps := by
    unfold Text.Sink.Room
    rw [String.utf8ByteSize_empty, Nat.zero_add]
    rfl
  rw [display_run, ← room]
  constructor
  · intro fits
    rw [writes.succeeds empty fits, Text.Sink.extend, String.empty_append]
  · intro beyond
    obtain ⟨cause, sink, failed, more, most⟩ := writes.fails empty beyond
    change s.steps ≤ sink.steps at more
    change sink.steps + 0 ≤ s.steps + limits.maxStringLen + 1 at most
    rw [failed]
    refine ⟨⟨cause, none⟩, sink.steps - s.steps, by omega, ?_⟩
    rw [Nat.add_sub_cancel' more]

/-- Showing a value gives its rendering, a step for each value in it, as long as both are within
the limits; otherwise it fails, and no more happens than that steps are taken. -/
theorem display_renders (limits : Limits) (s : RunState) (v : Value) :
    ((∃ t s', display v limits s = .ok t s') ↔
      (s.heap.render 8 v).utf8ByteSize ≤ limits.maxStringLen ∧
        s.heap.rendered 8 v ≤ limits.maxSteps - s.steps) ∧
    (∀ t s', display v limits s = .ok t s' → t = s.heap.render 8 v ∧
      s' = { s with steps := s.steps + s.heap.rendered 8 v } ∧
      s.heap.rendered 8 v ≤ limits.maxStringLen + 1) ∧
    ∀ f s', display v limits s = .error f s' →
      ∃ taken ≤ limits.maxStringLen + 1, s' = { s with steps := s.steps + taken } := by
  have writes : Text.Writes (textBounds limits) 1 (Text.write s.heap v) _ _ :=
    Text.writes_nested s.heap 8 v
  obtain ⟨succeeds, fails⟩ := display_of_writes writes
  have covered := writes.covered
  generalize s.heap.render 8 v = t at *
  generalize s.heap.rendered 8 v = n at *
  by_cases fits : t.utf8ByteSize ≤ limits.maxStringLen ∧ n ≤ limits.maxSteps - s.steps
  · rw [succeeds fits]
    refine ⟨iff_of_true ⟨_, _, rfl⟩ fits, ?_, by rintro f s' ⟨⟩⟩
    rintro t' s' ⟨⟩
    exact ⟨rfl, rfl, Nat.le_trans covered (Nat.succ_le_succ fits.1)⟩
  · obtain ⟨f, taken, few, failed⟩ := fails fits
    rw [failed]
    refine ⟨iff_of_false (by rintro ⟨t', s', ⟨⟩⟩) fits, by rintro t' s' ⟨⟩, ?_⟩
    rintro f' s' ⟨⟩
    exact ⟨taken, few, rfl⟩

end Run

/-- An array that contains itself. -/
example : Heap.render ⟨#[.array #[.object 0]]⟩ 8 (.object 0) = "[[[[[[[[[...]]]]]]]]]" := by
  decide +kernel

end SceneScript
