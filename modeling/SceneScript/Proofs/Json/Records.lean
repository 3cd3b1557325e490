import SceneScript.Json.Record
import SceneScript.Proofs.Json.Numbers

/-!
# Records are read back

A record is written with those of its fields that there are, and reading finds the value of each of
them again, and the absence of the others (`slots?_record`). What is written so can be held as a
whole, if its parts can.
-/

namespace SceneScript.Json

/-! ## Lists -/

theorem mapM_map_iff {α β γ : Type} {f : β → Option γ} {g : α → β} {as : List α} {cs : List γ} :
    (as.map g).mapM f = some cs ↔ List.Forall₂ (fun a c => f (g a) = some c) as cs := by
  induction as generalizing cs with
  | nil => simp [eq_comm]
  | cons a as ih =>
    rw [List.map_cons, List.mapM_cons]
    constructor
    · intro read
      simp only [Option.bind_eq_bind, Option.bind_eq_some_iff] at read
      obtain ⟨c, first, rest, others, is⟩ := read
      cases is
      exact .cons first (ih.1 others)
    · rintro (_ | ⟨first, others⟩)
      simp [first, ih.2 others]

theorem mapM_map_self {α β : Type} {f : β → Option α} {g : α → β} {as : List α} :
    (as.map g).mapM f = some as ↔ ∀ a ∈ as, f (g a) = some a := by
  rw [mapM_map_iff, List.forall₂_same]

theorem mapM_map_none {α β γ : Type} {f : β → Option γ} {g : α → β} {as : List α} {a : α}
    (mem : a ∈ as) (unread : f (g a) = none) : (as.map g).mapM f = none := by
  induction as with
  | nil => cases mem
  | cons first as ih =>
    rw [List.map_cons, List.mapM_cons]
    obtain rfl | inRest := List.mem_cons.1 mem
    · simp [unread]
    · simp [ih inRest]

/-! ## Names -/

theorem unescape?_escape (s : String) :
    unescape? (String.ofList (s.toList.flatMap escape)) = some s :=
  text?_text s

theorem written_text (s : String) : (text s).Written := by
  simp [text, Written, elements?_flatMap_escape]

/-! ## Fields -/

def present (slots : List (String × Option Json)) : List (String × Json) :=
  slots.filterMap fun slot => slot.2.map (field slot.1)

def named (slots : List (String × Option Json)) : List (String × Json) :=
  slots.filterMap fun slot => slot.2.map (slot.1, ·)

variable {slots : List (String × Option Json)}

theorem namedFields?_present (slots : List (String × Option Json)) :
    namedFields? (present slots) = some (named slots) := by
  induction slots with
  | nil => rfl
  | cons slot slots ih =>
    obtain ⟨name, _ | v⟩ := slot
    · exact ih
    · change namedFields? (field name v :: present slots) = some ((name, v) :: named slots)
      unfold namedFields? at ih ⊢
      rw [List.mapM_cons, ih]
      simp [field, unescape?_escape]

theorem filter_named_of_not_mem {name : String} (absent : name ∉ slots.map Prod.fst) :
    ((named slots).filter fun f => f.1 == name) = [] := by
  rw [List.filter_eq_nil_iff]
  intro f mem
  obtain ⟨slot, inSlots, is⟩ := List.mem_filterMap.1 mem
  obtain ⟨v, -, rfl⟩ := Option.map_eq_some_iff.1 is
  rw [beq_iff_eq]
  rintro rfl
  exact absent (List.mem_map_of_mem inSlots)

theorem filter_named (distinct : (slots.map Prod.fst).Nodup) {name : String} {v? : Option Json}
    (mem : (name, v?) ∈ slots) :
    ((named slots).filter fun f => f.1 == name) = (v?.map (name, ·)).toList := by
  induction slots with
  | nil => cases mem
  | cons slot slots ih =>
    obtain ⟨first, v?'⟩ := slot
    obtain ⟨absent, distinct⟩ := List.nodup_cons.1 distinct
    have split : named ((first, v?') :: slots) = (v?'.map (first, ·)).toList ++ named slots := by
      cases v?' <;> rfl
    rw [split, List.filter_append]
    obtain same | inRest := List.mem_cons.1 mem
    · cases same
      rw [filter_named_of_not_mem absent]
      cases v? <;> simp
    · have other : first ≠ name := by
        rintro rfl
        exact absent (List.mem_map.2 ⟨_, inRest, rfl⟩)
      rw [ih distinct inRest]
      cases v?' <;> simp [other]

theorem single_named (distinct : (slots.map Prod.fst).Nodup) {name : String} {v? : Option Json}
    (mem : (name, v?) ∈ slots) : single (named slots) name = some v? := by
  rw [single, filter_named distinct mem]
  cases v? <;> rfl

theorem slots?_present (distinct : (slots.map Prod.fst).Nodup) :
    slots? (slots.map Prod.fst) (.object (present slots)) = some (slots.map Prod.snd) := by
  have each : (slots.map Prod.fst).mapM (single (named slots)) = some (slots.map Prod.snd) := by
    rw [mapM_map_iff, List.forall₂_map_right_iff, List.forall₂_same]
    exact fun slot mem => single_named distinct mem
  rw [slots?, namedFields?_present]
  exact each

def record (names : List String) (values : List (Option Json)) : Json :=
  .object (present (names.zip values))

theorem slots?_record {names : List String} {values : List (Option Json)} (distinct : names.Nodup)
    (complete : names.length = values.length) :
    slots? names (record names values) = some values := by
  have read : ((names.zip values).map Prod.fst).Nodup → _ := slots?_present
  rw [List.map_fst_zip complete.le, List.map_snd_zip complete.ge] at read
  exact read distinct

theorem optional_map {α : Type} (read : Json → Option α) (write : α → Json)
    (notNull : ∀ a, write a ≠ .null) (a? : Option α) :
    optional read (a?.map write) = some a? ↔ ∀ a ∈ a?, read (write a) = some a := by
  cases a? with
  | none => simp [optional]
  | some a =>
    have reads : optional read (some (write a)) = (read (write a)).map some := by
      unfold optional
      split
      · next is => cases is
      · next is => exact absurd (Option.some.inj is) (notNull a)
      · next is => rw [Option.some.inj is]
    simp [reads]

/-! ## What a value consists of -/

theorem written_present :
    FieldsWritten (present slots) ↔ ∀ slot ∈ slots, ∀ v ∈ slot.2, v.Written := by
  induction slots with
  | nil => simp [present, FieldsWritten]
  | cons slot slots ih =>
    rw [List.forall_mem_cons, ← ih]
    obtain ⟨name, _ | v⟩ := slot
    · exact ⟨fun rest => ⟨nofun, rest⟩, And.right⟩
    · change (_ ∧ _ ∧ FieldsWritten (present slots)) ↔ _
      simp [elements?_flatMap_escape]

theorem holdable_present {depth : Nat} : allFieldsHoldable depth (present slots) = true ↔
    ∀ slot ∈ slots, ∀ v ∈ slot.2, holdable depth v = true := by
  induction slots with
  | nil => simp [present, allFieldsHoldable]
  | cons slot slots ih =>
    rw [List.forall_mem_cons, ← ih]
    obtain ⟨name, _ | v⟩ := slot
    · exact ⟨fun rest => ⟨nofun, rest⟩, And.right⟩
    · change allFieldsHoldable depth (field name v :: present slots) = true ↔ _
      simp [allFieldsHoldable, field, unescape?_escape]

theorem forall_mem_zip_snd {names : List String} {values : List (Option Json)}
    (complete : names.length = values.length) {P : Json → Prop} :
    (∀ slot ∈ names.zip values, ∀ v ∈ slot.2, P v) ↔ ∀ v? ∈ values, ∀ v ∈ v?, P v := by
  conv_rhs => rw [← List.map_snd_zip complete.ge, List.forall_mem_map]

theorem written_record {names : List String} {values : List (Option Json)}
    (complete : names.length = values.length) :
    (record names values).Written ↔ ∀ v? ∈ values, ∀ v ∈ v?, v.Written :=
  written_present.trans (forall_mem_zip_snd complete)

theorem holdable_record {names : List String} {values : List (Option Json)} {depth : Nat}
    (complete : names.length = values.length) :
    holdable (depth + 1) (record names values) = true ↔
      ∀ v? ∈ values, ∀ v ∈ v?, holdable depth v = true :=
  holdable_present.trans (forall_mem_zip_snd complete)

theorem written_map {α : Type} {write : α → Json} {as : List α} :
    (array (as.map write)).Written ↔ ∀ a ∈ as, (write a).Written := by
  change ItemsWritten (as.map write) ↔ _
  induction as with
  | nil => simp [ItemsWritten]
  | cons a as ih => rw [List.forall_mem_cons, ← ih, List.map_cons, ItemsWritten]

theorem holdable_map {α : Type} {depth : Nat} {write : α → Json} {as : List α} :
    holdable (depth + 1) (.array (as.map write)) = true ↔
      ∀ a ∈ as, holdable depth (write a) = true := by
  change allHoldable depth (as.map write) = true ↔ _
  induction as with
  | nil => simp [allHoldable]
  | cons a as ih => rw [List.forall_mem_cons, ← ih, List.map_cons, allHoldable, Bool.and_eq_true]

theorem holdable_text (depth : Nat) (s : String) : holdable depth (text s) = true := by
  have is := unescape?_escape s
  cases depth <;> simp [text, holdable, is]

theorem holdable_number {depth : Nat} {written : String} (read : (numeric? written).isSome = true) :
    holdable depth (.number written) = true := by
  cases depth <;> exact read

theorem holdable_nat (depth : Nat) {n : Nat} (fits : n < wordBound) :
    holdable depth (nat n) = true := by
  refine holdable_number ?_
  rw [(numeric?_nat n).1 fits]
  rfl

end SceneScript.Json
