import SceneScript.Proofs.Session.Holding

/-!
# How long handles are live

However a session goes on, a handle is live as long as the slot holds its model or a reference to it
is kept, it gives the very model that was built with it, and it does not come back to life
(`Session.handles_live`).
-/

namespace SceneScript.Session

inductive Move where
  | replace (snippet : String)
  | keep (handle : Nat)
  | drop (handle : Nat)

def Move.snippet? : Move → Option String
  | .replace snippet => some snippet
  | .keep _ | .drop _ => none

def step (s : Session) : Move → Session
  | .replace snippet => (s.replace snippet).2
  | .keep handle => (s.keep handle).2
  | .drop handle => s.drop handle

def run (s : Session) (moves : List Move) : Session :=
  moves.foldl step s

def buildsOf (slot : Slot) (snippets : List String) : List Model :=
  (slot.replaceAll snippets).filterMap fun r => r.result.toOption

def builtBy (limits : Limits) (nextModel : Nat) (moves : List Move) : List Model :=
  buildsOf (.empty limits nextModel) (moves.filterMap Move.snippet?)

variable {s : Session} {built : List Model} {i : Nat} {m : Model}

structure Tracks (s : Session) (built : List Model) : Prop extends s.Counted built where
  slot : s.slot.model = s.held.bind fun i => built[i]?

/-! ## Replacements -/

theorem dispose_slot (s : Session) : s.dispose.slot = s.slot := by
  unfold dispose
  split <;> rfl

theorem dispose_kept (s : Session) : s.dispose.kept = s.kept := by
  unfold dispose
  split <;> rfl

/-- A replacement passes the reference of the slot on to the new model, if there is one, and leaves
those that are kept alone. -/
structure Replaces (s : Session) (built : List Model) (r : Replacement) (s' : Session) : Prop where
  counted : s'.Counted (built ++ r.result.toOption.toList)
  slot : s'.slot = r.slot
  held : s'.held = r.result.toOption.map fun _ => built.length
  kept : s'.kept = s.kept

theorem Counted.replaces (counted : s.Counted built) (snippet : String) :
    s.Replaces built (s.slot.replace snippet) (s.replace snippet).2 := by
  obtain ⟨emptied, free⟩ := (counted.slot (s.slot.replace snippet).slot).dispose
  unfold Session.replace
  dsimp only
  split
  · next m given =>
    exact {
      counted := by
        rw [given]
        exact emptied.install free m
      slot := dispose_slot _
      held := by
        rw [given]
        exact congrArg some emptied.size
      kept := dispose_kept _ }
  · next d failed =>
    exact {
      counted := by
        rw [failed]
        simpa [Except.toOption] using emptied
      slot := dispose_slot _
      held := by
        rw [failed]
        exact free
      kept := dispose_kept _ }

/-! ## Moves -/

theorem keep_slot (s : Session) (i : Nat) : (s.keep i).2.slot = s.slot := by
  cases upgraded : s.get? i with
  | none => simp only [keep, upgraded]
  | some r =>
    obtain ⟨h, -, rest⟩ := Option.bind_eq_some_iff.1 upgraded
    obtain ⟨⟨m, store⟩, -, is⟩ := Option.bind_eq_some_iff.1 rest
    cases is
    simp only [keep, upgraded]

theorem drop_slot (s : Session) (i : Nat) : (s.drop i).slot = s.slot := by
  unfold drop
  split
  · split_ifs <;> rfl
  · rfl

theorem buildsOf_cons (slot : Slot) (snippet : String) (rest : List String) :
    buildsOf slot (snippet :: rest) = (slot.replace snippet).result.toOption.toList ++
      buildsOf (slot.replace snippet).slot rest := by
  unfold buildsOf
  rw [Slot.replaceAll, List.filterMap_cons]
  cases (slot.replace snippet).result.toOption <;> rfl

namespace Tracks

theorem start (limits : Limits) (nextModel : Nat) : (start limits nextModel).Tracks [] :=
  ⟨.start limits nextModel, rfl⟩

theorem replace (tracks : s.Tracks built) (snippet : String) :
    (s.replace snippet).2.Tracks (built ++ (s.slot.replace snippet).result.toOption.toList) := by
  have replaces := tracks.replaces snippet
  refine ⟨replaces.counted, ?_⟩
  rw [replaces.slot, replaces.held, (s.slot.replaces snippet).held]
  cases (s.slot.replace snippet).result with
  | ok m => simp [Except.toOption]
  | error d => rfl

theorem keep (tracks : s.Tracks built) (i : Nat) : (s.keep i).2.Tracks built := by
  refine ⟨tracks.toCounted.keep i, ?_⟩
  rw [keep_slot, tracks.slot, tracks.keep_eq]
  split_ifs <;> rfl

theorem drop (tracks : s.Tracks built) (i : Nat) : (s.drop i).Tracks built := by
  refine ⟨tracks.toCounted.drop i, ?_⟩
  rw [drop_slot, tracks.slot, tracks.drop_eq]

theorem run (tracks : s.Tracks built) (moves : List Move) :
    (s.run moves).Tracks (built ++ buildsOf s.slot (moves.filterMap Move.snippet?)) := by
  induction moves generalizing s built with
  | nil => simpa [buildsOf, Slot.replaceAll, Session.run] using tracks
  | cons move rest ih =>
    cases move with
    | replace snippet =>
      have onward := ih (tracks.replace snippet)
      rw [(tracks.replaces snippet).slot, List.append_assoc, ← buildsOf_cons] at onward
      exact onward
    | keep i =>
      have onward := ih (tracks.keep i)
      rw [keep_slot] at onward
      exact onward
    | drop i =>
      have onward := ih (tracks.drop i)
      rw [drop_slot] at onward
      exact onward

end Tracks

/-! ## Handles -/

theorem Counted.step_gone (counted : s.Counted built) (known : i < built.length)
    (gone : s.isLive i = false) (move : Move) : (s.step move).isLive i = false := by
  have unheld : ¬(s.held = some i ∨ i ∈ s.kept) := fun refers => by
    rw [counted.isLive_iff.2 refers] at gone
    cases gone
  rw [← Bool.not_eq_true]
  intro live
  cases move with
  | replace snippet =>
    have replaces := counted.replaces snippet
    rcases replaces.counted.isLive_iff.1 live with held | kept
    -- The model held next is the newest one, and `i` was built before.
    · rw [replaces.held] at held
      obtain ⟨-, -, rfl⟩ := Option.map_eq_some_iff.1 held
      exact Nat.lt_irrefl _ known
    · exact unheld (.inr (replaces.kept ▸ kept))
  | keep j =>
    have refers := (counted.keep j).isLive_iff.1 live
    rw [counted.keep_eq] at refers
    split_ifs at refers with liveJ
    · rcases refers with held | kept
      · exact unheld (.inl held)
      · rcases List.mem_cons.1 kept with rfl | kept
        · rw [liveJ] at gone
          cases gone
        · exact unheld (.inr kept)
    · exact unheld refers
  | drop j =>
    have refers := (counted.drop j).isLive_iff.1 live
    rw [counted.drop_eq] at refers
    exact unheld (refers.imp_right List.mem_of_mem_erase)

theorem Tracks.run_gone (tracks : s.Tracks built) (known : i < built.length)
    (gone : s.isLive i = false) (moves : List Move) : (s.run moves).isLive i = false := by
  induction moves using List.reverseRecOn with
  | nil => exact gone
  | append_singleton moves move ih =>
    rw [Session.run, List.foldl_append]
    have before := tracks.run moves
    refine before.step_gone ?_ ih move
    rw [List.length_append]
    omega

theorem nodup_buildsOf (slot : Slot) (snippets : List String) :
    (buildsOf slot snippets).Nodup := by
  have ids : (buildsOf slot snippets).map Model.id =
      Replacement.givenIn (slot.replaceAll snippets) := List.map_filterMap
  have increasing := (slot.increasing_replaceAll snippets).1
  rw [← ids] at increasing
  exact List.Nodup.of_map Model.id (increasing.imp Nat.ne_of_lt)

structure Resolves (s : Session) (i : Nat) (m : Model) : Prop where
  id : s.handles[i]?.map Handle.id = some m.id
  live : s.isLive i = true ↔ s.slot.model = some m ∨ i ∈ s.kept
  gives : s.resolve? i = if s.isLive i then some m else none
  upgrades : (s.keep i).1 = s.isLive i
  /-- An upgrade that is not kept leaves no trace. -/
  borrows : ∀ m' s', s.get? i = some (m', s') → { s' with store := s'.store.release i } = s
  gone : s.isLive i = false → ∀ moves, (s.run moves).isLive i = false

theorem Tracks.holds_iff (tracks : s.Tracks built) (distinct : built.Nodup)
    (is : built[i]? = some m) : s.held = some i ↔ s.slot.model = some m := by
  rw [tracks.slot, Option.bind_eq_some_iff]
  refine ⟨fun held => ⟨i, held, is⟩, fun ⟨j, held, same⟩ => ?_⟩
  have known := (List.getElem?_eq_some_iff.1 is).1
  rw [held, (List.getElem?_inj known distinct).1 (is.trans same.symm)]

theorem Counted.upgrades (counted : s.Counted built) (i : Nat) : (s.keep i).1 = s.isLive i := by
  rw [counted.keep_eq]
  cases s.isLive i <;> rfl

theorem Tracks.resolves (tracks : s.Tracks built) (distinct : built.Nodup)
    (is : built[i]? = some m) : s.Resolves i m where
  id := by rw [tracks.handle, is]; rfl
  live := by rw [tracks.isLive_iff, tracks.holds_iff distinct is]
  gives := by rw [tracks.resolve?_eq, is]
  upgrades := tracks.upgrades i
  borrows := fun m' s' => tracks.borrows
  gone := tracks.run_gone (List.getElem?_eq_some_iff.1 is).1

/-- After any moves, a handle is live if and only if the slot holds its model or a reference to it
is kept that has not been dropped. As long as it is, it gives the very model that its replacement
built, and a further reference can be kept; once it is not, it never is again. -/
theorem handles_live (limits : Limits) (nextModel : Nat) (moves : List Move) :
    let s := (start limits nextModel).run moves
    let built := builtBy limits nextModel moves
    (∀ i m, built[i]? = some m → s.Resolves i m) ∧
    (∀ i, built.length ≤ i → s.isLive i = false ∧ s.resolve? i = none ∧ (s.keep i).1 = false) ∧
    (∀ i, (s.keep i).2.kept = (if s.isLive i then i :: s.kept else s.kept) ∧
      (s.drop i).kept = s.kept.erase i) ∧
    ∀ snippet, (s.replace snippet).2.kept = s.kept := by
  intro s built
  have tracks : s.Tracks built := (Tracks.start limits nextModel).run moves
  refine ⟨fun i m is => tracks.resolves (nodup_buildsOf _ _) is, fun i beyond => ?_,
    fun i => ⟨?_, ?_⟩, fun snippet => (tracks.replaces snippet).kept⟩
  · have gone : s.isLive i = false := by
      rw [← Bool.not_eq_true]
      exact fun live => absurd (tracks.lt_of_references (tracks.isLive_iff.1 live))
        (Nat.not_lt.2 beyond)
    refine ⟨gone, ?_, (tracks.upgrades i).trans gone⟩
    rw [tracks.resolve?_eq, gone]
    rfl
  · rw [tracks.keep_eq]
    split_ifs <;> rfl
  · rw [tracks.drop_eq]

end SceneScript.Session
