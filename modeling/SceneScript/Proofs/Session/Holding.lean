import SceneScript.Proofs.SlotRuns
import SceneScript.Session.Handle

/-!
# Who holds a model

The models of a session are those that it has built, each with its contents and with as many holders
as there are references to it: that of the slot and those that are kept (`Session.Counted`). Every
operation preserves this, whatever references it makes and releases on the way.
-/

namespace SceneScript

/-! ## References -/

namespace Store

variable (s : Store) (ref i : Nat)

theorem models_hold : (s.hold ref).models[i]? =
    s.models[i]?.map fun c => { c with holders := c.holders + if ref = i then 1 else 0 } := by
  rw [hold, Array.getElem?_modify]
  split
  · rfl
  · simp

theorem models_release : (s.release ref).models[i]? =
    s.models[i]?.map fun c => { c with holders := c.holders - if ref = i then 1 else 0 } := by
  rw [release, Array.getElem?_modify]
  split
  · rfl
  · simp

theorem size_hold : (s.hold ref).models.size = s.models.size := by
  simp [hold]

theorem size_release : (s.release ref).models.size = s.models.size := by
  simp [release]

theorem release_hold : (s.hold ref).release ref = s := by
  have same : ((s.hold ref).release ref).models = s.models := by
    refine Array.ext_getElem? fun i => ?_
    rw [models_release, models_hold, Option.map_map]
    cases s.models[i]? with
    | none => rfl
    | some c => simp
  exact congrArg Store.mk same

end Store

namespace Session

def references (s : Session) (i : Nat) : Nat :=
  s.held.toList.count i + s.kept.count i

/-- The books of a session that has built the given models. -/
structure Counted (s : Session) (built : List Model) : Prop where
  size : s.store.models.size = built.length
  models : ∀ i, s.store.models[i]? = built[i]?.map fun m => Shared.mk m (s.references i)
  handles : s.handles.toList = built.mapIdx fun i m => Handle.mk m.id i
  held : ∀ i ∈ s.held, i < built.length
  kept : ∀ i ∈ s.kept, i < built.length

variable {s : Session} {built : List Model} {i : Nat} {m : Model}

theorem Counted.start (limits : Limits) (nextModel : Nat) : (start limits nextModel).Counted [] where
  size := rfl
  models := fun _ => rfl
  handles := rfl
  held := nofun
  kept := nofun

theorem references_pos : 0 < s.references i ↔ s.held = some i ∨ i ∈ s.kept := by
  rw [references, Nat.add_pos_iff_pos_or_pos, List.count_pos_iff, List.count_pos_iff,
    Option.mem_toList]

namespace Counted

theorem handle (counted : s.Counted built) (i : Nat) :
    s.handles[i]? = built[i]?.map fun m => Handle.mk m.id i := by
  rw [← Array.getElem?_toList, counted.handles, List.getElem?_mapIdx]

theorem lt_of_references (counted : s.Counted built) (refers : s.held = some i ∨ i ∈ s.kept) :
    i < built.length :=
  refers.elim (counted.held i) (counted.kept i)

theorem isLive_iff (counted : s.Counted built) :
    s.isLive i = true ↔ s.held = some i ∨ i ∈ s.kept := by
  unfold isLive Store.holders
  rw [counted.handle]
  cases is : built[i]? with
  | none =>
    refine ⟨nofun, fun refers => ?_⟩
    exact absurd (counted.lt_of_references refers) (Nat.not_lt.2 (List.getElem?_eq_none_iff.1 is))
  | some m => simp only [Option.map_some, counted.models, is, decide_eq_true_eq, references_pos]

theorem getElem?_of_isLive (counted : s.Counted built) (live : s.isLive i = true) :
    ∃ m, built[i]? = some m :=
  ⟨_, List.getElem?_eq_getElem (counted.lt_of_references (counted.isLive_iff.1 live))⟩

theorem get?_eq (counted : s.Counted built) (i : Nat) :
    s.get? i = if s.isLive i then
      built[i]?.map fun m => (m, { s with store := s.store.hold i }) else none := by
  unfold get? isLive Store.holders Store.upgrade?
  rw [counted.handle]
  cases is : built[i]? with
  | none => simp
  | some m =>
    simp only [Option.map_some, counted.models, is, decide_eq_true_eq, Option.bind_eq_bind,
      Option.bind_some]
    split <;> rfl

theorem resolve?_eq (counted : s.Counted built) (i : Nat) :
    s.resolve? i = if s.isLive i then built[i]? else none := by
  rw [resolve?, counted.get?_eq]
  split
  · simp [Function.comp_def]
  · rfl

theorem borrows {s' : Session} (counted : s.Counted built) (upgraded : s.get? i = some (m, s')) :
    { s' with store := s'.store.release i } = s := by
  rw [counted.get?_eq] at upgraded
  split_ifs at upgraded
  obtain ⟨_, -, is⟩ := Option.map_eq_some_iff.1 upgraded
  cases is
  rw [Store.release_hold]

theorem keep_eq (counted : s.Counted built) (i : Nat) :
    s.keep i = if s.isLive i then
      (true, { s with store := s.store.hold i, kept := i :: s.kept }) else (false, s) := by
  rw [Session.keep, counted.get?_eq]
  split_ifs with live
  · obtain ⟨m, is⟩ := counted.getElem?_of_isLive live
    rw [is]
    rfl
  · rfl

/-! ## Operations -/

theorem slot (counted : s.Counted built) (slot : Slot) : { s with slot }.Counted built :=
  ⟨counted.size, counted.models, counted.handles, counted.held, counted.kept⟩

theorem dispose (counted : s.Counted built) :
    s.dispose.Counted built ∧ s.dispose.held = none := by
  unfold Session.dispose
  cases is : s.held with
  | none => exact ⟨counted, is⟩
  | some ref =>
    refine ⟨⟨?_, fun i => ?_, counted.handles, nofun, counted.kept⟩, rfl⟩
    · rw [Store.size_release, counted.size]
    · rw [Store.models_release, counted.models, Option.map_map]
      congr 2
      funext m
      simp [references, is, List.count_singleton]

theorem install (counted : s.Counted built) (free : s.held = none) (m : Model) :
    (s.install m).Counted (built ++ [m]) := by
  unfold Session.install Store.share
  dsimp only
  rw [Store.release_hold]
  refine ⟨?_, fun i => ?_, ?_, ?_, ?_⟩
  · simp [counted.size]
  · rw [Array.getElem?_push, counted.size]
    split
    · next is =>
      have unheld : s.kept.count i = 0 := List.count_eq_zero.2 fun mem =>
        absurd (counted.kept i mem) (by omega)
      simp [is, references, is ▸ unheld]
    · next other =>
      rw [counted.models]
      rcases Nat.lt_or_gt_of_ne other with before | beyond
      · simp [references, free, Ne.symm other, List.getElem?_append_left before]
      · have missing : (built ++ [m])[i]? = none :=
          List.getElem?_eq_none (by simpa using Nat.succ_le_of_lt beyond)
        rw [missing, List.getElem?_eq_none (Nat.le_of_lt beyond)]
        rfl
  · simp [counted.handles, counted.size]
  · simp [counted.size]
  · exact fun i mem => by simpa using Nat.lt_succ_of_lt (counted.kept i mem)

theorem keep (counted : s.Counted built) (i : Nat) : (s.keep i).2.Counted built := by
  rw [counted.keep_eq]
  split_ifs with live
  · have known := counted.lt_of_references (counted.isLive_iff.1 live)
    refine ⟨?_, fun j => ?_, counted.handles, counted.held,
      List.forall_mem_cons.2 ⟨known, counted.kept⟩⟩
    · rw [Store.size_hold, counted.size]
    · rw [Store.models_hold, counted.models, Option.map_map]
      congr 2
      funext m
      simp [references, List.count_cons, Nat.add_assoc]
  · exact counted

theorem drop_eq (counted : s.Counted built) (i : Nat) :
    s.drop i = { s with
      store := if i ∈ s.kept then s.store.release i else s.store
      kept := s.kept.erase i } := by
  unfold Session.drop isKept
  rw [counted.handle]
  by_cases kept : i ∈ s.kept
  · have is := List.getElem?_eq_getElem (counted.kept i kept)
    simp [is, kept]
  · cases is : built[i]? with
    | none => simp [kept, List.erase_of_not_mem]
    | some m => simp [kept, List.erase_of_not_mem]

theorem drop (counted : s.Counted built) (i : Nat) : (s.drop i).Counted built := by
  rw [counted.drop_eq]
  by_cases kept : i ∈ s.kept
  · have once := List.count_pos_iff.2 kept
    rw [if_pos kept]
    refine ⟨?_, fun j => ?_, counted.handles, counted.held,
      fun j mem => counted.kept j (List.mem_of_mem_erase mem)⟩
    · rw [Store.size_release, counted.size]
    · rw [Store.models_release, counted.models, Option.map_map]
      congr 2
      funext m
      by_cases same : i = j
      · subst same
        simp only [references, List.count_erase_self, Function.comp_apply, if_true,
          Shared.mk.injEq, true_and]
        omega
      · simp [references, List.count_erase_of_ne (Ne.symm same), same]
  · rw [if_neg kept, List.erase_of_not_mem kept]
    exact counted

end Counted

end Session

end SceneScript
