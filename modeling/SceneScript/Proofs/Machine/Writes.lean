import SceneScript.Proofs.Machine.Metered
import SceneScript.Proofs.Machine.Reach

/-!
# The slots that a block writes

A block changes no variables but those in the slots that are written in it, nested blocks and loops
included (`spares_execAll`), neither behind it nor anywhere within (`ReachesIn.spares`).
-/

namespace SceneScript

open Run

mutual

def Instr.writes : Instr → List Nat
  | .store _ slot _ => [slot]
  | .setField .. | .give .. | .eval .. => []
  | .choose _ _ body otherwise => writesIn body ++ writesIn otherwise
  | .loop _ slot _ _ body => slot :: writesIn body

def writesIn : List Instr → List Nat
  | [] => []
  | i :: rest => i.writes ++ writesIn rest

end

mutual

def Instr.inside : Instr → List Instr
  | .store .. | .setField .. | .give .. | .eval .. => []
  | .choose _ _ body otherwise => nestedIn body ++ nestedIn otherwise
  | .loop _ _ _ _ body => nestedIn body

def nestedIn : List Instr → List Instr
  | [] => []
  | i :: rest => i :: (i.inside ++ nestedIn rest)

end

mutual

theorem Instr.writes_subset {i : Instr} : ∀ {j : Instr}, i ∈ j.inside → i.writes ⊆ j.writes
  | .choose p cond body otherwise, mem => by
    rw [Instr.inside, List.mem_append] at mem
    obtain mem | mem := mem
    · exact List.Subset.trans (writesIn_subset mem) (List.subset_append_left _ _)
    · exact List.Subset.trans (writesIn_subset mem) (List.subset_append_right _ _)
  | .loop p slot first last body, mem =>
    List.Subset.trans (writesIn_subset mem) (List.subset_cons_self _ _)

theorem writesIn_subset {i : Instr} : ∀ {body : List Instr}, i ∈ nestedIn body →
    i.writes ⊆ writesIn body
  | j :: rest, mem => by
    rw [nestedIn, List.mem_cons, List.mem_append] at mem
    obtain rfl | mem | mem := mem
    · exact List.subset_append_left _ _
    · exact List.Subset.trans (Instr.writes_subset mem) (List.subset_append_left _ _)
    · exact List.Subset.trans (writesIn_subset mem) (List.subset_append_right _ _)

end

/-- The variables after something that writes the given slots, and before it. -/
structure Spares (writes : List Nat) (locals locals' : Array Value) : Prop where
  size : locals'.size = locals.size
  kept : ∀ slot ∉ writes, locals'[slot]? = locals[slot]?

namespace Spares

variable {writes more : List Nat} {locals locals' locals'' : Array Value}

theorem refl : Spares writes locals locals :=
  ⟨rfl, fun _ _ => rfl⟩

theorem trans (first : Spares writes locals locals') (second : Spares writes locals' locals'') :
    Spares writes locals locals'' where
  size := second.size.trans first.size
  kept slot outside := (second.kept slot outside).trans (first.kept slot outside)

theorem mono (spares : Spares writes locals locals') (sub : writes ⊆ more) :
    Spares more locals locals' :=
  ⟨spares.size, fun slot outside => spares.kept slot fun mem => outside (sub mem)⟩

theorem store {slot : Nat} (mem : slot ∈ writes) (v : Value) :
    Spares writes locals (locals.setIfInBounds slot v) where
  size := Array.size_setIfInBounds
  kept other outside := by
    have apart : slot ≠ other := fun same => outside (same ▸ mem)
    exact Array.getElem?_setIfInBounds_ne apart

end Spares

/-! ## Runs -/

namespace Exec

def Writes (writes : List Nat) (exec : Exec α) : Prop :=
  ∀ limits locals s a locals' s', exec locals limits s = .ok (a, locals') s' →
    Spares writes locals locals'

namespace Writes

variable {α β : Type} {writes : List Nat}

theorem of_ok {limits : Limits} {exec : Exec α} {locals locals' : Array Value} {a : α}
    {s s' : RunState} (inner : Writes writes exec)
    (ran : exec locals limits s = .ok (a, locals') s') : Spares writes locals locals' :=
  inner limits locals s a locals' s' ran

theorem pure (a : α) : Writes writes (pure a : Exec α) := by
  intro limits locals s a locals' s' ran
  cases ran
  exact .refl

theorem lift (run : Run α) : Writes writes (liftM run : Exec α) := by
  intro limits locals s a locals' s' ran
  obtain ⟨_, _, -, ran⟩ := Meter.Scales.bind_ok ran
  cases ran
  exact .refl

theorem bind {exec : Exec α} {next : α → Exec β} (first : Writes writes exec)
    (rest : ∀ a, Writes writes (next a)) : Writes writes (exec >>= next) := by
  intro limits locals s b locals' s' ran
  obtain ⟨⟨a, locals₁⟩, s₁, ofFirst, ofRest⟩ := Meter.Scales.bind_ok ran
  exact (first.of_ok ofFirst).trans ((rest a).of_ok ofRest)

theorem located {p : Position} {exec : Exec α} (inner : Writes writes exec) :
    Writes writes (Exec.located p exec) := by
  intro limits locals s a locals' s' ran
  exact inner.of_ok (Run.located_ok.1 ran)

theorem eval (classes : List HostClass) (e : Code) : Writes writes (Exec.eval classes e) := by
  intro limits locals s v locals' s' ran
  obtain ⟨_, _, -, ran⟩ := Meter.Scales.bind_ok ran
  cases ran
  exact .refl

theorem store {slot : Nat} (mem : slot ∈ writes) (v : Value) :
    Writes writes (Exec.store slot v) := by
  intro limits locals s a locals' s' ran
  change (if slot < locals.size then _ else _ : Exec Unit) locals limits s = _ at ran
  split at ran
  · cases ran
    exact .store mem v
  · cases ran

theorem iterate {body : Int → Exec Flow} (round : ∀ i, Writes writes (body i)) (rounds : Nat)
    (i : Int) : Writes writes (Exec.iterate body rounds i) := by
  induction rounds generalizing i with
  | zero => exact pure _
  | succ rounds ih =>
    refine .bind (round i) fun flow => ?_
    cases flow with
    | next => exact ih (i + 1)
    | give v => exact pure _

theorem mono {more : List Nat} {exec : Exec α} (inner : Writes writes exec)
    (sub : writes ⊆ more) : Writes more exec :=
  fun _ _ _ _ _ _ ran => (inner.of_ok ran).mono sub

end Writes

end Exec

mutual

theorem Instr.writes_exec (classes : List HostClass) :
    ∀ i : Instr, Exec.Writes i.writes (i.exec classes)
  | .store p slot value => by
    rw [Instr.exec]
    refine .located (.bind (.lift _) fun _ => .bind (.eval classes value) fun v => ?_)
    exact .bind (.store List.mem_cons_self v) fun _ => .pure _
  | .setField p target owner name value => by
    rw [Instr.exec]
    refine .located (.bind (.lift _) fun _ => .bind (.eval classes target) fun v => ?_)
    refine .bind (.lift _) fun v => .bind (.eval classes value) fun x => ?_
    exact .bind (.lift _) fun _ => .bind (.lift _) fun _ => .pure _
  | .choose p cond body otherwise => by
    rw [Instr.exec, Instr.writes]
    refine .located (.bind (.lift _) fun _ => .bind (.eval classes cond) fun c => ?_)
    refine .bind (.lift _) fun b => ?_
    split
    · exact (writes_execAll classes body).mono (List.subset_append_left _ _)
    · exact (writes_execAll classes otherwise).mono (List.subset_append_right _ _)
  | .loop p slot first last body => by
    rw [Instr.exec_loop, Instr.writes]
    refine .located (.bind (.lift _) fun _ => .bind (.eval classes first) fun a => ?_)
    refine .bind (.lift _) fun a => .bind (.eval classes last) fun b => .bind (.lift _) fun b => ?_
    refine .iterate (fun i => ?_) _ _
    refine .bind (.lift _) fun _ => .bind (.store List.mem_cons_self _) fun _ => ?_
    exact (writes_execAll classes body).mono (List.subset_cons_self _ _)
  | .give p value => by
    rw [Instr.exec]
    exact .located (.bind (.lift _) fun _ => .bind (.eval classes value) fun v => .pure _)
  | .eval p value => by
    rw [Instr.exec]
    exact .located (.bind (.lift _) fun _ => .bind (.eval classes value) fun v => .pure _)

theorem writes_execAll (classes : List HostClass) :
    ∀ body : List Instr, Exec.Writes (writesIn body) (execAll classes body)
  | [] => by
    rw [execAll]
    exact .pure _
  | i :: rest => by
    rw [execAll, writesIn]
    refine .bind ((i.writes_exec classes).mono (List.subset_append_left _ _)) fun flow => ?_
    cases flow with
    | next => exact (writes_execAll classes rest).mono (List.subset_append_right _ _)
    | give v => exact .pure _

end

theorem Exec.writes_round (classes : List HostClass) (slot : Nat) (body : List Instr) (i : Int) :
    Exec.Writes (slot :: writesIn body) (Exec.round classes slot body i) :=
  .bind (.lift _) fun _ => .bind (.store List.mem_cons_self _) fun _ =>
    (writes_execAll classes body).mono (List.subset_cons_self _ _)

/-! ## Statements reached -/

theorem ReachesIn.spares {limits : Limits} {classes : List HostClass} {body : List Instr}
    {locals locals' : Array Value} {i : Instr} {s s' : RunState}
    (reaches : ReachesIn limits classes body locals s i locals' s') :
    Spares (writesIn body) locals locals' := by
  induction reaches with
  | first => exact .refl
  | @later i rest _ _ _ _ _ _ _ ran _ ih =>
    have first := (i.writes_exec classes).of_ok ran
    rw [writesIn]
    exact (first.mono (List.subset_append_left _ _)).trans
      (ih.mono (List.subset_append_right _ _))
  | @branch p cond body otherwise rest _ _ _ b _ _ _ _ ticked chosen _ ih =>
    refine ih.mono (List.Subset.trans ?_ (List.subset_append_left _ _))
    rw [Instr.writes]
    cases b with
    | true => exact List.subset_append_left _ _
    | false => exact List.subset_append_right _ _
  | @round p slot first last body rest _ _ _ a _ b _ k _ _ _ _ _ _ _ _ ticked from_ to_ fits before
      ticked' stored _ ih =>
    have rounds := (Exec.Writes.iterate (Exec.writes_round classes slot body) _ _).of_ok before
    have store : Spares (slot :: writesIn body) _ _ :=
      (Exec.Writes.store List.mem_cons_self _).of_ok stored
    have inner := ih.mono (List.subset_cons_self slot _)
    exact ((rounds.trans store).trans inner).mono (List.subset_append_left _ _)

end SceneScript
