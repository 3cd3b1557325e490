import SceneScript.Proofs.Machine.Innermost
import SceneScript.Proofs.StatementsKept

/-!
# Where faults are located

A run fails where one of its statements or expressions fails itself, and the fault is located there
(`faults_located`). So a fault of a snippet has a position, unless there is nothing wrong with any
statement: the snippet returns null.
-/

namespace SceneScript

open Run

variable {limits : Limits} {classes : List HostClass} {locals : Array Value} {s s' : RunState}
  {f : Fault} {p : Position} {body : List Instr}

/-! ## Faults of programs -/

/-- Carrying out a block comes to a statement or an expression that fails itself. -/
inductive FailsWithin (limits : Limits) (classes : List HostClass) (body : List Instr)
    (locals : Array Value) (s : RunState) (f : Fault) (s' : RunState) : Prop
  | statement {i locals₁ s₁} : ReachesIn limits classes body locals s i locals₁ s₁ →
      i.FailsItself limits classes locals₁ s₁ f s' →
      FailsWithin limits classes body locals s f s'
  | expression {i locals₁ s₁ part s₂ e s₃} : ReachesIn limits classes body locals s i locals₁ s₁ →
      ComesTo limits classes locals₁ i.parts i.Continues s₁ part s₂ →
      Code.Reaches limits classes locals₁ part s₂ e s₃ →
      e.FailsItself limits classes locals₁ s₃ f s' → FailsWithin limits classes body locals s f s'

theorem execAll_error_iff :
    execAll classes body locals limits s = .error f s' ↔
      FailsWithin limits classes body locals s f s' := by
  constructor
  · intro failed
    obtain ⟨i, locals₁, s₁, reaches, ofStatement, ended⟩ :=
      execAll_innermost body failed (by simp)
    by_cases inner : ∃ part s₂ g s₃, ComesTo limits classes locals₁ i.parts i.Continues s₁ part s₂ ∧
        part.eval classes locals₁ limits s₂ = .error g s₃
    · obtain ⟨part, s₂, g, s₃, comes, ofPart⟩ := inner
      obtain ⟨q, placed⟩ := Code.eval_placed ofPart
      cases ofStatement.symm.trans (Instr.error_of_part comes ofPart placed)
      obtain ⟨e, s₄, reached, itself⟩ := part.origin ofPart
      exact .expression reaches comes reached itself
    · refine .statement reaches ⟨ofStatement, fun part s₂ comes => ?_, ended⟩
      cases ran : part.eval classes locals₁ limits s₂ with
      | ok v s₃ => exact ⟨v, s₃, rfl⟩
      | error g s₃ => exact absurd ⟨part, s₂, g, s₃, comes, ran⟩ inner
  · rintro (⟨reaches, itself⟩ | ⟨reaches, comes, reached, itself⟩)
    · obtain ⟨q, placed⟩ := Instr.exec_placed itself.fails
      exact execAll_of_reached reaches itself.fails (.error placed)
    · obtain ⟨q, placed⟩ := Code.eval_placed itself.fails
      have ofPart := Code.error_of_reached reached itself.fails placed
      exact execAll_of_reached reaches (Instr.error_of_part comes ofPart placed) (.error placed)

theorem Program.run_apply (program : Program) (classes : List HostClass) (param : Value)
    (limits : Limits) (s : RunState) : program.run classes param limits s =
      match execAll classes program.body (program.locals param) limits s with
      | .ok (.next, _) s' => .ok .null s'
      | .ok (.give v, _) s' => .ok v s'
      | .error f s' => .error f s' := by
  change EStateM.bind (EStateM.map Prod.fst
    (execAll classes program.body (program.locals param) limits)) _ s = _
  unfold EStateM.bind EStateM.map
  rcases execAll classes program.body (program.locals param) limits s with
    ⟨⟨_ | v, locals'⟩, s'⟩ | ⟨f, s'⟩ <;> rfl

theorem Program.run_error_iff {program : Program} {param : Value} :
    program.run classes param limits s = .error f s' ↔
      FailsWithin limits classes program.body (program.locals param) s f s' := by
  rw [← execAll_error_iff, Program.run_apply]
  rcases execAll classes program.body (program.locals param) limits s with
    ⟨⟨_ | v, locals'⟩, s₁⟩ | ⟨g, s₁⟩
  · exact ⟨nofun, nofun⟩
  · exact ⟨nofun, nofun⟩
  · exact ⟨by rintro ⟨⟩; rfl, by rintro ⟨⟩; rfl⟩

theorem Program.run_placed {program : Program} {param : Value}
    (failed : program.run classes param limits s = .error f s') : ∃ q, f.position = some q :=
  execAll_placed (execAll_error_iff.2 (Program.run_error_iff.1 failed))

/-! ## Values that are returned -/

theorem Exec.located_gives {exec : Exec Flow} {p : Position} {v : Value} {locals' : Array Value}
    (gives : Exec.located p ((liftM tick : Exec Unit) >>= fun _ => exec) locals limits s =
      .ok (.give v, locals') s') :
    ∃ s₁, tick limits s = .ok () s₁ ∧ exec locals limits s₁ = .ok (.give v, locals') s' := by
  obtain ⟨⟨_, locals₁⟩, s₁, ticked, ran⟩ := Meter.Scales.bind_ok (located_ok.1 gives)
  obtain ⟨_, s₂, ofTick, is⟩ := Meter.Scales.bind_ok ticked
  cases is
  exact ⟨s₁, ofTick, ran⟩

theorem Exec.eval_gives {α : Type} {e : Code} {next : Value → Exec α} {r : α × Array Value}
    (ran : (Exec.eval classes e >>= next) locals limits s = .ok r s') :
    ∃ v s₁, e.eval classes locals limits s = .ok v s₁ ∧ next v locals limits s₁ = .ok r s' := by
  obtain ⟨⟨v, locals₁⟩, s₁, ofEval, ran⟩ := Meter.Scales.bind_ok ran
  obtain ⟨v', s₂, ofCode, is⟩ := Meter.Scales.bind_ok ofEval
  cases is
  exact ⟨v, s₁, ofCode, ran⟩

theorem Exec.lift_gives {α β : Type} {run : Run α} {next : α → Exec β} {r : β × Array Value}
    (ran : ((liftM run : Exec α) >>= next) locals limits s = .ok r s') :
    ∃ a s₁, run limits s = .ok a s₁ ∧ next a locals limits s₁ = .ok r s' := by
  obtain ⟨⟨a, locals₁⟩, s₁, ofLift, ran⟩ := Meter.Scales.bind_ok ran
  obtain ⟨a', s₂, ofRun, is⟩ := Meter.Scales.bind_ok ofLift
  cases is
  exact ⟨a, s₁, ofRun, ran⟩

theorem Exec.never_gives {α : Type} {exec : Exec α} {r : Flow × Array Value}
    (ran : (exec >>= fun _ => pure .next) locals limits s = .ok r s') : r.1 = .next := by
  obtain ⟨_, _, -, is⟩ := Meter.Scales.bind_ok ran
  cases is
  rfl

theorem Run.asBool_ok {p : Position} {v : Value} {b : Bool}
    (ran : Run.located p (liftM v.asBool : Run Bool) limits s = .ok b s') :
    v = .bool b ∧ s' = s := by
  cases v with
  | bool => cases ran; exact ⟨rfl, rfl⟩
  | _ => cases ran

theorem Run.asInt_ok {p : Position} {v : Value} {n : Int64}
    (ran : Run.located p (liftM v.asInt : Run Int64) limits s = .ok n s') :
    v = .int n ∧ s' = s := by
  cases v with
  | int => cases ran; exact ⟨rfl, rfl⟩
  | _ => cases ran

theorem Instr.gives_itself {i : Instr} {v : Value} {locals' : Array Value}
    (gives : i.exec classes locals limits s = .ok (.give v, locals') s')
    (ended : i.EndsBlocks limits classes locals s) : ∃ p e, i = .give p e := by
  cases i with
  | give p e => exact ⟨p, e, rfl⟩
  | store =>
    rw [Instr.exec] at gives
    obtain ⟨s₁, -, ran⟩ := Exec.located_gives gives
    obtain ⟨w, s₂, -, ran⟩ := Exec.eval_gives ran
    cases Exec.never_gives ran
  | eval =>
    rw [Instr.exec] at gives
    obtain ⟨s₁, -, ran⟩ := Exec.located_gives gives
    obtain ⟨w, s₂, -, ran⟩ := Exec.eval_gives ran
    cases ran
  | setField =>
    rw [Instr.exec] at gives
    obtain ⟨s₁, -, ran⟩ := Exec.located_gives gives
    obtain ⟨w, s₂, -, ran⟩ := Exec.eval_gives ran
    obtain ⟨r, s₃, -, ran⟩ := Exec.lift_gives ran
    obtain ⟨x, s₄, -, ran⟩ := Exec.eval_gives ran
    obtain ⟨_, s₅, -, ran⟩ := Exec.lift_gives ran
    cases Exec.never_gives ran
  | choose p cond body otherwise =>
    rw [Instr.exec] at gives
    obtain ⟨s₁, ticked, ran⟩ := Exec.located_gives gives
    obtain ⟨c, s₂, ofCond, ran⟩ := Exec.eval_gives ran
    obtain ⟨b, s₃, isBool, ofBranch⟩ := Exec.lift_gives ran
    obtain ⟨rfl, rfl⟩ := Run.asBool_ok isBool
    -- The block that ran is one that ran to its end, so it did not give `v`.
    obtain ⟨locals₁, s₄, ofBlock⟩ := ended _ _ _ (.branch ticked ofCond)
    cases b <;> cases ofBranch.symm.trans ofBlock
  | loop p slot first last body =>
    rw [Instr.exec_loop] at gives
    obtain ⟨s₁, ticked, ran⟩ := Exec.located_gives gives
    obtain ⟨a, s₂, ofFirst, ran⟩ := Exec.eval_gives ran
    obtain ⟨_, s₃, isInt, behind⟩ := Exec.lift_gives ran
    obtain ⟨rfl, rfl⟩ := Run.asInt_ok isInt
    obtain ⟨b, s₄, ofLast, ran⟩ := Exec.eval_gives behind
    obtain ⟨_, s₅, isInt, rounds⟩ := Exec.lift_gives ran
    obtain ⟨rfl, rfl⟩ := Run.asInt_ok isInt
    obtain ⟨k, fits, locals₁, s₆, before, ofRound⟩ := (Exec.iterate_breaks_iff (by simp)).1 rounds
    obtain ⟨_, s₇, ticked', ofRound⟩ := Exec.lift_gives ofRound
    obtain ⟨⟨_, locals₂⟩, s₈, stored, ofBody⟩ := Meter.Scales.bind_ok ofRound
    obtain ⟨locals₃, s₉, ofBlock⟩ := ended body locals₂ s₈
      (.round ticked ofFirst ofLast fits (Exec.iterate_next_iff.2 before) ticked' stored)
    cases ofBody.symm.trans ofBlock

/-! ## Snippets -/

theorem execAll_give_ne_next (before : List Instr) (p : Position) (e : Code)
    {locals' : Array Value} :
    execAll classes (before ++ [.give p e]) locals limits s ≠ .ok (.next, locals') s' := by
  intro ran
  induction before generalizing locals s with
  | nil =>
    rcases ofGive : (Instr.give p e).exec classes locals limits s with
      ⟨⟨_ | v, locals₁⟩, s₁⟩ | ⟨g, s₁⟩
    · rw [Instr.exec] at ofGive
      obtain ⟨⟨_, _⟩, s₂, -, ofEval⟩ := Meter.Scales.bind_ok (located_ok.1 ofGive)
      obtain ⟨v, s₃, -, is⟩ := Exec.eval_gives ofEval
      cases is
    · cases (execAll_of_other ofGive (by simp)).symm.trans ran
    · cases (execAll_of_other ofGive (by simp)).symm.trans ran
  | cons i before ih =>
    rcases ofFirst : i.exec classes locals limits s with ⟨⟨_ | v, locals₁⟩, s₁⟩ | ⟨g, s₁⟩
    · exact ih ((execAll_of_next ofFirst).symm.trans ran)
    · cases (execAll_of_other ofFirst (by simp)).symm.trans ran
    · cases (execAll_of_other ofFirst (by simp)).symm.trans ran

theorem Becomes.ends_give {own : List Source.Statement} {place : Template.Place}
    {code : List Instr}
    (becomes : List.Forall₂ Becomes (own ++ [Template.returnStatement place]) code) :
    ∃ before p e, code = before ++ [.give p e] := by
  induction own generalizing code with
  | nil =>
    obtain _ | ⟨first, rest⟩ := becomes
    cases first
    cases rest
    exact ⟨[], _, _, rfl⟩
  | cons st own ih =>
    obtain _ | ⟨first, rest⟩ := becomes
    obtain ⟨before, p, e, rfl⟩ := ih rest
    exact ⟨_ :: before, p, e, rfl⟩

theorem compile_ends_give {symbols : SymbolTable} {snippet : String} {program : Program}
    (compiled : compile symbols limits snippet = .ok program) :
    ∃ before p e, program.body = before ++ [.give p e] := by
  obtain ⟨u, parsed, accepted⟩ := compile_ok compiled
  obtain ⟨alone, levels, own, place, -, -, -, surrounds⟩ := Template.parse_wrap parsed
  obtain ⟨-, -, scope, lowers⟩ := Lexical.checkUnit_lowers accepted
  rw [surrounds.body] at lowers
  exact Becomes.ends_give (LowersBody.becomes lowers)

namespace Loaded

variable {loaded : Loaded} {n : Nat}

theorem body_of_give {p : Position} {e : Code} {v : Value} {locals' : Array Value}
    (executes : loaded.Executes limits n (.give p e) locals s)
    (gives : (Instr.give p e).exec loaded.classes locals limits s = .ok (.give v, locals') s') :
    loaded.body limits (.start n) = .ok v s' := by
  obtain ⟨builder, s₀, made, reaches⟩ := executes
  rw [body, bind_apply, made]
  exact (Program.run_apply ..).trans (by rw [execAll_of_reached reaches gives .give])

theorem give_of_body {before : List Instr} {p : Position} {e : Code} {v : Value}
    (ends : loaded.program.body = before ++ [.give p e])
    (ran : loaded.body limits (.start n) = .ok v s') :
    ∃ q value locals s locals', loaded.Executes limits n (.give q value) locals s ∧
      (Instr.give q value).exec loaded.classes locals limits s = .ok (.give v, locals') s' := by
  obtain ⟨builder, s₀, made⟩ : ∃ builder s, newBuilder limits (.start n) = .ok builder s :=
    ⟨_, _, rfl⟩
  rw [body, bind_apply, made] at ran
  dsimp only at ran
  rw [Program.run_apply] at ran
  rcases ofBody : execAll loaded.classes loaded.program.body (loaded.program.locals builder) limits
    s₀ with ⟨⟨_ | w, locals'⟩, s₁⟩ | ⟨g, s₁⟩
  · rw [ends] at ofBody
    exact absurd ofBody (execAll_give_ne_next before p e)
  · rw [ofBody] at ran
    cases ran
    obtain ⟨i, locals₁, s₁, reaches, gives, ended⟩ := execAll_innermost _ ofBody (by simp)
    obtain ⟨q, value, rfl⟩ := Instr.gives_itself gives ended
    exact ⟨q, value, locals₁, s₁, locals', ⟨builder, s₀, made, reaches⟩, gives⟩
  · rw [ofBody] at ran
    cases ran

theorem body_placed (failed : loaded.body limits (.start n) = .error f s') :
    ∃ q, f.position = some q := by
  obtain ⟨builder, s, made⟩ : ∃ builder s, newBuilder limits (.start n) = .ok builder s :=
    ⟨_, _, rfl⟩
  rw [body, bind_apply, made] at failed
  exact Program.run_placed failed

theorem Sound.unlocated_iff {types : List Ty} (sound : loaded.Sound types) (limits : Limits)
    (n : Nat) :
    (∀ f, (loaded.invoke limits n).result = .error f → f.position = none → f = ⟨.noModel, none⟩) ∧
    ((loaded.invoke limits n).result = .error ⟨.noModel, none⟩ ↔
      ∃ s, loaded.body limits (.start n) = .ok .null s) := by
  rcases ran : loaded.body limits (.start n) with ⟨v, s⟩ | ⟨g, s⟩
  · have gives : loaded.Gives limits n v s := by
      obtain ⟨builder, s₀, made⟩ : ∃ builder s, newBuilder limits (.start n) = .ok builder s :=
        ⟨_, _, rfl⟩
      rw [body, bind_apply, made] at ran
      exact ⟨builder, s₀, made, ran⟩
    obtain rfl | ⟨ref, m, rfl, found⟩ := sound.gives_model gives
    · rw [invoke_of_null ran]
      exact ⟨fun f is _ => (Except.error.inj is).symm, fun _ => ⟨s, rfl⟩, fun _ => rfl⟩
    · rw [invoke_of_model ran found]
      refine ⟨fun f is => ?_, fun is => ?_, fun given => ?_⟩
      · cases is
      · cases is
      · obtain ⟨s', is⟩ := given
        cases is
  · obtain ⟨q, placed⟩ := body_placed ran
    rw [invoke_of_error ran]
    constructor
    · rintro _ ⟨⟩ unlocated
      cases unlocated.symm.trans placed
    · refine ⟨fun is => ?_, fun given => ?_⟩
      · cases is
        cases placed
      · obtain ⟨s', is⟩ := given
        cases is

end Loaded

/-- A fault is located at a part that is refused, or at the position of the whole if there is no
such part. -/
def Fault.LocatedAt (f : Fault) (p : Position) (refuses : Code → Prop) : Prop :=
  (∃ part, refuses part ∧ f.position = some part.position) ∨
    (∀ part, ¬refuses part) ∧ f.position = some p

theorem Fault.locatedAt {refuses : Code → Prop}
    (atPart : ∀ part, refuses part → f.position = some part.position)
    (atSelf : (∀ part, ¬refuses part) → f.position = some p) : f.LocatedAt p refuses := by
  by_cases refused : ∃ part, refuses part
  · obtain ⟨part, refused⟩ := refused
    exact .inl ⟨part, refused, atPart part refused⟩
  · have given := not_exists.1 refused
    exact .inr ⟨given, atSelf given⟩

/-- Faults are located. A run of any program fails exactly if it comes to a statement or to an
expression that fails itself, with the fault of that one, which has a position: that of a null
receiver, of a condition that is no boolean or of a bound that is no integer if there is one, and
otherwise that of the statement or the expression itself. So a fault of a compiled snippet without a
position says that there is no model, which is so exactly if a return is carried out that yields
null. -/
theorem faults_located :
    (∀ (program : Program) classes param limits s f s',
      (program.run classes param limits s = .error f s' ↔
        FailsWithin limits classes program.body (program.locals param) s f s') ∧
      (program.run classes param limits s = .error f s' → ∃ q, f.position = some q)) ∧
    (∀ (i : Instr) limits classes locals s f s', i.FailsItself limits classes locals s f s' →
      f.LocatedAt i.position (i.Refuses limits classes locals s)) ∧
    (∀ (e : Code) limits classes locals s f s', e.FailsItself limits classes locals s f s' →
      f.LocatedAt e.position (e.Refuses limits classes locals s)) ∧
    ∀ symbols limits snippet program loaded, compile symbols limits snippet = .ok program →
      load program = .ok loaded → ∀ limits' n,
        (∀ f, (loaded.invoke limits' n).result = .error f → f.position = none →
          f = ⟨.noModel, none⟩) ∧
        ((loaded.invoke limits' n).result = .error ⟨.noModel, none⟩ ↔
          ∃ p e locals s locals' s', loaded.Executes limits' n (.give p e) locals s ∧
            (Instr.give p e).exec loaded.classes locals limits' s =
              .ok (.give .null, locals') s') := by
  refine ⟨fun program classes param limits s f s' => ⟨Program.run_error_iff, Program.run_placed⟩,
    fun i limits classes locals s f s' itself =>
      Fault.locatedAt (fun _ refuses => refuses.place itself.fails) itself.place_self,
    fun e limits classes locals s f s' itself =>
      Fault.locatedAt (fun _ refuses => refuses.place itself.fails) itself.place_self, ?_⟩
  intro symbols limits snippet program loaded compiled loads limits' n
  obtain ⟨u, -, accepted⟩ := compile_ok compiled
  obtain ⟨types, sound⟩ := Loaded.sound_of_accepted (Typing.checkUnit_accepts accepted) loads
  obtain ⟨before, p, e, ends⟩ := compile_ends_give compiled
  obtain ⟨rfl, -⟩ := load_ok loads
  obtain ⟨only, iff⟩ := sound.unlocated_iff limits' n
  refine ⟨only, iff.trans ⟨fun ⟨s', ran⟩ => ?_, ?_⟩⟩
  · obtain ⟨q, value, locals, s, locals', given⟩ := Loaded.give_of_body ends ran
    exact ⟨q, value, locals, s, locals', s', given⟩
  · rintro ⟨q, value, locals, s, locals', s', executes, gives⟩
    exact ⟨s', Loaded.body_of_give executes gives⟩

def dividing : Program where
  entry := ⟨Template.entryPoint, .int, .int⟩
  body := [.eval ⟨1, 1⟩ (.binary ⟨1, 3⟩ .div (.const ⟨1, 1⟩ (.int 1)) (.const ⟨1, 5⟩ (.int 0)))]
  slots := 1
  references := []

/-- The division fails itself, and so its fault has a place; what the empty snippet gives is no
fault without a position unless it gives no model. -/
theorem faults_located_dividing :
    (∃ s', dividing.run [] .null {} (.start 0) = .error ⟨.divisionByZero, some ⟨1, 3⟩⟩ s' ∧
      FailsWithin {} [] dividing.body (dividing.locals .null) (.start 0)
        ⟨.divisionByZero, some ⟨1, 3⟩⟩ s') ∧
    ∃ program loaded, compile .standard {} "" = .ok program ∧ load program = .ok loaded ∧
      ∀ f, (loaded.invoke {} 0).result = .error f → f.position = none → f = ⟨.noModel, none⟩ := by
  obtain ⟨ofPrograms, -, -, ofSnippets⟩ := faults_located
  have failed : ∃ s', dividing.run [] .null {} (.start 0) =
      .error ⟨.divisionByZero, some ⟨1, 3⟩⟩ s' := ⟨_, rfl⟩
  obtain ⟨s', failed⟩ := failed
  obtain ⟨program, compiled, loaded, loads⟩ := compile_empty
  refine ⟨⟨s', failed, (ofPrograms dividing [] .null {} (.start 0) _ s').1.1 failed⟩, program,
    loaded, compiled, loads, ?_⟩
  exact (ofSnippets .standard {} "" program loaded compiled loads {} 0).1

end SceneScript
