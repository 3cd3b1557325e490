import SceneScript.Proofs.Lexical.Interpreter
import SceneScript.Proofs.Machine.Safe

/-!
# Runs that mirror each other

A run that may be stuck mirrors another run if it never is and does the same: it changes the state
alike, and ends with a related result or the same fault.
-/

namespace SceneScript.Lexical

open Run

variable {α β γ δ : Type}

def Mirrors (m : OptionT Run α) (n : Run β) (post : α → β → Prop) : Prop :=
  ∀ limits s, match n limits s with
    | .ok b s' => ∃ a, m.run limits s = .ok (some a) s' ∧ post a b
    | .error f s' => m.run limits s = .error f s'

namespace Mirrors

variable {m : OptionT Run α} {n : Run β} {post : α → β → Prop}

theorem of_ok (mirrors : Mirrors m n post) {limits : Limits} {s s' : RunState} {b : β}
    (ran : n limits s = .ok b s') : ∃ a, m.run limits s = .ok (some a) s' ∧ post a b := by
  have same := mirrors limits s
  rwa [ran] at same

theorem of_error (mirrors : Mirrors m n post) {limits : Limits} {s s' : RunState} {f : Fault}
    (ran : n limits s = .error f s') : m.run limits s = .error f s' := by
  have same := mirrors limits s
  rwa [ran] at same

theorem pure {a : α} {b : β} (holds : post a b) : Mirrors (pure a) (pure b) post :=
  fun _ _ => ⟨a, rfl, holds⟩

theorem run_bind (m : OptionT Run α) (k : α → OptionT Run γ) (limits : Limits) (s : RunState) :
    (m >>= k).run limits s =
      match m.run limits s with
      | .ok (some a) s' => (k a).run limits s'
      | .ok none s' => .ok none s'
      | .error f s' => .error f s' := by
  rw [OptionT.run_bind, Option.elimM, bind_apply]
  rcases m.run limits s with ⟨_ | a, s'⟩ | ⟨f, s'⟩ <;> rfl

theorem bind {k : α → OptionT Run γ} {l : β → Run δ} {post' : γ → δ → Prop}
    (first : Mirrors m n post) (rest : ∀ a b, post a b → Mirrors (k a) (l b) post') :
    Mirrors (m >>= k) (n >>= l) post' := by
  intro limits s
  rw [bind_apply, run_bind]
  cases ran : n limits s with
  | ok b s' =>
    obtain ⟨a, same, holds⟩ := first.of_ok ran
    rw [same]
    exact rest a b holds limits s'
  | error f s' => rw [first.of_error ran]

theorem lift (n : Run β) : Mirrors (liftM n) n Eq := by
  intro limits s
  have lifted : (liftM n : OptionT Run β).run limits s = (some <$> n) limits s := rfl
  rw [lifted]
  show match n limits s with | .ok b s' => _ | .error f s' => _
  rw [map_eq_pure_bind, bind_apply]
  cases n limits s with
  | ok b s' => exact ⟨b, rfl, rfl⟩
  | error f s' => rfl

theorem mono {weaker : α → β → Prop} (mirrors : Mirrors m n post)
    (weaken : ∀ a b, post a b → weaker a b) : Mirrors m n weaker := by
  intro limits s
  cases ran : n limits s with
  | ok b s' =>
    obtain ⟨a, same, holds⟩ := mirrors.of_ok ran
    exact ⟨a, same, weaken a b holds⟩
  | error f s' => exact mirrors.of_error ran

theorem run_located (p : Position) (n : Run β) (limits : Limits) (s : RunState) :
    Run.located p n limits s =
      match n limits s with
      | .ok b s' => .ok b s'
      | .error f s' => .error (f.locate p) s' :=
  rfl

theorem located (p : Position) (mirrors : Mirrors m n post) :
    Mirrors (Lexical.located p m) (Run.located p n) post := by
  intro limits s
  have same : (Lexical.located p m).run limits s = Run.located p m.run limits s := rfl
  rw [same, run_located, run_located]
  cases ran : n limits s with
  | ok b s' =>
    obtain ⟨a, same, holds⟩ := mirrors.of_ok ran
    rw [same]
    exact ⟨a, rfl, holds⟩
  | error f s' => rw [mirrors.of_error ran]

theorem found_bind {o : Option γ} {c : γ} {k : γ → OptionT Run α} (is : o = some c)
    (mirrors : Mirrors (k c) n post) : Mirrors (found o >>= k) n post := by
  subst is
  intro limits s
  rw [run_bind]
  exact mirrors limits s

theorem step (p : Position) (mirrors : Mirrors m n post) :
    Mirrors (Lexical.located p do tick; m) (Run.located p do tick; n) post :=
  .located p (.bind (.lift tick) fun _ _ _ => mirrors)

theorem run_eq {m : OptionT Run β} (mirrors : Mirrors m n Eq) : m.run = some <$> n := by
  funext limits s
  rw [map_eq_pure_bind, bind_apply]
  cases ran : n limits s with
  | ok b s' =>
    obtain ⟨a, same, rfl⟩ := mirrors.of_ok ran
    exact same
  | error f s' => exact mirrors.of_error ran

theorem unique {m : OptionT Run β} {n' : Run β} (mirrors : Mirrors m n Eq)
    (mirrors' : Mirrors m n' Eq) : n = n' := by
  funext limits s
  have same := congrFun (congrFun (mirrors.run_eq.symm.trans mirrors'.run_eq) limits) s
  rw [map_eq_pure_bind, map_eq_pure_bind, bind_apply, bind_apply] at same
  cases ran : n limits s <;> cases ran' : n' limits s <;>
    rw [ran, ran'] at same <;> cases same <;> rfl

/-! ## Runs over scopes and over slots -/

section

variable {scopes : Scopes} {locals : Array Value} {exec : Exec α} {exec' : SceneScript.Exec β}
  {next : α → Exec γ} {next' : β → SceneScript.Exec δ}
  {ends : α × Scopes → β × Array Value → Prop} {ends' : γ × Scopes → δ × Array Value → Prop}

theorem exec_bind (first : Mirrors (exec scopes) (exec' locals) ends)
    (rest : ∀ r r', ends r r' → Mirrors (next r.1 r.2) (next' r'.1 r'.2) ends') :
    Mirrors ((exec >>= next) scopes) ((exec' >>= next') locals) ends' :=
  bind first rest

theorem exec_get_bind {next : Scopes → Exec γ} {next' : SceneScript.Exec δ}
    (mirrors : Mirrors (next scopes scopes) (next' locals) ends') :
    Mirrors ((get >>= next) scopes) (next' locals) ends' :=
  mirrors

theorem exec_modify_bind {f : Scopes → Scopes} {next : Unit → Exec γ} {next' : SceneScript.Exec δ}
    (mirrors : Mirrors (next () (f scopes)) (next' locals) ends') :
    Mirrors ((modify f >>= next) scopes) (next' locals) ends' :=
  mirrors

theorem exec_lift_bind (first : Mirrors m n post)
    (rest : ∀ a b, post a b → Mirrors (next a scopes) (next' b locals) ends') :
    Mirrors (((liftM m : Exec α) >>= next) scopes) (((liftM n : SceneScript.Exec β) >>= next') locals)
      ends' := by
  have lifted : Mirrors ((liftM m : Exec α) scopes) ((liftM n : SceneScript.Exec β) locals)
      fun r r' => post r.1 r'.1 ∧ r.2 = scopes ∧ r'.2 = locals :=
    bind first fun a b holds => pure ⟨holds, rfl, rfl⟩
  refine exec_bind lifted fun r r' after => ?_
  obtain ⟨a, scopes⟩ := r
  obtain ⟨b, locals⟩ := r'
  obtain ⟨holds, rfl, rfl⟩ := after
  exact rest a b holds

theorem exec_run_bind {n : Run β} {next : β → Exec γ}
    (rest : ∀ b, Mirrors (next b scopes) (next' b locals) ends') :
    Mirrors (((liftM n : Exec β) >>= next) scopes) (((liftM n : SceneScript.Exec β) >>= next') locals)
      ends' :=
  exec_lift_bind (lift n) fun a _ same => same ▸ rest a

theorem exec_eval_bind {classes : List HostClass} {e : Code} {m : OptionT Run Value}
    {next : Value → Exec γ} {next' : Value → SceneScript.Exec δ}
    (first : Mirrors m (e.eval classes locals) Eq)
    (rest : ∀ v, Mirrors (next v scopes) (next' v locals) ends') :
    Mirrors (((liftM m : Exec Value) >>= next) scopes)
      ((SceneScript.Exec.eval classes e >>= next') locals) ends' :=
  exec_lift_bind first fun v _ same => same ▸ rest v

theorem exec_found_bind {o : Option γ} {c : γ} {next : γ → Exec α} (is : o = some c)
    (mirrors : Mirrors (next c scopes) (exec' locals) ends) :
    Mirrors (((liftM (found o) : Exec γ) >>= next) scopes) (exec' locals) ends := by
  subst is
  exact mirrors

theorem exec_inScope {ends' : α × Scopes → β × Array Value → Prop}
    (inner : Mirrors (exec ([] :: scopes)) (exec' locals) ends)
    (leave : ∀ r r', ends r r' → ends' (r.1, r.2.tail) r') :
    Mirrors (Exec.inScope exec scopes) (exec' locals) ends' := by
  rw [← bind_pure (exec' locals)]
  exact inner.bind fun r r' after => .pure (leave r r' after)

theorem exec_step (p : Position) (mirrors : Mirrors (exec scopes) (exec' locals) ends) :
    Mirrors (Exec.located p (do tick; exec) scopes)
      (SceneScript.Exec.located p (do tick; exec') locals) ends :=
  .located p (exec_run_bind fun _ => mirrors)

end

end Mirrors

end SceneScript.Lexical
