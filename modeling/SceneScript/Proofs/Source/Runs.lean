import SceneScript.Source.Parser

/-!
# Runs of parsers

What the small parsers do with the tokens ahead.
-/

namespace SceneScript.Source.Parser

variable {α β : Type} {P : Parsing} {t : Token} {ts : List Token}

theorem bind_run (m : Parser α) (k : α → Parser β) (P : Parsing) (ts : List Token) :
    (m >>= k) P ts =
      match m P ts with
      | .ok (a, left) => k a P left
      | .error f => .error f := by
  change Except.bind (m P ts) (fun r => k r.1 P r.2) = _
  cases m P ts <;> rfl

theorem bind_ok {m : Parser α} {a : α} {left : List Token} (ran : m P ts = .ok (a, left))
    (k : α → Parser β) : (m >>= k) P ts = k a P left := by
  rw [bind_run, ran]

theorem bind_error {m : Parser α} {f : Fault} (ran : m P ts = .error f) (k : α → Parser β) :
    (m >>= k) P ts = .error f := by
  rw [bind_run, ran]

theorem read_bind_run (k : Parsing → Parser β) : (read >>= k) P ts = k P P ts := rfl

def ahead (P : Parsing) : List Token → Token
  | [] => ⟨.finish, P.finish⟩
  | t :: _ => t

theorem peek_run : peek P ts = .ok (ahead P ts, ts) := by
  cases ts <;> rfl

theorem peekKind_run : peekKind P ts = .ok ((ahead P ts).kind, ts) := by
  cases ts <;> rfl

theorem advance_run : advance P ts = .ok (ahead P ts, ts.tail) := by
  cases ts <;> rfl

theorem unexpected_run (wanted : Expectation) :
    (unexpected wanted : Parser α) P ts =
      .error ⟨.expected wanted (ahead P ts).kind, (ahead P ts).position⟩ := by
  cases ts <;> rfl

theorem eat_taken {s : Symbol} (is : (ahead P ts).kind = .symbol s) :
    eat s P ts = .ok (true, ts.tail) := by
  unfold eat
  rw [bind_ok peekKind_run, if_pos is, bind_ok advance_run]
  rfl

theorem eat_left {s : Symbol} (other : (ahead P ts).kind ≠ .symbol s) :
    eat s P ts = .ok (false, ts) := by
  unfold eat
  rw [bind_ok peekKind_run, if_neg other]
  rfl

theorem eatKeyword_taken {k : Keyword} (is : (ahead P ts).kind = .keyword k) :
    eatKeyword k P ts = .ok (true, ts.tail) := by
  unfold eatKeyword
  rw [bind_ok peekKind_run, if_pos is, bind_ok advance_run]
  rfl

theorem eatKeyword_left {k : Keyword} (other : (ahead P ts).kind ≠ .keyword k) :
    eatKeyword k P ts = .ok (false, ts) := by
  unfold eatKeyword
  rw [bind_ok peekKind_run, if_neg other]
  rfl

theorem expect_taken {s : Symbol} (is : (ahead P ts).kind = .symbol s) :
    expect s P ts = .ok ((ahead P ts).position, ts.tail) := by
  unfold expect
  rw [bind_ok peek_run, bind_ok (eat_taken is)]
  rfl

theorem expect_fails {s : Symbol} (other : (ahead P ts).kind ≠ .symbol s) :
    ∃ f, expect s P ts = .error f := by
  unfold expect
  rw [bind_ok peek_run, bind_ok (eat_left other)]
  exact ⟨_, unexpected_run _⟩

theorem expectKeyword_taken {k : Keyword} (is : (ahead P ts).kind = .keyword k) :
    expectKeyword k P ts = .ok ((ahead P ts).position, ts.tail) := by
  unfold expectKeyword
  rw [bind_ok peek_run, bind_ok (eatKeyword_taken is)]
  rfl

theorem expectKeyword_fails {k : Keyword} (other : (ahead P ts).kind ≠ .keyword k) :
    ∃ f, expectKeyword k P ts = .error f := by
  unfold expectKeyword
  rw [bind_ok peek_run, bind_ok (eatKeyword_left other)]
  exact ⟨_, unexpected_run _⟩

theorem identifier_taken {name : String} (is : (ahead P ts).kind = .word name) :
    identifier P ts = .ok (name, ts.tail) := by
  unfold identifier
  rw [bind_ok peekKind_run, is]
  dsimp only
  rw [bind_ok advance_run]
  rfl

theorem identifier_fails (other : ∀ name, (ahead P ts).kind ≠ .word name) :
    ∃ f, identifier P ts = .error f := by
  unfold identifier
  rw [bind_ok peekKind_run]
  cases is : (ahead P ts).kind with
  | word name => exact absurd is (other name)
  | _ => exact ⟨_, unexpected_run _⟩

/-! ## A known token -/

theorem peek_cons (k : Token → Parser β) : (peek >>= k) P (t :: ts) = k t P (t :: ts) := rfl

theorem peekKind_cons (k : Token.Kind → Parser β) :
    (peekKind >>= k) P (t :: ts) = k t.kind P (t :: ts) := rfl

theorem peekPosition_cons (k : Position → Parser β) :
    (peekPosition >>= k) P (t :: ts) = k t.position P (t :: ts) := rfl

theorem advance_cons (k : Token → Parser β) : (advance >>= k) P (t :: ts) = k t P ts := rfl

theorem identifier_cons {name : String} (is : t.kind = .word name) (k : String → Parser β) :
    (identifier >>= k) P (t :: ts) = k name P ts := by
  have is : (ahead P (t :: ts)).kind = .word name := is
  exact bind_ok (identifier_taken is) k

theorem expect_cons {s : Symbol} (is : t.kind = .symbol s) (k : Position → Parser β) :
    (expect s >>= k) P (t :: ts) = k t.position P ts := by
  have is : (ahead P (t :: ts)).kind = .symbol s := is
  exact bind_ok (expect_taken is) k

theorem expectKeyword_cons {w : Keyword} (is : t.kind = .keyword w) (k : Position → Parser β) :
    (expectKeyword w >>= k) P (t :: ts) = k t.position P ts := by
  have is : (ahead P (t :: ts)).kind = .keyword w := is
  exact bind_ok (expectKeyword_taken is) k

theorem eat_cons {s : Symbol} (is : t.kind = .symbol s) (k : Bool → Parser β) :
    (eat s >>= k) P (t :: ts) = k true P ts := by
  have is : (ahead P (t :: ts)).kind = .symbol s := is
  exact bind_ok (eat_taken is) k

theorem eatKeyword_cons {w : Keyword} (is : t.kind = .keyword w) (k : Bool → Parser β) :
    (eatKeyword w >>= k) P (t :: ts) = k true P ts := by
  have is : (ahead P (t :: ts)).kind = .keyword w := is
  exact bind_ok (eatKeyword_taken is) k

/-! ## Rounds of lists -/

theorem fit_of_le {left : List Token} {rounds : Nat} (fewer : left.length ≤ ts.length)
    (fit : (t :: ts).length ≤ rounds + 1) : left.length ≤ rounds :=
  Nat.le_trans fewer (Nat.le_of_succ_le_succ fit)

/-- Induction over the rounds of two lists, of which there are enough for the tokens. -/
theorem rounds_induction
    {motive : ∀ rounds rounds' (ts : List Token), ts.length ≤ rounds → ts.length ≤ rounds' → Prop}
    (ends : ∀ rounds rounds', motive rounds rounds' [] (Nat.zero_le _) (Nat.zero_le _))
    (more : ∀ rounds rounds' t tail fit fit',
      (∀ (left : List Token) (fewer : left.length ≤ tail.length),
        motive rounds rounds' left (fit_of_le fewer fit) (fit_of_le fewer fit')) →
      motive (rounds + 1) (rounds' + 1) (t :: tail) fit fit') :
    ∀ rounds rounds' ts fit fit', motive rounds rounds' ts fit fit'
  | rounds, rounds', [], _, _ => ends rounds rounds'
  | rounds + 1, rounds' + 1, t :: tail, fit, fit' =>
    more rounds rounds' t tail fit fit' fun left _ =>
      rounds_induction ends more rounds rounds' left _ _

/-- The same where a list takes one round more than there are tokens, and a token in each. -/
theorem rounds_induction_lt
    {motive : ∀ rounds rounds' (ts : List Token), ts.length < rounds → ts.length < rounds' → Prop}
    (more : ∀ rounds rounds' (ts : List Token) (fit : ts.length < rounds + 1)
      (fit' : ts.length < rounds' + 1),
      (∀ (left : List Token) (less : left.length < ts.length),
        motive rounds rounds' left (Nat.lt_of_lt_of_le less (Nat.le_of_lt_succ fit))
          (Nat.lt_of_lt_of_le less (Nat.le_of_lt_succ fit'))) →
      motive (rounds + 1) (rounds' + 1) ts fit fit') :
    ∀ rounds rounds' ts fit fit', motive rounds rounds' ts fit fit'
  | 0, _, _, fit, _ => absurd fit (Nat.not_lt_zero _)
  | _ + 1, 0, _, _, fit' => absurd fit' (Nat.not_lt_zero _)
  | rounds + 1, rounds' + 1, ts, fit, fit' =>
    more rounds rounds' ts fit fit' fun left _ =>
      rounds_induction_lt more rounds rounds' left _ _

/-! ## Lists that stop -/

theorem pathTail_stops {rounds : Nat} {p : Path} (stops : (ahead P ts).kind ≠ .symbol .dot) :
    pathTail rounds p P ts = .ok (p, ts) := by
  cases rounds with
  | zero => rfl
  | succ rounds =>
    rw [pathTail, bind_ok (eat_left stops)]
    rfl

theorem imports_stops {rounds : Nat} {found : List Path}
    (stops : (ahead P ts).kind ≠ .keyword .use) :
    imports rounds found P ts = .ok (found.reverse, ts) := by
  cases rounds with
  | zero => rfl
  | succ rounds =>
    rw [imports, bind_ok (eatKeyword_left stops)]
    rfl

theorem chainTail_stops {operator? : Token.Kind → Option BinaryOp} {operand : Parser Expr}
    {rounds : Nat} {left : Expr} (stops : operator? (ahead P ts).kind = none) :
    chainTail operator? operand rounds left P ts = .ok (left, ts) := by
  cases rounds with
  | zero => rfl
  | succ rounds =>
    rw [chainTail, bind_ok peek_run, stops]
    rfl

theorem postfixTail_stops {argument : Parser Expr} {rounds : Nat} {e : Expr}
    (noDot : (ahead P ts).kind ≠ .symbol .dot) (noColon : (ahead P ts).kind ≠ .symbol .doubleColon) :
    postfixTail argument rounds e P ts = .ok (e, ts) := by
  cases rounds with
  | zero => rfl
  | succ rounds =>
    rw [postfixTail, bind_ok peek_run]
    cases kind : (ahead P ts).kind with
    | symbol s => cases s <;> first | rfl | contradiction
    | _ => rfl

/-! ## Blocks -/

section

variable {statement : Parser Statement} {start : Position} {rounds : Nat} {found : List Statement}

theorem statements_closed (is : (ahead P ts).kind = .symbol .closeBrace) :
    statements statement start (rounds + 1) found P ts = .ok (found.reverse, ts.tail) := by
  rw [statements, bind_ok peekKind_run, is]
  dsimp only
  rw [bind_ok advance_run]
  rfl

theorem statements_unclosed (is : (ahead P ts).kind = .finish) :
    ∃ f, statements statement start rounds found P ts = .error f := by
  cases rounds with
  | zero => exact ⟨_, rfl⟩
  | succ rounds =>
    rw [statements, bind_ok peekKind_run, is]
    exact ⟨_, rfl⟩

theorem statements_more (noBrace : (ahead P ts).kind ≠ .symbol .closeBrace)
    (noFinish : (ahead P ts).kind ≠ .finish) :
    statements statement start (rounds + 1) found P ts =
      (do statements statement start rounds ((← statement) :: found) : Parser _) P ts := by
  rw [statements, bind_ok peekKind_run]
  cases is : (ahead P ts).kind with
  | symbol s => cases s <;> first | rfl | contradiction
  | finish => contradiction
  | _ => rfl

end

end SceneScript.Source.Parser
