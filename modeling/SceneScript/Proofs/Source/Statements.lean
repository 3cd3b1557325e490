import SceneScript.Proofs.Source.Agreement

/-!
# Statements before a seam

A `return` begins a statement, so a block that is still open where the snippet ends goes on over the
seam. But then it takes the brace that closes the body, and nothing is left to close the body with:
a statement of a snippet fails in the unit, does there what it does alone, or takes all tokens of the
unit (`Seam.tight_statement`).
-/

namespace SceneScript.Source

namespace Parser

def statement (levels : Nat) : Parser Statement :=
  statementOf (expr levels) (block levels) (conditional levels)

theorem block_succ (levels : Nat) : block (levels + 1) = blockOf (statement levels) := rfl

def sequence (statement : Parser Statement) : Nat → List Statement → Parser (List Statement)
  | 0, found => return found.reverse
  | rounds + 1, found => do
    if (← peekKind) = .finish then return found.reverse
    else sequence statement rounds ((← statement) :: found)

theorem sequence_more {statement : Parser Statement} {rounds : Nat} {found : List Statement}
    {P : Parsing} {ts : List Token} (noFinish : (ahead P ts).kind ≠ .finish) :
    sequence statement (rounds + 1) found P ts =
      (do sequence statement rounds ((← statement) :: found) : Parser _) P ts := by
  rw [sequence, bind_ok peekKind_run, if_neg noFinish]

/-- A text that is a list of statements, each of whose parts may enter the given number of levels. -/
def content (levels : Nat) : Parser (List Statement) := do
  sequence (statement levels) ((← read).rounds + 1) []

end Parser

namespace Seam

open SceneScript.Source.Parser

variable {α β : Type} {c : Seam} {u w ts : List Token}

/-- In the unit, the second parser fails, takes all tokens, or does what the first one does on the
tokens alone. -/
def Follows (c : Seam) (u ts : List Token) (m m' : Parser α) : Prop :=
  c.Agrees u ts m m' ∨ ∃ a, m' c.whole (c.glue ts) = .ok (a, [])

def Loose (c : Seam) (m : Parser α) : Prop :=
  ∀ ⦃u ts⦄, ts <:+ u → c.Fits u → c.Follows u ts m m

def Tight (c : Seam) (m : Parser α) : Prop :=
  ∀ ⦃t tail⦄, c.Fits (t :: tail) → c.Follows tail (t :: tail) m m

def Empties (c : Seam) (m : Parser α) : Prop :=
  (∃ f, m c.whole [] = .error f) ∨ ∃ a, m c.whole [] = .ok (a, [])

/-! ## Rules -/

namespace Follows

variable {m m' : Parser α} {k k' : α → Parser β}

theorem bind (first : c.Agrees w ts m m')
    (rest : ∀ a left, left <:+ w → c.Follows u left (k a) (k' a)) :
    c.Follows u ts (m >>= k) (m' >>= k') := by
  rcases first with ⟨f, failed⟩ | ⟨a, left, short, ran, ran'⟩
  · exact .inl (.bind_fails failed)
  · unfold Follows Agrees
    rw [bind_ok ran, bind_ok ran']
    exact rest a left short

theorem bind_follows (first : c.Follows w ts m m') (empties : ∀ a, c.Empties (k' a))
    (rest : ∀ a left, left <:+ w → c.Follows u left (k a) (k' a)) :
    c.Follows u ts (m >>= k) (m' >>= k') := by
  rcases first with agrees | ⟨a, ends⟩
  · exact .bind agrees rest
  · rcases empties a with ⟨f, failed⟩ | ⟨b, ends'⟩
    · exact .inl (.inl ⟨f, (bind_ok ends k').trans failed⟩)
    · exact .inr ⟨b, (bind_ok ends k').trans ends'⟩

theorem congr {n n' : Parser α} (follows : c.Follows u ts n n')
    (same : m c.alone ts = n c.alone ts)
    (same' : m' c.whole (c.glue ts) = n' c.whole (c.glue ts)) : c.Follows u ts m m' := by
  unfold Follows Agrees
  rwa [same, same']

theorem peekKind_bind {k k' : Token.Kind → Parser β}
    (ends : ts = [] → c.Follows u [] (k .finish) (k' (.keyword .return)))
    (more : ∀ t tail, ts = t :: tail → c.Follows u (t :: tail) (k t.kind) (k' t.kind)) :
    c.Follows u ts (peekKind >>= k) (peekKind >>= k') := by
  cases ts with
  | nil =>
    have ends := ends rfl
    rw [← c.isReturn] at ends
    exact ends
  | cons t tail => exact more t tail rfl

end Follows

theorem Agrees.map {m m' : Parser α} {f : α → β} (agrees : c.Agrees u ts m m') :
    c.Agrees u ts (f <$> m) (f <$> m') := by
  rw [map_eq_pure_bind, map_eq_pure_bind]
  exact agrees.bind fun a left short => .pure short

theorem Agrees.eatKeyword {k : Keyword} (short : ts <:+ u) (other : k ≠ .return) :
    c.Agrees u ts (eatKeyword k) (Parser.eatKeyword k) := by
  cases ts with
  | nil =>
    refine .same short (eatKeyword_left Token.Kind.noConfusion) (eatKeyword_left ?_)
    rw [ahead_glue_nil, c.isReturn]
    exact fun is => other (Token.Kind.keyword.inj is).symm
  | cons t tail =>
    by_cases is : t.kind = .keyword k
    · exact .inr ⟨true, tail, suffix_of_cons short, eatKeyword_taken is, eatKeyword_taken is⟩
    · exact .same short (eatKeyword_left is) (eatKeyword_left is)

theorem Agrees.terminated {m m' : Parser α} {f : α → β} (value : c.Agrees u ts m m') :
    c.Agrees u ts (do let a ← m; let _ ← Parser.expect .semicolon; return f a)
      (do let a ← m'; let _ ← Parser.expect .semicolon; return f a) :=
  value.bind fun _ left short =>
    .bind (.expect ((List.tail_suffix left).trans short)) fun _ _ short => .pure short

theorem Follows.pure {a : α} (short : ts <:+ u) : c.Follows u ts (pure a) (pure a) :=
  .inl (.pure short)

theorem Follows.last {m m' : Parser α} {f : α → β} (follows : c.Follows u ts m m') :
    c.Follows u ts (do return f (← m)) (do return f (← m')) :=
  follows.bind_follows (fun a => .inr ⟨f a, rfl⟩) fun _ _ short => .pure short

/-! ## Simple statements -/

section

variable {t : Token} {tail : List Token} {expr : Parser Expr}

theorem agrees_bindStatement (ofExpr : c.Local expr) (fits : c.Fits (t :: tail)) :
    c.Agrees tail (t :: tail) (bindStatement expr) (bindStatement expr) := by
  have fits := fits.suffix (List.suffix_cons t tail)
  refine .bind (.expectKeyword (List.suffix_refl tail) nofun) fun p left short => ?_
  refine .bind (.identifier ((List.tail_suffix left).trans short)) fun name left short => ?_
  refine .eat_bind (fun d more is => ?_) ?_
  · subst is
    refine .bind (.map (local_typeName (suffix_of_cons short) fits)) fun type left short => ?_
    refine .bind (.expect ((List.tail_suffix left).trans short)) fun _ left short => ?_
    exact .terminated (ofExpr short fits)
  · refine .bind (.pure short) fun type left short => ?_
    refine .bind (.expect ((List.tail_suffix left).trans short)) fun _ left short => ?_
    exact .terminated (ofExpr short fits)

theorem agrees_giveStatement (ofExpr : c.Local expr) (fits : c.Fits (t :: tail)) :
    c.Agrees tail (t :: tail) (giveStatement expr) (giveStatement expr) := by
  have fits := fits.suffix (List.suffix_cons t tail)
  refine .bind (.expectKeyword (List.suffix_refl tail) nofun) fun p left short => ?_
  refine .peekKind_bind (fun is => ?_) fun d more is => ?_
  · subst is
    exact .terminated (.map (ofExpr short fits))
  · subst is
    dsimp only
    split
    · exact .terminated (.pure short)
    · exact .terminated (.map (ofExpr short fits))

theorem agrees_plainStatement (ofExpr : c.Local expr) (fits : c.Fits (t :: tail)) :
    c.Agrees tail (t :: tail) (plainStatement expr) (plainStatement expr) := by
  refine .peekPosition_bind nofun fun _ _ is => ?_
  obtain ⟨rfl, rfl⟩ := List.cons.inj is
  refine .bind (ofExpr (List.suffix_refl _) fits) fun target left short => ?_
  refine .eat_bind (fun d more is => ?_) ?_
  · subst is
    exact .terminated (ofExpr (tail_suffix_of_cons short) (fits.suffix (List.suffix_cons t tail)))
  · exact .bind (.expect (tail_suffix_of_cons short)) fun _ left short => .pure short

end

/-! ## Blocks and the statements with blocks -/

section

variable {expr : Parser Expr} {block : Parser (List Statement)} {deeper statement : Parser Statement}
  {last : Statement}

theorem tight_loopStatement (ofExpr : c.Local expr) (ofBlock : c.Loose block) :
    c.Tight (loopStatement expr block) := by
  intro t tail fits
  have fits := fits.suffix (List.suffix_cons t tail)
  refine .bind (.expectKeyword (List.suffix_refl tail) nofun) fun p left short => ?_
  refine .bind (.identifier ((List.tail_suffix left).trans short)) fun name left short => ?_
  refine .bind (.expectKeyword ((List.tail_suffix left).trans short) nofun) fun _ left short => ?_
  refine .bind (ofExpr short fits) fun first left short => ?_
  refine .bind (.expect ((List.tail_suffix left).trans short)) fun _ left short => ?_
  refine .bind (ofExpr short fits) fun last left short => ?_
  exact .last (ofBlock short fits)

theorem tight_conditionalOf (ofExpr : c.Local expr) (ofBlock : c.Loose block)
    (ofDeeper : c.Tight deeper) : c.Tight (conditionalOf expr block deeper) := by
  intro t tail fits
  have fits := fits.suffix (List.suffix_cons t tail)
  refine .bind (.expectKeyword (List.suffix_refl tail) nofun) fun p left short => ?_
  refine .bind (ofExpr short fits) fun cond left short => ?_
  refine .bind_follows (ofBlock short fits) (fun body => ?_) fun body left short => ?_
  · refine .inr ⟨.ifThen p cond body, ?_⟩
    rw [bind_ok (eatKeyword_left Token.Kind.noConfusion)]
    rfl
  · refine .bind (.eatKeyword short nofun) fun more left short => ?_
    split
    · refine .peekKind_bind (fun is => ?_) fun d more is => ?_
      · subst is
        exact .last (ofBlock short fits)
      · subst is
        split
        · refine .bind_follows (ofDeeper (fits.suffix short)) (fun i => .inr ⟨_, rfl⟩)
            fun i left shorter => .pure (shorter.trans (suffix_of_cons short))
        · exact .last (ofBlock short fits)
    · exact .pure short

/-- Behind the snippet, the parser of statements fails or leaves a closing brace. -/
def Closes (c : Seam) (statement : Parser Statement) (last : Statement) : Prop :=
  (∃ f, statement c.whole (c.glue []) = .error f) ∨
    ∃ brace, brace.kind = .symbol .closeBrace ∧ statement c.whole (c.glue []) = .ok (last, [brace])

theorem statements_glue_nil (closes : c.Closes statement last) (start : Position) (rounds : Nat)
    (found : List Statement) :
    (∃ f, statements statement start rounds found c.whole (c.glue []) = .error f) ∨
      statements statement start rounds found c.whole (c.glue []) =
        .ok ((last :: found).reverse, []) := by
  cases rounds with
  | zero => exact .inl ⟨_, rfl⟩
  | succ rounds =>
    have kind : (ahead c.whole (c.glue [])).kind = .keyword .return := c.isReturn
    rw [statements_more (by simp [kind]) (by simp [kind])]
    rcases closes with ⟨f, failed⟩ | ⟨brace, is, ran⟩
    · exact .inl ⟨f, bind_error failed _⟩
    · rw [bind_ok ran]
      cases rounds with
      | zero => exact .inl ⟨_, rfl⟩
      | succ rounds => exact .inr (statements_closed is)

theorem follows_statements {start : Position} {rounds rounds' : Nat} {found : List Statement}
    (ofStatement : c.Tight statement) (closes : c.Closes statement last) (fits : c.Fits u)
    (short : ts <:+ u) (fit : ts.length < rounds) :
    c.Follows u ts (statements statement start rounds found)
      (statements statement start rounds' found) := by
  induction rounds generalizing rounds' ts found with
  | zero => exact absurd fit (Nat.not_lt_zero _)
  | succ rounds ih =>
    cases ts with
    | nil =>
      rcases statements_glue_nil closes start rounds' found with failed | ends
      · exact .inl (.inl failed)
      · exact .inr ⟨_, ends⟩
    | cons t tail =>
      cases rounds' with
      | zero => exact .inl (.inl ⟨_, rfl⟩)
      | succ rounds' =>
        by_cases isBrace : t.kind = .symbol .closeBrace
        · exact .inl (.inr ⟨found.reverse, tail, suffix_of_cons short, statements_closed isBrace,
            statements_closed isBrace⟩)
        by_cases isFinish : t.kind = .finish
        · exact .inl (.inl (statements_unclosed isFinish))
        have step : c.Follows u (t :: tail)
            (do statements statement start rounds ((← statement) :: found))
            (do statements statement start rounds' ((← statement) :: found)) := by
          refine .bind_follows (ofStatement (fits.suffix short)) (fun i => ?_)
            fun i left shorter => ?_
          · exact .inl (statements_unclosed rfl)
          · exact ih (shorter.trans (suffix_of_cons short))
              (Nat.lt_of_le_of_lt shorter.length_le (Nat.lt_of_succ_lt_succ fit))
        exact step.congr (statements_more isBrace isFinish) (statements_more isBrace isFinish)

theorem loose_blockOf (ofStatement : c.Tight statement) (closes : c.Closes statement last) :
    c.Loose (blockOf statement) := by
  intro u ts short fits
  refine .bind (.expect ((List.tail_suffix ts).trans short)) fun start left short => ?_
  have fits' := fits.suffix short
  exact follows_statements ofStatement closes fits short (Nat.lt_succ_of_le fits'.1)

theorem loose_closedBlock : c.Loose closedBlock := by
  intro u ts short _
  exact .bind (.expect ((List.tail_suffix ts).trans short)) fun _ _ _ => .inl (.fail ..)

theorem tight_statementOf (ofExpr : c.Local expr) (ofBlock : c.Loose block)
    (ofConditional : c.Tight deeper) : c.Tight (statementOf expr block deeper) := by
  intro t tail fits
  refine .peekKind_bind nofun fun _ _ is => ?_
  obtain ⟨rfl, rfl⟩ := List.cons.inj is
  split
  · exact .inl (agrees_bindStatement ofExpr fits)
  · exact ofConditional fits
  · exact tight_loopStatement ofExpr ofBlock fits
  · exact .inl (agrees_giveStatement ofExpr fits)
  · exact .inl (agrees_plainStatement ofExpr fits)

end

theorem follows_levels {last : Statement} (closes : ∀ levels, c.Closes (statement levels) last)
    (levels : Nat) : c.Loose (block levels) ∧ c.Tight (conditional levels) := by
  induction levels with
  | zero =>
    refine ⟨loose_closedBlock, ?_⟩
    rw [conditional_zero]
    exact tight_conditionalOf (local_expr 0) loose_closedBlock fun _ _ _ =>
      .inl (.peekPosition_bind nofun fun _ _ _ => .fail ..)
  | succ levels ih =>
    obtain ⟨ofBlock, ofConditional⟩ := ih
    have ofBlock' : c.Loose (block (levels + 1)) :=
      loose_blockOf (tight_statementOf (local_expr levels) ofBlock ofConditional) (closes levels)
    refine ⟨ofBlock', ?_⟩
    rw [conditional_succ]
    exact tight_conditionalOf (local_expr (levels + 1)) ofBlock' ofConditional

theorem tight_statement {last : Statement} (closes : ∀ levels, c.Closes (statement levels) last)
    (levels : Nat) : c.Tight (statement levels) :=
  tight_statementOf (local_expr levels) (follows_levels closes levels).1
    (follows_levels closes levels).2

/-! ## The outermost block -/

/-- What becomes of the outermost block of a unit: an error, a block that is closed before the end of
the snippet, or else the statements of the snippet alone with one more behind them. -/
theorem statements_cases {last : Statement} (closes : ∀ levels, c.Closes (statement levels) last)
    (levels rounds rounds' : Nat) (start : Position) (found : List Statement) (fits : c.Fits ts)
    (real : ∀ t ∈ ts, t.kind ≠ .finish) (fit : ts.length < rounds) :
    (∃ f, statements (statement levels) start rounds' found c.whole (c.glue ts) = .error f) ∨
      (∃ body left, statements (statement levels) start rounds' found c.whole (c.glue ts) =
        .ok (body, left) ∧ (ahead c.whole left).kind ≠ .finish) ∨
      ∃ own, sequence (statement levels) rounds found c.alone ts = .ok (own, []) ∧
        statements (statement levels) start rounds' found c.whole (c.glue ts) =
          .ok (own ++ [last], []) := by
  induction rounds generalizing rounds' ts found with
  | zero => exact absurd fit (Nat.not_lt_zero _)
  | succ rounds ih =>
    cases ts with
    | nil =>
      rcases statements_glue_nil (closes levels) start rounds' found with failed | ends
      · exact .inl failed
      · exact .inr (.inr ⟨found.reverse, rfl, by rw [ends, List.reverse_cons]⟩)
    | cons t tail =>
      have isReal := real t List.mem_cons_self
      cases rounds' with
      | zero => exact .inl ⟨_, rfl⟩
      | succ rounds' =>
        by_cases isBrace : t.kind = .symbol .closeBrace
        · refine .inr (.inl ⟨found.reverse, c.glue tail, statements_closed isBrace, ?_⟩)
          cases tail with
          | nil =>
            rw [ahead_glue_nil, c.isReturn]
            exact Token.Kind.noConfusion
          | cons d more => exact real d (List.mem_cons_of_mem t List.mem_cons_self)
        have whole : statements (statement levels) start (rounds' + 1) found c.whole
            (c.glue (t :: tail)) = (statement levels >>= fun i =>
              statements (statement levels) start rounds' (i :: found)) c.whole
                (c.glue (t :: tail)) :=
          statements_more isBrace isReal
        rw [whole]
        rcases tight_statement closes levels fits with
          (⟨f, failed⟩ | ⟨i, left, shorter, ran, ran'⟩) | ⟨i, ends⟩
        · exact .inl ⟨f, bind_error failed _⟩
        · have alone : sequence (statement levels) (rounds + 1) found c.alone (t :: tail) =
              sequence (statement levels) rounds (i :: found) c.alone left := by
            refine (sequence_more ?_).trans (bind_ok ran _)
            exact isReal
          rw [bind_ok ran', alone]
          have short := shorter.trans (List.suffix_cons t tail)
          exact ih rounds' (i :: found) (fits.suffix short) (fun d mem => real d (short.subset mem))
            (Nat.lt_of_le_of_lt shorter.length_le (Nat.lt_of_succ_lt_succ fit))
        · -- Nothing is left of the unit, so its body stays open.
          rw [bind_ok ends]
          exact .inl (statements_unclosed rfl)

theorem block_cases {last : Statement} (closes : ∀ levels, c.Closes (statement levels) last)
    (levels : Nat) (start : Position) (fits : c.Fits ts) (real : ∀ t ∈ ts, t.kind ≠ .finish) :
    (∃ f, block (levels + 1) c.whole (⟨.symbol .openBrace, start⟩ :: c.glue ts) = .error f) ∨
      (∃ body left, block (levels + 1) c.whole (⟨.symbol .openBrace, start⟩ :: c.glue ts) =
        .ok (body, left) ∧ (ahead c.whole left).kind ≠ .finish) ∨
      ∃ own, content levels c.alone ts = .ok (own, []) ∧
        block (levels + 1) c.whole (⟨.symbol .openBrace, start⟩ :: c.glue ts) =
          .ok (own ++ [last], []) := by
  rw [block_succ, blockOf, expect_cons rfl, read_bind_run, content, read_bind_run]
  exact statements_cases closes levels _ _ start [] fits real (Nat.lt_succ_of_le fits.1)

end Seam

end SceneScript.Source
