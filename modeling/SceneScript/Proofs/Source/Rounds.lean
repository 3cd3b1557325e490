import SceneScript.Proofs.Source.Runs

/-!
# Lists end by themselves

A list takes a token in every round, so it ends before it runs out of rounds if there are as many of
them as there are tokens ahead. More rounds than that make no difference to what a parser does
(`steady_unit`, `steady_expr`): it is the tokens that end every loop.
-/

namespace SceneScript.Source

/-- Two ways to read the same text that allow for lists of different lengths. -/
structure Lengthening where
  low : Parsing
  high : Parsing
  sameFinish : low.finish = high.finish
  sameDepth : low.maxDepth = high.maxDepth

namespace Lengthening

open SceneScript.Source.Parser

variable {α β : Type} {c : Lengthening} {ts : List Token}

def Fits (c : Lengthening) (ts : List Token) : Prop :=
  ts.length ≤ c.low.rounds ∧ ts.length ≤ c.high.rounds

theorem Fits.of_le {left : List Token} (fits : c.Fits ts) (fewer : left.length ≤ ts.length) :
    c.Fits left :=
  ⟨Nat.le_trans fewer fits.1, Nat.le_trans fewer fits.2⟩

/-- On these tokens the two parsers do the same and leave no more of them. -/
structure Same (c : Lengthening) (ts : List Token) (m m' : Parser α) : Prop where
  same : m c.low ts = m' c.high ts
  fewer : ∀ a left, m c.low ts = .ok (a, left) → left.length ≤ ts.length

def Steady (c : Lengthening) (m : Parser α) : Prop :=
  ∀ ⦃ts⦄, c.Fits ts → c.Same ts m m

/-! ## Rules -/

namespace Same

variable {m m' : Parser α} {k k' : α → Parser β}

theorem of_ok {a : α} {left : List Token} (ran : m c.low ts = .ok (a, left))
    (ran' : m' c.high ts = .ok (a, left)) (fewer : left.length ≤ ts.length) :
    c.Same ts m m' where
  same := ran.trans ran'.symm
  fewer b left' is := by
    cases ran.symm.trans is
    exact fewer

theorem pure (a : α) : c.Same ts (pure a) (pure a) :=
  of_ok rfl rfl (Nat.le_refl _)

theorem fail (error : Error) (p : Position) :
    c.Same ts (fail error p : Parser α) (Parser.fail error p) where
  same := rfl
  fewer := nofun

theorem bind_of (first : c.Same ts m m')
    (rest : ∀ a left, m c.low ts = .ok (a, left) → c.Same left (k a) (k' a)) :
    c.Same ts (m >>= k) (m' >>= k') := by
  cases ran : m c.low ts with
  | error f =>
    have ran' := first.same.symm.trans ran
    refine ⟨(bind_error ran k).trans (bind_error ran' k').symm, fun a left is => ?_⟩
    cases (bind_error ran k).symm.trans is
  | ok r =>
    obtain ⟨a, left⟩ := r
    have ran' := first.same.symm.trans ran
    have rest := rest a left ran
    refine ⟨(bind_ok ran k).trans (rest.same.trans (bind_ok ran' k').symm), fun b left' is => ?_⟩
    have fewer := rest.fewer b left' ((bind_ok ran k).symm.trans is)
    exact Nat.le_trans fewer (first.fewer a left ran)

theorem bind (first : c.Same ts m m')
    (rest : ∀ a left, left.length ≤ ts.length → c.Same left (k a) (k' a)) :
    c.Same ts (m >>= k) (m' >>= k') :=
  first.bind_of fun a left ran => rest a left (first.fewer a left ran)

theorem read_bind {k k' : Parsing → Parser β} (rest : c.Same ts (k c.low) (k' c.high)) :
    c.Same ts (read >>= k) (read >>= k') :=
  ⟨rest.same, rest.fewer⟩

theorem peek_bind {k k' : Token → Parser β}
    (ends : ts = [] → c.Same [] (k ⟨.finish, c.low.finish⟩) (k' ⟨.finish, c.high.finish⟩))
    (more : ∀ t tail, ts = t :: tail → c.Same (t :: tail) (k t) (k' t)) :
    c.Same ts (peek >>= k) (peek >>= k') := by
  cases ts with
  | nil => exact ⟨(ends rfl).same, (ends rfl).fewer⟩
  | cons t tail => exact ⟨(more t tail rfl).same, (more t tail rfl).fewer⟩

theorem advance_cons {k k' : Token → Parser β} {t : Token} (rest : c.Same ts (k t) (k' t)) :
    c.Same (t :: ts) (advance >>= k) (advance >>= k') where
  same := rest.same
  fewer a left is := Nat.le_succ_of_le (rest.fewer a left is)

end Same

namespace Steady

variable {m : Parser α} {k : α → Parser β}

theorem pure (a : α) : c.Steady (pure a) :=
  fun _ _ => .pure a

theorem fail (error : Error) (p : Position) : c.Steady (fail error p : Parser α) :=
  fun _ _ => .fail error p

theorem bind (first : c.Steady m) (rest : ∀ a, c.Steady (k a)) : c.Steady (m >>= k) :=
  fun _ fits => (first fits).bind fun a _ fewer => rest a (fits.of_le fewer)

theorem map {f : α → β} (first : c.Steady m) : c.Steady (f <$> m) := by
  rw [map_eq_pure_bind]
  exact first.bind fun a => .pure (f a)

end Steady

/-! ## Tokens -/

theorem ahead_eq (ts : List Token) : ahead c.low ts = ahead c.high ts := by
  cases ts with
  | nil => rw [ahead, ahead, c.sameFinish]
  | cons t ts => rfl

theorem steady_peek : c.Steady peek :=
  fun ts _ => .of_ok peek_run (peek_run.trans (by rw [ahead_eq])) (Nat.le_refl _)

theorem steady_peekKind : c.Steady peekKind :=
  steady_peek.bind fun t => .pure t.kind

theorem steady_peekPosition : c.Steady peekPosition :=
  steady_peek.bind fun t => .pure t.position

theorem steady_advance : c.Steady advance := by
  intro ts _
  refine .of_ok advance_run (advance_run.trans (by rw [ahead_eq])) ?_
  rw [List.length_tail]
  exact Nat.sub_le _ _

theorem steady_eat (s : Symbol) : c.Steady (eat s) := by
  refine steady_peekKind.bind fun kind => ?_
  split
  · exact steady_advance.bind fun _ => .pure true
  · exact .pure false

theorem steady_eatKeyword (k : Keyword) : c.Steady (eatKeyword k) := by
  refine steady_peekKind.bind fun kind => ?_
  split
  · exact steady_advance.bind fun _ => .pure true
  · exact .pure false

theorem steady_unexpected (wanted : Expectation) : c.Steady (unexpected wanted : Parser α) :=
  steady_peek.bind fun _ => .fail _ _

theorem steady_expect (s : Symbol) : c.Steady (expect s) := by
  refine steady_peek.bind fun t => (steady_eat s).bind fun taken => ?_
  split
  · exact .pure t.position
  · exact steady_unexpected _

theorem steady_expectKeyword (k : Keyword) : c.Steady (expectKeyword k) := by
  refine steady_peek.bind fun t => (steady_eatKeyword k).bind fun taken => ?_
  split
  · exact .pure t.position
  · exact steady_unexpected _

theorem steady_identifier : c.Steady identifier := by
  refine steady_peekKind.bind fun kind => ?_
  split
  · exact steady_advance.bind fun _ => .pure _
  · exact steady_unexpected _

def Chooses (m : Parser Bool) (ts : List Token) : Prop :=
  (∀ P, m P ts = .ok (false, ts)) ∨ ∃ t tail, ts = t :: tail ∧ ∀ P, m P ts = .ok (true, tail)

theorem chooses_eat (s : Symbol) (ts : List Token) : Chooses (eat s) ts := by
  cases ts with
  | nil => exact .inl fun P => eat_left Token.Kind.noConfusion
  | cons t tail =>
    by_cases is : t.kind = .symbol s
    · exact .inr ⟨t, tail, rfl, fun P => eat_taken is⟩
    · exact .inl fun P => eat_left is

theorem chooses_eatKeyword (k : Keyword) (ts : List Token) : Chooses (eatKeyword k) ts := by
  cases ts with
  | nil => exact .inl fun P => eatKeyword_left Token.Kind.noConfusion
  | cons t tail =>
    by_cases is : t.kind = .keyword k
    · exact .inr ⟨t, tail, rfl, fun P => eatKeyword_taken is⟩
    · exact .inl fun P => eatKeyword_left is

theorem Chooses.bind {m : Parser Bool} {k k' : Bool → Parser β} (chooses : Chooses m ts)
    (yes : ∀ t tail, ts = t :: tail → c.Same tail (k true) (k' true))
    (no : c.Same ts (k false) (k' false)) : c.Same ts (m >>= k) (m >>= k') := by
  obtain left | ⟨t, tail, rfl, taken⟩ := chooses
  · refine .bind_of (.of_ok (left _) (left _) (Nat.le_refl _)) fun a rest ran => ?_
    cases (left _).symm.trans ran
    exact no
  · refine .bind_of (.of_ok (taken _) (taken _) (Nat.le_succ _)) fun a rest ran => ?_
    cases (taken _).symm.trans ran
    exact yes t tail rfl

/-! ## Paths and types -/

theorem same_pathTail {rounds rounds' : Nat} (fits : c.Fits ts) (fit : ts.length ≤ rounds)
    (fit' : ts.length ≤ rounds') (p : Path) :
    c.Same ts (pathTail rounds p) (pathTail rounds' p) := by
  induction rounds, rounds', ts, fit, fit' using rounds_induction generalizing p with
  | ends rounds rounds' =>
    exact .of_ok (pathTail_stops Token.Kind.noConfusion) (pathTail_stops Token.Kind.noConfusion)
      (Nat.le_refl _)
  | more rounds rounds' t tail _ _ ih =>
    have fits := fits.of_le (Nat.le_succ tail.length)
    refine (chooses_eat .dot _).bind (fun _ _ is => ?_) (.pure p)
    obtain ⟨rfl, rfl⟩ := List.cons.inj is
    exact (steady_identifier fits).bind fun name left fewer =>
      ih left fewer (fits.of_le fewer) (p.push name)

theorem steady_path : c.Steady path := by
  refine steady_peekPosition.bind fun p => steady_identifier.bind fun first => fun ts fits => ?_
  exact .read_bind (same_pathTail fits fits.1 fits.2 _)

theorem steady_typeName : c.Steady typeName :=
  steady_path.bind fun p => .pure p.toTypeName

/-! ## Expressions -/

theorem steady_bounded (e : Expr) : c.Steady (bounded e) := by
  intro ts _
  refine .read_bind ?_
  rw [c.sameDepth]
  split
  · exact .pure e
  · exact .fail _ _

theorem steady_tooDeepHere : c.Steady (tooDeepHere : Parser α) :=
  steady_peekPosition.bind fun p => .fail _ p

section

variable {operator? : Token.Kind → Option BinaryOp} {operand inner : Parser Expr}
  {rounds rounds' : Nat}

theorem same_chainTail (ofOperand : c.Steady operand) (ends : operator? .finish = none)
    (fits : c.Fits ts) (fit : ts.length ≤ rounds) (fit' : ts.length ≤ rounds') (left : Expr) :
    c.Same ts (chainTail operator? operand rounds left)
      (chainTail operator? operand rounds' left) := by
  induction rounds, rounds', ts, fit, fit' using rounds_induction generalizing left with
  | ends rounds rounds' =>
    exact .of_ok (chainTail_stops ends) (chainTail_stops ends) (Nat.le_refl _)
  | more rounds rounds' t tail _ _ ih =>
    have fits := fits.of_le (Nat.le_succ tail.length)
    refine .peek_bind nofun fun _ _ is => ?_
    obtain ⟨rfl, rfl⟩ := List.cons.inj is
    cases operator? t.kind with
    | none => exact .pure left
    | some op =>
      refine .advance_cons ((ofOperand fits).bind fun right left' fewer => ?_)
      refine (steady_bounded _ (fits.of_le fewer)).bind fun e left'' fewer' => ?_
      have fewer := Nat.le_trans fewer' fewer
      exact ih left'' fewer (fits.of_le fewer) e

theorem steady_chain (ofOperand : c.Steady operand) (ends : operator? .finish = none) :
    c.Steady (chain operator? operand) := by
  refine ofOperand.bind fun left => fun ts fits => ?_
  exact .read_bind (same_chainTail ofOperand ends fits fits.1 fits.2 left)

theorem steady_binaryLevels (ofUnary : c.Steady operand) : c.Steady (binaryLevels operand) :=
  steady_chain (steady_chain (steady_chain (steady_chain (steady_chain (steady_chain ofUnary rfl)
    rfl) rfl) rfl) rfl) rfl

theorem same_argumentTail (ofInner : c.Steady inner) (fits : c.Fits ts) (fit : ts.length < rounds)
    (fit' : ts.length < rounds') (found : List Expr) :
    c.Same ts (argumentTail inner rounds found) (argumentTail inner rounds' found) := by
  induction rounds, rounds', ts, fit, fit' using rounds_induction_lt generalizing found with
  | more rounds rounds' ts _ _ ih =>
    refine (ofInner fits).bind fun e left fewer => ?_
    have fits := fits.of_le fewer
    refine (chooses_eat .comma _).bind (fun t tail is => ?_) ?_
    · subst is
      exact ih tail fewer (fits.of_le (Nat.le_succ _)) _
    · exact ((steady_expect .closeParen) fits).bind fun _ _ _ => .pure _

theorem steady_arguments (ofInner : c.Steady inner) : c.Steady (arguments inner) := by
  refine (steady_expect .openParen).bind fun _ => (steady_eat .closeParen).bind fun taken => ?_
  split
  · exact .pure []
  · intro ts fits
    exact .read_bind (same_argumentTail ofInner fits (Nat.lt_succ_of_le fits.1)
      (Nat.lt_succ_of_le fits.2) [])

theorem steady_member (ofInner : c.Steady inner) : c.Steady (member inner) := by
  refine steady_identifier.bind fun name => steady_peekKind.bind fun kind => ?_
  split
  · exact (steady_arguments ofInner).bind fun args => .pure _
  · exact .pure _

theorem same_postfixTail (ofInner : c.Steady inner) (fits : c.Fits ts) (fit : ts.length ≤ rounds)
    (fit' : ts.length ≤ rounds') (e : Expr) :
    c.Same ts (postfixTail inner rounds e) (postfixTail inner rounds' e) := by
  induction rounds, rounds', ts, fit, fit' using rounds_induction generalizing e with
  | ends rounds rounds' =>
    exact .of_ok (postfixTail_stops Token.Kind.noConfusion Token.Kind.noConfusion)
      (postfixTail_stops Token.Kind.noConfusion Token.Kind.noConfusion) (Nat.le_refl _)
  | more rounds rounds' t tail _ _ ih =>
    have fits := fits.of_le (Nat.le_succ tail.length)
    -- A member leaves less than the rounds are for.
    have extend (found : Expr) (left : List Token) (fewer : left.length ≤ tail.length) :
        c.Same left (bounded found >>= postfixTail inner rounds)
          (bounded found >>= postfixTail inner rounds') :=
      (steady_bounded found (fits.of_le fewer)).bind fun e left' fewer' =>
        have fewer := Nat.le_trans fewer' fewer
        ih left' fewer (fits.of_le fewer) e
    refine .peek_bind nofun fun _ _ is => ?_
    obtain ⟨rfl, rfl⟩ := List.cons.inj is
    dsimp only
    split
    · refine .advance_cons ((steady_member ofInner fits).bind fun found left fewer => ?_)
      split
      · exact extend _ left fewer
      · exact extend _ left fewer
    · refine .advance_cons ?_
      split
      · refine (steady_member ofInner fits).bind fun found left fewer => ?_
        split
        · exact extend _ left fewer
        · exact extend _ left fewer
      · exact .fail _ _
    · exact .pure e

theorem steady_primary (ofInner : c.Steady inner) : c.Steady (primary inner) := by
  refine steady_advance.bind fun t => ?_
  split
  case h_8 => exact ofInner.bind fun e => (steady_expect .closeParen).bind fun _ => .pure e
  case h_9 => exact .fail _ _
  all_goals exact .pure _

theorem steady_postfixed (ofInner : c.Steady inner) : c.Steady (postfixed inner) := by
  refine (steady_primary ofInner).bind fun e => fun ts fits => ?_
  exact .read_bind (same_postfixTail ofInner fits fits.1 fits.2 e)

theorem steady_applyUnary (op : UnaryOp) (p : Position) (e : Expr) :
    c.Steady (applyUnary op p e) := by
  unfold applyUnary
  split
  · exact .pure _
  · exact .pure _
  · exact steady_bounded _

theorem steady_unaryOr {under : Position → Parser Expr} (ofUnder : ∀ p, c.Steady (under p))
    (ofInner : c.Steady inner) : c.Steady (unaryOr under inner) := by
  refine steady_peek.bind fun t => ?_
  split
  · exact steady_advance.bind fun _ => (ofUnder _).bind fun e => steady_applyUnary .neg _ e
  · exact steady_advance.bind fun _ => (ofUnder _).bind fun e => steady_applyUnary .not _ e
  · exact steady_postfixed ofInner

end

theorem steady_unary (levels : Nat) : c.Steady (unary levels) := by
  induction levels with
  | zero => exact steady_unaryOr (fun p => .fail _ p) steady_tooDeepHere
  | succ levels ih => exact steady_unaryOr (fun _ => ih) (steady_binaryLevels ih)

theorem steady_expr (levels : Nat) : c.Steady (expr levels) := by
  cases levels with
  | zero => exact steady_tooDeepHere
  | succ levels => exact steady_binaryLevels (steady_unary levels)

/-! ## Statements -/

structure Forward (c : Lengthening) (m : Parser α) : Prop where
  steady : c.Steady m
  less : ∀ ⦃ts⦄, c.Fits ts → ∀ a left, m c.low ts = .ok (a, left) → left.length < ts.length

theorem bind_run_ok {m : Parser α} {k : α → Parser β} {b : β} {P : Parsing} {left : List Token}
    (ran : (m >>= k) P ts = .ok (b, left)) :
    ∃ a between, m P ts = .ok (a, between) ∧ k a P between = .ok (b, left) := by
  rw [bind_run] at ran
  cases first : m P ts with
  | error f =>
    rw [first] at ran
    cases ran
  | ok r =>
    rw [first] at ran
    exact ⟨r.1, r.2, rfl, ran⟩

namespace Forward

variable {m : Parser α} {k : α → Parser β}

theorem bind (first : c.Forward m) (rest : ∀ a, c.Steady (k a)) : c.Forward (m >>= k) where
  steady := first.steady.bind rest
  less ts fits b left ran := by
    obtain ⟨a, between, ofFirst, ofRest⟩ := bind_run_ok ran
    have less := first.less fits a between ofFirst
    have fewer := (rest a (fits.of_le (Nat.le_of_lt less))).fewer b left ofRest
    exact Nat.lt_of_le_of_lt fewer less

theorem behind (first : c.Steady m) (rest : ∀ a, c.Forward (k a)) : c.Forward (m >>= k) where
  steady := first.bind fun a => (rest a).steady
  less ts fits b left ran := by
    obtain ⟨a, between, ofFirst, ofRest⟩ := bind_run_ok ran
    have fewer := (first fits).fewer a between ofFirst
    exact Nat.lt_of_lt_of_le ((rest a).less (fits.of_le fewer) b left ofRest) fewer

end Forward

theorem forward_expect (s : Symbol) : c.Forward (expect s) where
  steady := steady_expect s
  less ts _ a left ran := by
    by_cases is : (ahead c.low ts).kind = .symbol s
    · cases ts with
      | nil => cases is
      | cons t tail =>
        cases ran.symm.trans (expect_taken is)
        exact Nat.lt_succ_self _
    · obtain ⟨f, failed⟩ := expect_fails is
      cases ran.symm.trans failed

theorem forward_expectKeyword (k : Keyword) : c.Forward (expectKeyword k) where
  steady := steady_expectKeyword k
  less ts _ a left ran := by
    by_cases is : (ahead c.low ts).kind = .keyword k
    · cases ts with
      | nil => cases is
      | cons t tail =>
        cases ran.symm.trans (expectKeyword_taken is)
        exact Nat.lt_succ_self _
    · obtain ⟨f, failed⟩ := expectKeyword_fails is
      cases ran.symm.trans failed

section

variable {expr : Parser Expr} {statement deeper : Parser Statement}
  {block : Parser (List Statement)} {rounds rounds' : Nat}

theorem same_statements (ofStatement : c.Forward statement) (fits : c.Fits ts)
    (fit : ts.length < rounds) (fit' : ts.length < rounds') (start : Position)
    (found : List Statement) :
    c.Same ts (statements statement start rounds found)
      (statements statement start rounds' found) := by
  induction rounds, rounds', ts, fit, fit' using rounds_induction_lt generalizing found with
  | more rounds rounds' ts _ _ ih =>
    refine (steady_peekKind fits).bind fun kind left fewer => ?_
    have fits := fits.of_le fewer
    split
    · exact (steady_advance fits).bind fun _ _ _ => .pure _
    · exact .fail _ _
    · refine .bind_of (ofStatement.steady fits) fun s left' ran => ?_
      have less := ofStatement.less fits s left' ran
      exact ih left' (Nat.lt_of_lt_of_le less fewer) (fits.of_le (Nat.le_of_lt less)) _

theorem steady_blockOf (ofStatement : c.Forward statement) : c.Steady (blockOf statement) := by
  refine (steady_expect .openBrace).bind fun start => fun ts fits => ?_
  exact .read_bind (same_statements ofStatement fits (Nat.lt_succ_of_le fits.1)
    (Nat.lt_succ_of_le fits.2) start [])

theorem steady_closedBlock : c.Steady closedBlock :=
  (steady_expect .openBrace).bind fun start => .fail _ start

theorem forward_conditionalOf (ofExpr : c.Steady expr) (ofBlock : c.Steady block)
    (ofDeeper : c.Steady deeper) : c.Forward (conditionalOf expr block deeper) := by
  refine (forward_expectKeyword .if).bind fun p => ofExpr.bind fun cond => ?_
  refine ofBlock.bind fun body => (steady_eatKeyword .else).bind fun taken => ?_
  split
  · refine steady_peekKind.bind fun kind => ?_
    split
    · exact ofDeeper.bind fun s => .pure _
    · exact ofBlock.bind fun otherwise => .pure _
  · exact .pure _

theorem forward_bindStatement (ofExpr : c.Steady expr) : c.Forward (bindStatement expr) := by
  refine (forward_expectKeyword .let).bind fun p => steady_identifier.bind fun name => ?_
  refine (steady_eat .colon).bind fun typed => ?_
  have rest (type : Option TypeName) : c.Steady (do
      let _ ← Parser.expect .assign
      let init ← expr
      let _ ← Parser.expect .semicolon
      return Statement.bind p name type init) :=
    (steady_expect .assign).bind fun _ => ofExpr.bind fun init =>
      (steady_expect .semicolon).bind fun _ => .pure _
  split
  · exact steady_typeName.map.bind rest
  · exact rest none

theorem forward_loopStatement (ofExpr : c.Steady expr) (ofBlock : c.Steady block) :
    c.Forward (loopStatement expr block) := by
  refine (forward_expectKeyword .for).bind fun p => steady_identifier.bind fun name => ?_
  refine (steady_expectKeyword .in).bind fun _ => ofExpr.bind fun first => ?_
  refine (steady_expect .range).bind fun _ => ofExpr.bind fun last => ?_
  exact ofBlock.bind fun body => .pure _

theorem forward_giveStatement (ofExpr : c.Steady expr) : c.Forward (giveStatement expr) := by
  refine (forward_expectKeyword .return).bind fun p => steady_peekKind.bind fun kind => ?_
  split
  · exact (steady_expect .semicolon).bind fun _ => .pure _
  · exact ofExpr.map.bind fun value => (steady_expect .semicolon).bind fun _ => .pure _

theorem forward_plainStatement (ofExpr : c.Steady expr) : c.Forward (plainStatement expr) := by
  refine .behind steady_peekPosition fun p => .behind ofExpr fun target => ?_
  refine .behind (steady_eat .assign) fun taken => ?_
  split
  · exact .behind ofExpr fun value => (forward_expect .semicolon).bind fun _ => .pure _
  · exact (forward_expect .semicolon).bind fun _ => .pure _

theorem forward_statementOf {conditional : Parser Statement} (ofExpr : c.Steady expr)
    (ofBlock : c.Steady block) (ofConditional : c.Forward conditional) :
    c.Forward (statementOf expr block conditional) := by
  refine .behind steady_peekKind fun kind => ?_
  split
  · exact forward_bindStatement ofExpr
  · exact ofConditional
  · exact forward_loopStatement ofExpr ofBlock
  · exact forward_giveStatement ofExpr
  · exact forward_plainStatement ofExpr

end

theorem steady_levels (levels : Nat) :
    c.Steady (block levels) ∧ c.Forward (conditional levels) := by
  induction levels with
  | zero =>
    refine ⟨steady_closedBlock, ?_⟩
    rw [conditional_zero]
    exact forward_conditionalOf (steady_expr 0) steady_closedBlock steady_tooDeepHere
  | succ levels ih =>
    obtain ⟨ofBlock, ofConditional⟩ := ih
    have wider : c.Steady (block (levels + 1)) :=
      steady_blockOf (forward_statementOf (steady_expr levels) ofBlock ofConditional)
    refine ⟨wider, ?_⟩
    rw [conditional_succ]
    exact forward_conditionalOf (steady_expr _) wider ofConditional.steady

/-! ## Units -/

theorem steady_function : c.Steady function := by
  refine (steady_expectKeyword .fn).bind fun p => steady_identifier.bind fun name => ?_
  refine (steady_expect .openParen).bind fun _ => steady_identifier.bind fun param => ?_
  refine (steady_expect .colon).bind fun _ => steady_typeName.bind fun paramType => ?_
  refine (steady_expect .closeParen).bind fun _ => (steady_expect .arrow).bind fun _ => ?_
  refine steady_typeName.bind fun resultType => fun ts fits => .read_bind ?_
  rw [c.sameDepth]
  exact ((steady_levels _).1.bind fun body => .pure _) fits

theorem same_imports {rounds rounds' : Nat} (fits : c.Fits ts) (fit : ts.length ≤ rounds)
    (fit' : ts.length ≤ rounds') (found : List Path) :
    c.Same ts (imports rounds found) (imports rounds' found) := by
  induction rounds, rounds', ts, fit, fit' using rounds_induction generalizing found with
  | ends rounds rounds' =>
    exact .of_ok (imports_stops Token.Kind.noConfusion) (imports_stops Token.Kind.noConfusion)
      (Nat.le_refl _)
  | more rounds rounds' t tail _ _ ih =>
    -- The keyword is taken before the round is over, so that there are fewer tokens for the rest.
    have fits := fits.of_le (Nat.le_succ tail.length)
    refine (chooses_eatKeyword .use _).bind (fun _ _ is => ?_) (.pure _)
    obtain ⟨rfl, rfl⟩ := List.cons.inj is
    refine (steady_path fits).bind fun p left fewer => ?_
    refine (steady_expect .semicolon (fits.of_le fewer)).bind fun _ left' fewer' => ?_
    have fewer := Nat.le_trans fewer' fewer
    exact ih left' fewer (fits.of_le fewer) _

theorem steady_unit : c.Steady unit := by
  refine (steady_expectKeyword .module).bind fun _ => steady_path.bind fun moduleName => ?_
  refine (steady_expect .semicolon).bind fun _ => fun ts fits => .read_bind ?_
  refine (same_imports fits fits.1 fits.2 []).bind fun found left fewer => ?_
  refine (steady_function (fits.of_le fewer)).bind fun entry left' fewer' => ?_
  have fits := fits.of_le (Nat.le_trans fewer' fewer)
  refine (steady_peekKind fits).bind fun kind left'' fewer'' => ?_
  split
  · exact .pure _
  · exact steady_unexpected _ (fits.of_le fewer'')

end Lengthening

end SceneScript.Source
