import SceneScript.Proofs.Source.Runs

/-!
# Expressions before a seam

The tokens of a snippet are followed by a `return` in the unit around it. No part of an expression
begins with that token, so a parser of expressions fails in the unit or does there what it does on
the tokens of the snippet alone (`local_expr`).
-/

namespace SceneScript.Source

/-- The two ways to read the tokens of a snippet: alone, and followed by more tokens of which the
first is a `return`. -/
structure Seam where
  alone : Parsing
  whole : Parsing
  start : Token
  after : List Token
  isReturn : start.kind = .keyword .return
  sameDepth : alone.maxDepth = whole.maxDepth

namespace Seam

open SceneScript.Source.Parser

variable {α β : Type} {c : Seam} {u ts : List Token}

def glue (c : Seam) (ts : List Token) : List Token :=
  ts ++ c.start :: c.after

def Fits (c : Seam) (u : List Token) : Prop :=
  u.length ≤ c.alone.rounds ∧ u.length ≤ c.whole.rounds

theorem Fits.suffix (fits : c.Fits u) (short : ts <:+ u) : c.Fits ts :=
  ⟨Nat.le_trans short.length_le fits.1, Nat.le_trans short.length_le fits.2⟩

/-- In the unit, the second parser fails or does what the first one does on the tokens alone, and
leaves some of the given tokens. -/
def Agrees (c : Seam) (u ts : List Token) (m m' : Parser α) : Prop :=
  (∃ f, m' c.whole (c.glue ts) = .error f) ∨
    ∃ a left, left <:+ u ∧ m c.alone ts = .ok (a, left) ∧
      m' c.whole (c.glue ts) = .ok (a, c.glue left)

def Local (c : Seam) (m : Parser α) : Prop :=
  ∀ ⦃u ts⦄, ts <:+ u → c.Fits u → c.Agrees u ts m m

theorem ahead_glue_nil (P : Parsing) : ahead P (c.glue []) = c.start := rfl

theorem tail_suffix_of_cons {t : Token} (short : ts <:+ t :: u) : ts.tail <:+ u := by
  rcases List.suffix_cons_iff.1 short with rfl | short
  · exact List.suffix_refl u
  · exact (List.tail_suffix ts).trans short

theorem suffix_of_cons {t : Token} (short : t :: ts <:+ u) : ts <:+ u :=
  (List.suffix_cons t ts).trans short

/-! ## Rules -/

namespace Agrees

variable {m m' : Parser α} {k k' : α → Parser β}

theorem pure {a : α} (short : ts <:+ u) : c.Agrees u ts (pure a) (pure a) :=
  .inr ⟨a, ts, short, rfl, rfl⟩

theorem bind {w : List Token} (first : c.Agrees w ts m m')
    (rest : ∀ a left, left <:+ w → c.Agrees u left (k a) (k' a)) :
    c.Agrees u ts (m >>= k) (m' >>= k') := by
  rcases first with ⟨f, failed⟩ | ⟨a, left, short, ran, ran'⟩
  · exact .inl ⟨f, bind_error failed k'⟩
  · rcases rest a left short with ⟨f, failed⟩ | ⟨b, left', short', ran₁, ran₁'⟩
    · exact .inl ⟨f, (bind_ok ran' k').trans failed⟩
    · exact .inr ⟨b, left', short', (bind_ok ran k).trans ran₁, (bind_ok ran' k').trans ran₁'⟩

theorem same {a : α} (short : ts <:+ u) (ran : m c.alone ts = .ok (a, ts))
    (ran' : m' c.whole (c.glue ts) = .ok (a, c.glue ts)) : c.Agrees u ts m m' :=
  .inr ⟨a, ts, short, ran, ran'⟩

theorem bind_fails {f : Fault} (failed : m' c.whole (c.glue ts) = .error f) :
    c.Agrees u ts (m >>= k) (m' >>= k') :=
  .inl ⟨f, bind_error failed k'⟩

theorem fail (error : Error) (p p' : Position) :
    c.Agrees u ts (fail error p : Parser α) (Parser.fail error p') :=
  .inl ⟨_, rfl⟩

theorem read_bind {k k' : Parsing → Parser β} (rest : c.Agrees u ts (k c.alone) (k' c.whole)) :
    c.Agrees u ts (read >>= k) (read >>= k') :=
  rest

theorem peek_bind {k k' : Token → Parser β}
    (ends : ts = [] → c.Agrees u [] (k ⟨.finish, c.alone.finish⟩) (k' c.start))
    (more : ∀ t tail, ts = t :: tail → c.Agrees u (t :: tail) (k t) (k' t)) :
    c.Agrees u ts (peek >>= k) (peek >>= k') := by
  cases ts with
  | nil => exact ends rfl
  | cons t tail => exact more t tail rfl

theorem peekKind_bind {k k' : Token.Kind → Parser β}
    (ends : ts = [] → c.Agrees u [] (k .finish) (k' (.keyword .return)))
    (more : ∀ t tail, ts = t :: tail → c.Agrees u (t :: tail) (k t.kind) (k' t.kind)) :
    c.Agrees u ts (peekKind >>= k) (peekKind >>= k') := by
  cases ts with
  | nil =>
    have ends := ends rfl
    rw [← c.isReturn] at ends
    exact ends
  | cons t tail => exact more t tail rfl

theorem peekPosition_bind {k k' : Position → Parser β}
    (ends : ts = [] → c.Agrees u [] (k c.alone.finish) (k' c.start.position))
    (more : ∀ t tail, ts = t :: tail → c.Agrees u (t :: tail) (k t.position) (k' t.position)) :
    c.Agrees u ts (peekPosition >>= k) (peekPosition >>= k') := by
  cases ts with
  | nil => exact ends rfl
  | cons t tail => exact more t tail rfl

theorem advance_bind {k k' : Token → Parser β} {t : Token}
    (rest : c.Agrees u ts (k t) (k' t)) :
    c.Agrees u (t :: ts) (advance >>= k) (advance >>= k') :=
  rest

theorem start_ne_symbol (s : Symbol) : c.start.kind ≠ .symbol s := by
  rw [c.isReturn]
  exact Token.Kind.noConfusion

theorem eat_bind {s : Symbol} {k k' : Bool → Parser β}
    (yes : ∀ t tail, ts = t :: tail → c.Agrees u tail (k true) (k' true))
    (no : c.Agrees u ts (k false) (k' false)) : c.Agrees u ts (eat s >>= k) (eat s >>= k') := by
  cases ts with
  | nil =>
    have left : eat s c.alone [] = .ok (false, []) := eat_left Token.Kind.noConfusion
    have left' : eat s c.whole (c.glue []) = .ok (false, c.glue []) := eat_left (start_ne_symbol s)
    unfold Agrees
    rwa [bind_ok left, bind_ok left']
  | cons t tail =>
    by_cases is : t.kind = .symbol s
    · have taken : eat s c.alone (t :: tail) = .ok (true, tail) := eat_taken is
      have taken' : eat s c.whole (c.glue (t :: tail)) = .ok (true, c.glue tail) := eat_taken is
      unfold Agrees
      rw [bind_ok taken, bind_ok taken']
      exact yes t tail rfl
    · have left : eat s c.alone (t :: tail) = .ok (false, t :: tail) := eat_left is
      have left' : eat s c.whole (c.glue (t :: tail)) = .ok (false, c.glue (t :: tail)) :=
        eat_left is
      unfold Agrees
      rwa [bind_ok left, bind_ok left']

theorem expect {s : Symbol} (short : ts.tail <:+ u) :
    c.Agrees u ts (expect s) (Parser.expect s) := by
  cases ts with
  | nil => exact .inl (expect_fails (start_ne_symbol s))
  | cons t tail =>
    by_cases is : t.kind = .symbol s
    · exact .inr ⟨t.position, tail, short, expect_taken is, expect_taken is⟩
    · exact .inl (expect_fails is)

theorem expectKeyword {k : Keyword} (short : ts.tail <:+ u) (other : ts = [] → k ≠ .return) :
    c.Agrees u ts (expectKeyword k) (Parser.expectKeyword k) := by
  cases ts with
  | nil =>
    refine .inl (expectKeyword_fails ?_)
    rw [ahead_glue_nil, c.isReturn]
    exact fun is => other rfl (Token.Kind.keyword.inj is).symm
  | cons t tail =>
    by_cases is : t.kind = .keyword k
    · exact .inr ⟨t.position, tail, short, expectKeyword_taken is, expectKeyword_taken is⟩
    · exact .inl (expectKeyword_fails is)

theorem identifier_start : ∃ f, identifier c.whole (c.glue []) = .error f := by
  refine identifier_fails fun name => ?_
  rw [ahead_glue_nil, c.isReturn]
  exact Token.Kind.noConfusion

theorem identifier (short : ts.tail <:+ u) : c.Agrees u ts identifier Parser.identifier := by
  cases ts with
  | nil => exact .inl identifier_start
  | cons t tail =>
    by_cases is : ∃ name, t.kind = .word name
    · obtain ⟨name, is⟩ := is
      exact .inr ⟨name, tail, short, identifier_taken is, identifier_taken is⟩
    · exact .inl (identifier_fails fun name isName => is ⟨name, isName⟩)

end Agrees

/-! ## Paths and types -/

theorem agrees_pathTail {rounds rounds' : Nat} {p : Path} (short : ts <:+ u)
    (fit : ts.length ≤ rounds) (fit' : ts.length ≤ rounds') :
    c.Agrees u ts (pathTail rounds p) (pathTail rounds' p) := by
  induction rounds, rounds', ts, fit, fit' using rounds_induction generalizing p with
  | ends rounds rounds' =>
    exact .same short (pathTail_stops Token.Kind.noConfusion)
      (pathTail_stops (Agrees.start_ne_symbol _))
  | more rounds rounds' t tail _ _ ih =>
    refine .eat_bind (fun _ _ is => ?_) (.pure short)
    obtain ⟨rfl, rfl⟩ := List.cons.inj is
    refine .bind (.identifier (List.tail_suffix tail)) fun name left shorter => ?_
    exact ih left shorter.length_le (shorter.trans (suffix_of_cons short))

theorem local_path : c.Local path := by
  intro u ts short fits
  refine .peekPosition_bind (fun _ => ?_) fun t tail is => ?_
  · obtain ⟨f, failed⟩ := Agrees.identifier_start (c := c)
    exact .bind_fails failed
  · subst is
    refine .bind (.identifier (suffix_of_cons short)) fun first left shorter => .read_bind ?_
    have fits := fits.suffix shorter
    exact agrees_pathTail shorter fits.1 fits.2

theorem local_typeName : c.Local typeName := by
  intro u ts short fits
  exact .bind (local_path short fits) fun p left shorter => .pure shorter

/-! ## Expressions -/

theorem agrees_bounded (e : Expr) (short : ts <:+ u) : c.Agrees u ts (bounded e) (bounded e) := by
  refine .read_bind ?_
  rw [c.sameDepth]
  split
  · exact .pure short
  · exact .fail ..

structure Stops (operator? : Token.Kind → Option BinaryOp) : Prop where
  finish : operator? .finish = none
  «return» : operator? (.keyword .return) = none

section

variable {operator? : Token.Kind → Option BinaryOp} {operand argument inner : Parser Expr}

theorem agrees_chainTail {rounds rounds' : Nat} {left : Expr} (stops : Stops operator?)
    (ofOperand : c.Local operand) (fits : c.Fits u) (short : ts <:+ u) (fit : ts.length ≤ rounds)
    (fit' : ts.length ≤ rounds') :
    c.Agrees u ts (chainTail operator? operand rounds left)
      (chainTail operator? operand rounds' left) := by
  induction rounds, rounds', ts, fit, fit' using rounds_induction generalizing left with
  | ends rounds rounds' =>
    refine .same short (chainTail_stops stops.finish) (chainTail_stops ?_)
    rw [ahead_glue_nil, c.isReturn, stops.return]
  | more rounds rounds' t tail _ _ ih =>
    have short' := suffix_of_cons short
    refine .peek_bind nofun fun _ _ is => ?_
    obtain ⟨rfl, rfl⟩ := List.cons.inj is
    cases operator? t.kind with
    | none => exact .pure short
    | some op =>
      refine .advance_bind (.bind (ofOperand (List.suffix_refl tail) (fits.suffix short'))
        fun right more shorter => ?_)
      refine .bind (agrees_bounded _ shorter) fun e left shorter => ?_
      exact ih left shorter.length_le (shorter.trans short')

theorem local_chain (stops : Stops operator?) (ofOperand : c.Local operand) :
    c.Local (chain operator? operand) := by
  intro u ts short fits
  refine .bind (ofOperand short fits) fun left more shorter => .read_bind ?_
  have fits' := fits.suffix shorter
  exact agrees_chainTail stops ofOperand fits shorter fits'.1 fits'.2

theorem local_binaryLevels (ofUnary : c.Local operand) : c.Local (binaryLevels operand) :=
  local_chain ⟨rfl, rfl⟩ (local_chain ⟨rfl, rfl⟩ (local_chain ⟨rfl, rfl⟩
    (local_chain ⟨rfl, rfl⟩ (local_chain ⟨rfl, rfl⟩ (local_chain ⟨rfl, rfl⟩ ofUnary)))))

theorem agrees_argumentTail {rounds rounds' : Nat} {found : List Expr}
    (ofArgument : c.Local argument) (fits : c.Fits u) (short : ts <:+ u)
    (fit : ts.length < rounds) (fit' : ts.length < rounds') :
    c.Agrees u ts (argumentTail argument rounds found) (argumentTail argument rounds' found) := by
  induction rounds, rounds', ts, fit, fit' using rounds_induction_lt generalizing found with
  | more rounds rounds' ts _ _ ih =>
    refine .bind (ofArgument (List.suffix_refl ts) (fits.suffix short)) fun e left shorter => ?_
    have short' := shorter.trans short
    refine .eat_bind (fun t tail is => ?_) ?_
    · subst is
      exact ih tail shorter.length_le (suffix_of_cons short')
    · exact .bind (.expect ((List.tail_suffix left).trans short')) fun _ _ shorter =>
        .pure shorter

theorem local_arguments (ofArgument : c.Local argument) : c.Local (arguments argument) := by
  intro u ts short fits
  refine .bind (.expect ((List.tail_suffix ts).trans short)) fun _ left shorter => ?_
  refine .eat_bind (fun t tail is => ?_) (.read_bind ?_)
  · subst is
    exact .pure (suffix_of_cons shorter)
  · have fits' := fits.suffix shorter
    exact agrees_argumentTail ofArgument fits shorter (Nat.lt_succ_of_le fits'.1)
      (Nat.lt_succ_of_le fits'.2)

theorem local_member (ofArgument : c.Local argument) : c.Local (member argument) := by
  intro u ts short fits
  refine .bind (.identifier ((List.tail_suffix ts).trans short)) fun name left shorter => ?_
  refine .peekKind_bind (fun is => ?_) fun t tail is => ?_
  · subst is
    exact .pure shorter
  · subst is
    split
    · exact .bind (local_arguments ofArgument shorter fits) fun args left shorter => .pure shorter
    · exact .pure shorter

theorem agrees_postfixTail {rounds rounds' : Nat} {e : Expr} (ofArgument : c.Local argument)
    (fits : c.Fits u) (short : ts <:+ u) (fit : ts.length ≤ rounds) (fit' : ts.length ≤ rounds') :
    c.Agrees u ts (postfixTail argument rounds e) (postfixTail argument rounds' e) := by
  induction rounds, rounds', ts, fit, fit' using rounds_induction generalizing e with
  | ends rounds rounds' =>
    exact .same short (postfixTail_stops Token.Kind.noConfusion Token.Kind.noConfusion)
      (postfixTail_stops (Agrees.start_ne_symbol _) (Agrees.start_ne_symbol _))
  | more rounds rounds' t tail _ _ ih =>
    have short' := suffix_of_cons short
    -- A member leaves less than the rounds are for.
    have extend (found : Expr) (left : List Token) (shorter : left <:+ tail) :
        c.Agrees u left (bounded found >>= postfixTail argument rounds)
          (bounded found >>= postfixTail argument rounds') :=
      .bind (agrees_bounded found shorter) fun e left shorter =>
        ih left shorter.length_le (shorter.trans short')
    refine .peek_bind nofun fun _ _ is => ?_
    obtain ⟨rfl, rfl⟩ := List.cons.inj is
    dsimp only
    split
    · refine .advance_bind (.bind (local_member ofArgument (List.suffix_refl tail)
        (fits.suffix short')) fun found left shorter => ?_)
      split
      · exact extend _ left shorter
      · exact extend _ left shorter
    · refine .advance_bind ?_
      split
      · refine .bind (local_member ofArgument (List.suffix_refl tail) (fits.suffix short'))
          fun found left shorter => ?_
        split
        · exact extend _ left shorter
        · exact extend _ left shorter
      · exact .fail ..
    · exact .pure short

theorem local_primary (ofInner : c.Local inner) : c.Local (primary inner) := by
  intro u ts short fits
  cases ts with
  | nil =>
    refine .inl ?_
    unfold primary
    rw [bind_ok advance_run, ahead_glue_nil, c.isReturn]
    exact ⟨_, rfl⟩
  | cons t tail =>
    have short := suffix_of_cons short
    refine .advance_bind ?_
    split
    case h_8 =>
      exact .bind (ofInner short fits) fun e left shorter =>
        .bind (.expect ((List.tail_suffix left).trans shorter)) fun _ _ shorter => .pure shorter
    case h_9 => exact .fail ..
    all_goals exact .pure short

theorem local_postfixed (ofInner : c.Local inner) : c.Local (postfixed inner) := by
  intro u ts short fits
  refine .bind (local_primary ofInner short fits) fun e left shorter => .read_bind ?_
  have fits' := fits.suffix shorter
  exact agrees_postfixTail ofInner fits shorter fits'.1 fits'.2

theorem agrees_applyUnary (op : UnaryOp) (p : Position) (e : Expr) (short : ts <:+ u) :
    c.Agrees u ts (applyUnary op p e) (applyUnary op p e) := by
  unfold applyUnary
  split
  · exact .pure short
  · exact .pure short
  · exact agrees_bounded _ short

theorem local_unaryOr {operand : Position → Parser Expr} (ofOperand : ∀ p, c.Local (operand p))
    (ofInner : c.Local inner) : c.Local (unaryOr operand inner) := by
  intro u ts short fits
  have other := local_postfixed ofInner short fits
  refine .peek_bind (fun is => ?_) fun t tail is => ?_
  · rw [c.isReturn]
    exact is ▸ other
  · subst is
    have short := suffix_of_cons short
    split
    · exact .advance_bind (.bind (ofOperand _ short fits) fun e left shorter =>
        agrees_applyUnary _ _ e shorter)
    · exact .advance_bind (.bind (ofOperand _ short fits) fun e left shorter =>
        agrees_applyUnary _ _ e shorter)
    · exact other

end

theorem local_tooDeepHere : c.Local (tooDeepHere : Parser α) := by
  intro u ts _ _
  exact .peekPosition_bind (fun _ => .fail ..) fun _ _ _ => .fail ..

theorem local_unary (levels : Nat) : c.Local (unary levels) := by
  induction levels with
  | zero => exact local_unaryOr (fun p _ _ _ _ => .fail ..) local_tooDeepHere
  | succ levels ih => exact local_unaryOr (fun _ => ih) (local_binaryLevels ih)

theorem local_expr (levels : Nat) : c.Local (expr levels) := by
  cases levels with
  | zero => exact local_tooDeepHere
  | succ levels => exact local_binaryLevels (local_unary levels)

end Seam

end SceneScript.Source
