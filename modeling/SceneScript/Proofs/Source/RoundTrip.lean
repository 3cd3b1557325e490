import SceneScript.Proofs.Source.Printing

/-!
# Parsing printed expressions

On the tokens of an expression the parser of its level comes to the tail of that level, with the
expression in front. The tail goes on with an operator of the level and stops before what ends the
expression.
-/

namespace SceneScript.Source

open Token (Kind)

def opens : Kind → Bool
  | .int _ | .float _ | .string _ | .word _ => true
  | .keyword k => k ∈ [.true, .false, .null]
  | .symbol s => s = .openParen
  | .finish => false

namespace Expr

/-! ## Heights and lengths -/

theorem length_inParens (needed : Bool) (ts : List Kind) : ts.length ≤ (inParens needed ts).length := by
  cases needed
  · exact Nat.le_refl _
  · simp only [inParens, if_true, List.length_cons, List.length_append]
    omega

theorem height_fieldOf (p : Position) (receiver : Expr) (name : String) :
    (fieldOf p receiver name).height = 1 + receiver.height := rfl

theorem height_callOf (p : Position) (receiver : Expr) (name : String) (args : List Expr) :
    (callOf p receiver name args).height = 1 + max (maxHeight args) receiver.height := rfl

theorem height_staticCallOf (p : Position) (type : Path) (name : String) (args : List Expr) :
    (staticCallOf p type name args).height = 1 + maxHeight args := rfl

theorem height_unaryOf (p : Position) (op : UnaryOp) (operand : Expr) :
    (unaryOf p op operand).height = 1 + operand.height := rfl

theorem height_binaryOf (p : Position) (op : BinaryOp) (left right : Expr) :
    (binaryOf p op left right).height = 1 + max left.height right.height := rfl

mutual

theorem height_le : ∀ e : Expr, e.bare.height ≤ e.tokens.length
  | int _ v => by
    rw [tokens]
    split <;> simp [bare, height]
  | float _ x => by
    rw [tokens]
    split <;> simp [bare, height]
  | string .. | bool .. | null .. | var .. => Nat.le_refl 1
  | field _ _ receiver name => by
    have below := receiver.height_le
    have whole := length_inParens (receiver.level < 7) receiver.tokens
    simp only [bare, height_fieldOf, tokens, List.length_append, List.length_cons, List.length_nil]
    omega
  | call _ _ receiver name args => by
    have below := receiver.height_le
    have whole := length_inParens (receiver.level < 7) receiver.tokens
    have ofArgs := maxHeight_le args
    simp only [bare, height_callOf, tokens, List.length_append, List.length_cons, List.length_nil]
    omega
  | staticField _ type name => by simp [bare, height, tokens]
  | staticCall _ _ type name args => by
    have ofArgs := maxHeight_le args
    simp only [bare, height_staticCallOf, tokens, List.length_append, List.length_cons,
      List.length_nil]
    omega
  | unary _ _ op operand => by
    have below := operand.height_le
    have whole := length_inParens (operand.level < 6) operand.tokens
    simp only [bare, height_unaryOf, tokens, List.length_cons]
    omega
  | binary _ _ op left right => by
    have onLeft := left.height_le
    have onRight := right.height_le
    have wholeLeft := length_inParens (left.level < op.level) left.tokens
    have wholeRight := length_inParens (right.level < op.level + 1) right.tokens
    simp only [bare, height_binaryOf, tokens, List.length_append, List.length_cons]
    omega

theorem maxHeight_le : ∀ es : List Expr, maxHeight (bareAll es) ≤ (argTokens es).length
  | [] => Nat.le_refl 0
  | e :: rest => by
    have first := e.height_le
    have others := maxHeight_le_more rest
    simp only [bareAll, maxHeight_cons, argTokens, List.length_append]
    omega

theorem maxHeight_le_more : ∀ es : List Expr, maxHeight (bareAll es) ≤ (moreTokens es).length
  | [] => Nat.le_refl 0
  | e :: rest => by
    have first := e.height_le
    have others := maxHeight_le_more rest
    simp only [bareAll, maxHeight_cons, moreTokens, List.length_append, List.length_cons]
    omega

end

theorem level_le (e : Expr) : e.level ≤ 7 := by
  cases e with
  | binary _ _ op =>
    have most : op.level ≤ 5 := by cases op <;> decide
    exact Nat.le_trans most (by decide)
  | int | float =>
    rw [level]
    split <;> decide
  | _ => exact Nat.le_of_ble_eq_true rfl

/-! ## First tokens -/

def Begins (level : Nat) (ts : List Kind) : Prop :=
  ∃ first more, ts = first :: more ∧
    (opens first = true ∨ level < 7 ∧ (first = .symbol .minus ∨ first = .symbol .bang))

theorem Begins.append {level : Nat} {ts : List Kind} (begins : Begins level ts)
    (more : List Kind) : Begins level (ts ++ more) := by
  obtain ⟨first, rest, rfl, is⟩ := begins
  exact ⟨first, rest ++ more, rfl, is⟩

theorem begins_tokensAt {e : Expr} (own : Begins e.level e.tokens) (level : Nat) :
    Begins level (e.tokensAt level) := by
  unfold tokensAt inParens
  split
  · exact ⟨_, _, rfl, .inl rfl⟩
  · rename_i tight
    obtain ⟨first, more, split, is⟩ := own
    refine ⟨first, more, split, is.imp_right fun ⟨loose, sign⟩ => ⟨?_, sign⟩⟩
    simp only [decide_eq_true_eq] at tight
    omega

theorem begins_tokens : ∀ e : Expr, Begins e.level e.tokens
  | int _ v => by
    rw [tokens, level]
    split
    · exact ⟨_, _, rfl, .inr ⟨by decide, .inl rfl⟩⟩
    · exact ⟨_, _, rfl, .inl rfl⟩
  | float _ x => by
    rw [tokens, level]
    split
    · exact ⟨_, _, rfl, .inr ⟨by decide, .inl rfl⟩⟩
    · exact ⟨_, _, rfl, .inl rfl⟩
  | string .. | null .. | var .. | staticField .. | staticCall .. => ⟨_, _, rfl, .inl rfl⟩
  | bool _ b => ⟨_, _, rfl, .inl (by cases b <;> rfl)⟩
  | field _ _ receiver name => (begins_tokensAt receiver.begins_tokens 7).append _
  | call _ _ receiver name args => by
    rw [tokens, List.append_assoc, List.append_assoc]
    exact (begins_tokensAt receiver.begins_tokens 7).append _
  | unary _ _ op operand => by
    refine ⟨_, _, rfl, .inr ⟨Nat.lt_succ_self 6, ?_⟩⟩
    cases op
    · exact .inl rfl
    · exact .inr rfl
  | binary _ _ op left right => (begins_tokensAt left.begins_tokens op.level).append _

end Expr

/-! ## Parsers of a level -/

namespace Parser

structure Fits (P : Parsing) (levels : Nat) (ts : List Token) : Prop where
  levels : ts.length ≤ levels
  rounds : ts.length ≤ P.rounds
  depth : ts.length ≤ P.maxDepth

/-- The parser of a level comes to its tail, with the expression that the tokens stand for. -/
def Parses (P : Parsing) (nesting level : Nat) (ts : List Token) (e : Expr) : Prop :=
  ∀ rest, Stops (level + 1) (ahead P rest).kind → ∃ r rounds, r.unplaced = e.bare ∧
    P.rounds ≤ rounds + ts.length ∧
    exprAt nesting level P (ts ++ rest) = tailAt nesting level rounds r P rest

section

variable {P : Parsing} {nesting level : Nat} {ts rest : List Token} {e : Expr}

theorem Parses.ends (parses : Parses P nesting level ts e) (within : level ≤ 7)
    (stops : Stops level (ahead P rest).kind) :
    ∃ r, r.unplaced = e.bare ∧ exprAt nesting level P (ts ++ rest) = .ok (r, rest) := by
  obtain ⟨r, rounds, same, -, ran⟩ := parses rest (stops.mono (Nat.le_succ level))
  exact ⟨r, same, ran.trans (tailAt_stops stops within)⟩

theorem ahead_append (begins : opens (ahead P ts).kind = true) :
    ahead P (ts ++ rest) = ahead P ts := by
  cases ts with
  | nil => cases begins
  | cons t ts => rfl

theorem unaryOr_opens {operand : Position → Parser Expr} {inner : Parser Expr}
    (begins : opens (ahead P ts).kind = true) :
    unaryOr operand inner P ts = postfixed inner P ts := by
  rw [unaryOr, bind_ok peek_run]
  cases kind : (ahead P ts).kind with
  | symbol s =>
    rw [kind] at begins
    obtain rfl : s = .openParen := of_decide_eq_true begins
    rfl
  | _ => rfl

theorem Parses.looser (parses : Parses P nesting (level + 1) ts e) (within : level + 1 ≤ 7)
    (begins : level = 6 → opens (ahead P ts).kind = true) : Parses P nesting level ts e := by
  intro rest stops
  obtain ⟨r, same, ran⟩ := parses.ends within stops
  refine ⟨r, P.rounds, same, Nat.le_add_right _ _, ?_⟩
  by_cases binary : level < 6
  · obtain ⟨operator?, is, -⟩ := operators_getElem binary
    rw [exprAt_binary nesting is, tailAt_binary _ _ _ is, chain, bind_ok ran]
    rfl
  · obtain rfl : level = 6 := by omega
    rw [exprAt_six, unary_eq, unaryOr_opens (ahead_append (begins rfl) ▸ begins rfl)]
    exact ran

theorem Parses.loosen {tight : Nat} (parses : Parses P nesting tight ts e) (within : tight ≤ 7)
    (begins : tight = 7 → opens (ahead P ts).kind = true) (le : level ≤ tight) :
    Parses P nesting level ts e := by
  induction tight with
  | zero => exact (Nat.le_zero.mp le) ▸ parses
  | succ tight ih =>
    rcases Nat.le_succ_iff.mp le with below | rfl
    · exact ih (parses.looser within fun is => begins (congrArg Nat.succ is)) (by omega)
        (by omega) below
    · exact parses

/-! ## Parentheses -/

theorem Parses.parenthesized {before after : Token} (parses : Parses P nesting 0 ts e)
    (opening : before.kind = .symbol .openParen) (closing : after.kind = .symbol .closeParen) :
    Parses P (nesting + 1) 7 (before :: ts ++ [after]) e := by
  intro rest stops
  have stopped : Stops 0 (ahead P (after :: rest)).kind := closing ▸ stops_symbol (by decide) 0
  obtain ⟨r, same, ran⟩ := parses.ends (Nat.zero_le 7) stopped
  refine ⟨r, P.rounds, same, Nat.le_add_right _ _, ?_⟩
  have inside : primary (expr (nesting + 1)) P (before :: ts ++ [after] ++ rest) = .ok (r, rest) := by
    rw [List.append_assoc, List.cons_append, primary, advance_cons, opening]
    dsimp only
    rw [expr_succ, List.singleton_append, bind_ok ran, expect_cons closing]
    rfl
  rw [exprAt_seven, postfixed, bind_ok inside]
  rfl

theorem Fits.exists_levels {levels : Nat} {t : Token} (fits : Fits P levels (t :: ts)) :
    ∃ n, levels = n + 1 :=
  Nat.exists_eq_add_one.2 (Nat.lt_of_lt_of_le (Nat.succ_pos _) fits.levels)

theorem Fits.mono {levels : Nat} {more : List Token} (fits : Fits P levels more)
    (le : ts.length ≤ more.length) : Fits P levels ts where
  levels := Nat.le_trans le fits.levels
  rounds := Nat.le_trans le fits.rounds
  depth := Nat.le_trans le fits.depth

theorem Fits.inside {more : List Token} (fits : Fits P (nesting + 1) more)
    (lt : ts.length < more.length) (some : 0 < ts.length) :
    ∃ inner, nesting = inner + 1 ∧ Fits P (inner + 1) ts := by
  have ⟨levels, rounds, depth⟩ := fits
  obtain ⟨inner, rfl⟩ : ∃ inner, nesting = inner + 1 := ⟨nesting - 1, by omega⟩
  exact ⟨inner, rfl, by omega, by omega, by omega⟩

def Reads (P : Parsing) (e : Expr) : Prop :=
  ∀ ⦃nesting ts⦄, ts.map Token.kind = e.tokens → Fits P (nesting + 1) ts →
    Parses P nesting e.level ts e

theorem length_pos_of_tokens (tokens : ts.map Token.kind = e.tokens) : 0 < ts.length := by
  obtain ⟨first, more, split, -⟩ := e.begins_tokens
  have := congrArg List.length (tokens.trans split)
  simp only [List.length_map, List.length_cons] at this
  omega

theorem opens_of_tokens (tokens : ts.map Token.kind = e.tokens) (tight : e.level = 7) :
    opens (ahead P ts).kind = true := by
  obtain ⟨first, more, split, is⟩ := e.begins_tokens
  obtain ⟨t, others, rfl, rfl, -⟩ := List.map_eq_cons_iff.mp (tokens.trans split)
  refine is.resolve_right fun signed => ?_
  have := signed.1
  omega

/-- What parses on its own parses, in parentheses if need be, where any level is wanted. -/
theorem Reads.parses (reads : Reads P e) (within : level ≤ 7)
    (tokens : ts.map Token.kind = e.tokensAt level) (fits : Fits P (nesting + 1) ts) :
    Parses P nesting level ts e := by
  have alone {nesting level : Nat} {ts : List Token} (tokens : ts.map Token.kind = e.tokens)
      (fits : Fits P (nesting + 1) ts) (le : level ≤ e.level) : Parses P nesting level ts e :=
    (reads tokens fits).loosen e.level_le (opens_of_tokens tokens) le
  unfold Expr.tokensAt inParens at tokens
  split at tokens
  · rw [List.cons_append] at tokens
    obtain ⟨before, others, rfl, opening, closed⟩ := List.map_eq_cons_iff.mp tokens
    obtain ⟨inner, last, rfl, inside, ends⟩ := List.map_eq_append_iff.mp closed
    obtain ⟨after, rfl, closing⟩ := List.map_eq_singleton_iff.mp ends
    have short : inner.length < (before :: (inner ++ [after])).length := by
      simp only [List.length_cons, List.length_append]
      omega
    obtain ⟨entered, rfl, fewer⟩ := fits.inside short (length_pos_of_tokens inside)
    exact ((alone inside fewer (Nat.zero_le _)).parenthesized opening closing).loosen
      (Nat.le_refl 7) (fun _ => congrArg opens opening) within
  · rename_i tight
    simp only [decide_eq_true_eq] at tight
    exact alone tokens fits (by omega)

end

end Parser

end SceneScript.Source
