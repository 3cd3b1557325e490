import SceneScript.Proofs.Machine.Ends
import SceneScript.Proofs.Source.Folding
import SceneScript.Proofs.Source.Printing
import SceneScript.Typing.Checker

/-!
# Folding of literals

A minus in front of a literal is folded by negating a whole number without a bound. The literals
that a parser comes by, those in between included, are such that the negation is one of 64 bits, and
the folded literal has the value that the machine gives for the minus applied to the literal
(`literals_folded`).
-/

namespace SceneScript

open Run (Ends)
open Typing (Check)
open Token (Stream)

namespace Source

namespace Expr

/-- An expression is lowered, in every context, to code that gives the value if so many steps are
left, and gives no other value. -/
def Denotes (e : Expr) (steps : Nat) (v : Value) : Prop :=
  ∀ c st, ∃ typed, ((Check.expr e).runIn c st).1 = some typed ∧ ∀ classes locals limits s,
    Ends limits s (typed.code.eval classes locals) (fun w _ => w = v)
      fun _ _ => limits.maxSteps < s.steps + steps

/-- A minus in front of the expression is folded, into a literal with the value that the machine
gives for the minus applied to the expression. -/
def Folds (e : Expr) : Prop :=
  ∀ p, ∃ folded v, Parser.applyUnary .neg p e = pure folded ∧ folded.Denotes 1 v ∧
    (unaryOf p .neg e).Denotes 2 v

/-! ## Values of literals -/

section

variable {classes : List HostClass} {locals : Array Value} {limits : Limits} {s : RunState}

theorem const_ends (p : Position) (c : Constant) :
    Ends limits s ((Code.const p c).eval classes locals)
      (fun w s' => w = c.value ∧ s'.steps = s.steps + 1)
      fun _ _ => limits.maxSteps < s.steps + 1 := by
  rw [Code.eval]
  refine .located (.tick_bind (fun full => ?_) fun _ => .pure ⟨rfl, rfl⟩)
  omega

theorem negated_ends (p q : Position) (c : Constant) {v : Value}
    (gives : UnaryOp.apply .neg c.value = .ok v) :
    Ends limits s ((Code.unary p .neg (.const q c)).eval classes locals) (fun w _ => w = v)
      fun _ _ => limits.maxSteps < s.steps + 2 := by
  rw [Code.eval]
  refine .located (.tick_bind (fun full => ?_) fun _ => ?_)
  · omega
  · refine ((const_ends q c).mono (fun _ _ => id) fun _ _ full => ?_).bind fun w s' is => ?_
    · exact full
    · rw [is.1, gives]
      exact .pure rfl

end

theorem denotes_constant {e : Expr} {p : Position} {c : Constant} {t : Ty}
    (lowered : Check.expr e = Check.constant p c t) : e.Denotes 1 c.value := by
  intro k st
  refine ⟨⟨.const p c, t⟩, ?_, fun _ _ _ _ => ?_⟩
  · rw [lowered]
    rfl
  · exact (const_ends p c).mono (fun _ _ is => is.1) fun _ _ => id

theorem denotes_negated {e : Expr} {q : Position} {c : Constant} {t : Ty} {v : Value}
    (lowered : Check.expr e = Check.constant q c t) (numeric : t.isNumeric = true)
    (gives : UnaryOp.apply .neg c.value = .ok v) (p : Position) :
    (unaryOf p .neg e).Denotes 2 v := by
  intro k st
  refine ⟨⟨.unary p .neg (.const q c), t⟩, ?_, fun _ _ _ _ => negated_ends p q c gives⟩
  rw [unaryOf, Check.expr, lowered, Check.constant, pure_bind, Check.unary]
  dsimp only
  rw [if_pos numeric]
  rfl

theorem folds_int {q : Position} {v : Int} (negatable : Negatable v) : (int q v).Folds := by
  intro p
  refine ⟨int p (-v), .int (Int64.ofInt (-v)), rfl, ?_, ?_⟩
  · exact denotes_constant (c := .int (Int64.ofInt (-v))) (by rw [Check.expr])
  · refine denotes_negated (c := .int (Int64.ofInt v)) (by rw [Check.expr]) rfl ?_ p
    simp only [Constant.value, UnaryOp.apply, negatable.neg?]

theorem folds_float (q : Position) (x : Float) : (float q x).Folds := by
  intro p
  refine ⟨float p (-x), .float (-x), rfl, ?_, ?_⟩
  · exact denotes_constant (c := .float (-x)) (by rw [Check.expr])
  · exact denotes_negated (c := .float x) (by rw [Check.expr]) rfl rfl p

theorem LiteralsFit.folds {e : Expr} (fits : e.LiteralsFit) (number : e.isNumber = true) :
    e.Folds := by
  cases e with
  | int q v => exact folds_int (fits q v .self)
  | float q x => exact folds_float q x
  | _ => cases number

end Expr

/-! ## Texts -/

/-- The literals in what a parser gives are negatable. The parser does the same if it looks at every
literal that it builds, folds by the operation of the machine and does anything else where a literal
is not negatable or the operation fails. Wherever an operand is read, it is folded, if it is a
number, into what the minus applied to it evaluates to. -/
theorem literals_folded (text : String) (maxDepth : Nat) :
    (∀ otherwise,
      (Parser.exprBy otherwise maxDepth).onText maxDepth text = Expr.parse maxDepth text ∧
      (Parser.unitBy otherwise).onText maxDepth text = CompilationUnit.parse maxDepth text) ∧
    (∀ e, Expr.parse maxDepth text = .ok e → e.LiteralsFit) ∧
    (∀ u, CompilationUnit.parse maxDepth text = .ok u → BlockFits u.entry.body) ∧
    ∀ stream, Stream.ofText text = .ok stream → ∀ ahead, ahead <:+ stream.tokens →
      ∀ levels rounds e left,
        Parser.unary levels ⟨stream.finish, maxDepth, rounds⟩ ahead = .ok (e, left) →
        e.LiteralsFit ∧ (e.isNumber = true → e.Folds) := by
  refine ⟨fun otherwise => ⟨?_, ?_⟩, ?_, ?_, ?_⟩
  · exact ((Parser.agree_expr otherwise maxDepth).onText maxDepth text).1
  · exact ((Parser.agree_unit otherwise).onText maxDepth text).1
  · exact ((Parser.agree_expr Parser.tooDeepHere maxDepth).onText maxDepth text).2
  · exact ((Parser.agree_unit Parser.tooDeepHere).onText maxDepth text).2
  · intro stream reads ahead end' levels rounds e left ran
    have fit : ∀ t ∈ ahead, LiteralFits t := fun t mem =>
      Parser.fits_of_ofText reads t (end'.subset mem)
    obtain ⟨fits, -⟩ :=
      ((Parser.agree_unary Parser.tooDeepHere levels) _ ahead fit).2 e left ran
    exact ⟨fits, fits.folds⟩

/-- Two minuses in front of the greatest literal, with a parenthesis between them: the literal in
between is the negated one, and it is folded again. -/
theorem literals_folded_twice :
    Expr.parse 4 "-(-9223372036854775807)" = .ok (.int ⟨1, 1⟩ 9223372036854775807) ∧
      (Expr.int ⟨1, 1⟩ 9223372036854775807).LiteralsFit ∧
      (Expr.int ⟨1, 3⟩ (-9223372036854775807)).Folds := by
  have text : "-(-9223372036854775807)".toList =
      '-' :: '(' :: '-' :: '9' :: "223372036854775807)".toList := by
    decide
  have minus (s : List Char) : Token.Piece.next '-' ('(' :: s) =
      .ok ⟨['-'], some (.symbol .minus), '(' :: s⟩ := rfl
  have opens (s : List Char) : Token.Piece.next '(' s =
      .ok ⟨['('], some (.symbol .openParen), s⟩ := by
    cases s <;> rfl
  have inner (s : List Char) : Token.Piece.next '-' ('9' :: s) =
      .ok ⟨['-'], some (.symbol .minus), '9' :: s⟩ := rfl
  have magnitude : Token.Piece.next '9' "223372036854775807)".toList =
      .ok ⟨"9223372036854775807".toList, some (.int 9223372036854775807), [')']⟩ := rfl
  have closes : Token.Piece.next ')' [] = .ok ⟨[')'], some (.symbol .closeParen), []⟩ := rfl
  have reads : Stream.ofText "-(-9223372036854775807)" =
      .ok ⟨[⟨.symbol .minus, ⟨1, 1⟩⟩, ⟨.symbol .openParen, ⟨1, 2⟩⟩, ⟨.symbol .minus, ⟨1, 3⟩⟩,
        ⟨.int 9223372036854775807, ⟨1, 4⟩⟩, ⟨.symbol .closeParen, ⟨1, 23⟩⟩], ⟨1, 24⟩⟩ := by
    rw [Stream.ofText, text, Stream.extend_ok (minus _), Stream.extend_ok (opens _),
      Stream.extend_ok (inner _), Stream.extend_ok magnitude, Stream.extend_ok closes,
      Stream.extend_nil]
    rfl
  have parsed : Expr.parse 4 "-(-9223372036854775807)" =
      .ok (.int ⟨1, 1⟩ 9223372036854775807) := by
    rw [Expr.parse, Parser.onText, reads]
    rfl
  obtain ⟨-, fits, -, operands⟩ := literals_folded "-(-9223372036854775807)" 4
  refine ⟨parsed, fits _ parsed, ?_⟩
  exact (operands _ reads _ (List.drop_suffix 1 _) 2 5 _ [] rfl).2 rfl

end Source

end SceneScript
