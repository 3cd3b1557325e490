import SceneScript.Proofs.Source.Depth
import SceneScript.Proofs.Source.Entering
import SceneScript.Proofs.Source.Rounds
import SceneScript.Proofs.Template.Parsing
import SceneScript.Proofs.Typing.Units
import SceneScript.Proofs.Typing.Recursion

/-!
# The limit on nesting

The limit on nesting bounds what is done to a text: how deep parsers and checks call each other, how
high expressions are before and after they are lowered, and how deep blocks are nested. A higher
limit changes nothing for a text that is accepted under a lower one (`nesting_bounded`).
-/

namespace SceneScript

open Typing (Check State checkUnit)
open Typing.Check (Checking checking widen)

namespace Source

variable {maxDepth : Nat}

/-! ## Parsers -/

/-- A parser that ends with the tokens of a text and stays within them. -/
structure Parser.StaysWithin (maxDepth : Nat) (m : Parser α) : Prop where
  /-- It takes no more rounds in any loop than there are tokens. -/
  ends : ∀ finish rounds ts, ts.length ≤ rounds →
    m ⟨finish, maxDepth, rounds⟩ ts = m ⟨finish, maxDepth, ts.length⟩ ts
  left : ∀ finish rounds ts a left, m ⟨finish, maxDepth, rounds⟩ ts = .ok (a, left) → left <:+ ts
  fault : ∀ finish rounds ts f, m ⟨finish, maxDepth, rounds⟩ ts = .error f →
    f.position = finish ∨ ∃ t ∈ ts, f.position = t.position

theorem Parser.StaysWithin.of_yields {good : (Position → Prop) → α → Prop} {m : Parser α}
    (steady : ∀ c : Lengthening, c.Steady m) (yields : ∀ P, Yields P maxDepth (good P) m) :
    m.StaysWithin maxDepth where
  ends finish rounds ts enough :=
    let c : Lengthening := ⟨⟨finish, maxDepth, rounds⟩, ⟨finish, maxDepth, ts.length⟩, rfl, rfl⟩
    (steady c ⟨enough, Nat.le_refl _⟩).same
  left finish rounds ts a left ran := by
    have ends := yields (fun _ => True) ⟨finish, maxDepth, rounds⟩ ts rfl trivial fun _ _ => trivial
    rw [ran] at ends
    exact ends.2
  fault finish rounds ts f ran := by
    have ends := yields (fun p => p = finish ∨ ∃ t ∈ ts, p = t.position)
      ⟨finish, maxDepth, rounds⟩ ts rfl (.inl rfl) fun t mem => .inr ⟨t, mem, rfl⟩
    rwa [ran] at ends

theorem Parser.expr_staysWithin (maxDepth : Nat) : (expr maxDepth).StaysWithin maxDepth :=
  .of_yields (fun _ => Lengthening.steady_expr maxDepth) fun _ => yields_expr (Nat.le_refl maxDepth)

theorem Parser.unit_staysWithin (maxDepth : Nat) : unit.StaysWithin maxDepth :=
  .of_yields (fun _ => Lengthening.steady_unit) fun _ => yields_unit

/-! ## Trees -/

/-- The height of an expression, how deep checking it calls itself, and the height of what it is
lowered to, before and after it is widened. -/
structure Expr.Bounded (maxDepth : Nat) (e : Expr) : Prop where
  height : e.height = e.treeHeight
  within : e.height ≤ maxDepth
  checked : ∀ beyond, (checking beyond (2 * maxDepth)).expr e = Check.expr e
  lowered : ∀ c s, ∀ typed ∈ ((Check.expr e).runIn c s).1,
    typed.code.height < 2 * maxDepth ∧ (widen typed).code.height ≤ 2 * maxDepth

structure CompilationUnit.Bounded (maxDepth : Nat) (u : CompilationUnit) : Prop where
  exprs : ∀ e, Mentions u.entry.body e → e.Bounded maxDepth
  nesting : 1 + nestingIn u.entry.body ≤ maxDepth
  checked : ∀ beyond,
    (checking beyond (2 * maxDepth)).block u.entry.body = Check.statements u.entry.body
  lowered : ∀ symbols program, checkUnit symbols u = .ok program →
    PartsWithin (2 * maxDepth) (nestedIn program.body)

variable {P : Position → Prop}

theorem Expr.Built.treeHeight_le {e : Expr} (built : e.Built P maxDepth) :
    e.treeHeight ≤ maxDepth :=
  built.height_eq ▸ built.height_le

theorem Expr.Built.bounded {e : Expr} (built : e.Built P maxDepth) : e.Bounded maxDepth where
  height := built.height_eq
  within := built.height_le
  checked beyond := Check.checking_expr beyond (by have := built.treeHeight_le; omega)
  lowered _ _ _ given := Check.height_expr built.treeHeight_le given

theorem CompilationUnit.Built.bounded {u : CompilationUnit} (built : u.Built P maxDepth) :
    u.Bounded maxDepth :=
  have body := built.entry.body
  have low (e : Expr) (mentions : Mentions u.entry.body e) : e.treeHeight ≤ maxDepth :=
    (body.mentions mentions).treeHeight_le
  { exprs _ mentions := (body.mentions mentions).bounded
    nesting := body.nesting_le
    checked beyond := Check.checking_block beyond body.nesting_le low (Nat.two_mul maxDepth).ge
    lowered _ _ accepted := Typing.checkUnit_within low accepted }

/-! ## Texts -/

/-- Under every limit, parsers call each other nested at most once more often than it says, and end
within the text; what they accept is bounded, and the same under every higher limit. -/
theorem nesting_bounded (maxDepth : Nat) :
    (∀ beyond, (Parser.entering maxDepth beyond (maxDepth + 1) 0).expr = Parser.expr maxDepth ∧
      ∀ finish rounds ts,
        Parser.unitOver (Parser.entering maxDepth beyond (maxDepth + 1) 0).block
          ⟨finish, maxDepth, rounds⟩ ts = Parser.unit ⟨finish, maxDepth, rounds⟩ ts) ∧
    (Parser.expr maxDepth).StaysWithin maxDepth ∧ Parser.unit.StaysWithin maxDepth ∧
    (∀ text e, Expr.parse maxDepth text = .ok e →
      (∀ part, e.Contains part → part.Bounded maxDepth) ∧
        ∀ high, maxDepth ≤ high → Expr.parse high text = .ok e) ∧
    ∀ text u, CompilationUnit.parse maxDepth text = .ok u →
      u.Bounded maxDepth ∧ ∀ high, maxDepth ≤ high → CompilationUnit.parse high text = .ok u := by
  refine ⟨fun beyond => ⟨Parser.entering_expr beyond maxDepth, fun finish rounds ts => ?_⟩,
    Parser.expr_staysWithin maxDepth, Parser.unit_staysWithin maxDepth, fun text e parsed => ?_,
    fun text u parsed => ?_⟩
  · exact Parser.entering_unit beyond ⟨finish, maxDepth, rounds⟩ ts
  · have built := Expr.built_of_parse parsed
    exact ⟨fun part contains => (built.contains contains).bounded,
      fun high deeper => Expr.parse_deeper deeper parsed⟩
  · exact ⟨(CompilationUnit.built_of_parse parsed).bounded,
      fun high deeper => CompilationUnit.parse_deeper deeper parsed⟩

def negated : Expr :=
  .unary ⟨1, 1⟩ 2 .neg (.var ⟨1, 2⟩ "a")

theorem parse_negated : Expr.parse 2 "-a" = .ok negated := by
  have text : "-a".toList = ['-', 'a'] := by decide +kernel
  have minus : Token.Piece.next '-' ['a'] = .ok ⟨['-'], some (.symbol .minus), ['a']⟩ := rfl
  have name : Token.Piece.next 'a' [] = .ok ⟨['a'], some (.word "a"), []⟩ := rfl
  rw [Expr.parse, Parser.onText, Token.Stream.ofText, text, Token.Stream.extend_ok minus,
    Token.Stream.extend_ok name, Token.Stream.extend_nil]
  rfl

/-- A negation takes two levels, one for the expression and one for its operand, and so does a unit
whose body is a single statement. -/
theorem nesting_bounded_negated :
    negated.Bounded 2 ∧ Expr.parse 96 "-a" = .ok negated ∧
      ∃ u, CompilationUnit.parse 2 (Template.wrap "") = .ok u ∧ u.Bounded 2 := by
  obtain ⟨-, -, -, exprs, units⟩ := nesting_bounded 2
  obtain ⟨u, -, parsed, -⟩ := Template.parse_wrap_empty 0
  obtain ⟨bounded, deeper⟩ := exprs "-a" negated parse_negated
  exact ⟨bounded negated .self, deeper 96 (by decide), u, parsed, (units _ u parsed).1⟩

end Source

end SceneScript
