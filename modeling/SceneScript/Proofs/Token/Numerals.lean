import SceneScript.Proofs.Token.Seam

/-!
# The numerals that are read

Reading a text that begins with a digit takes a written numeral, and the longest one in front of the
text (`Numeral.split_longest`). Each part is read as far as it goes: where another part or the end
of the numeral follows, it ends where that begins.
-/

/-!
## The lexical grammar

What a text consists of, said without reading it: gaps of blanks and comments (`Gap`), and lexemes,
each of which spells a token (`Spells`). A lexeme spells one token only (`Spells.unique`), since
reading it alone gives that token back (`Spells.read`). The numeral that reading a text takes is the
longest one in front of it (`Numeral.split_longest`).
-/

namespace SceneScript.Token

/-! ## Numerals -/

/-- Digits, with single underscores between some of them. -/
inductive DigitRun : List Char → Prop
  | last {c : Char} : c.isDigit = true → DigitRun [c]
  | digit {c : Char} {s : List Char} : c.isDigit = true → DigitRun s → DigitRun (c :: s)
  | underscore {c : Char} {s : List Char} : c.isDigit = true → DigitRun s → DigitRun (c :: '_' :: s)

inductive Fraction : List Char → Prop
  | none : Fraction []
  | point {s : List Char} : DigitRun s → Fraction ('.' :: s)

inductive Exponent : List Char → Prop
  | none : Exponent []
  | mark {mark : Char} {sign s : List Char} : mark = 'e' ∨ mark = 'E' →
      sign = [] ∨ sign = ['+'] ∨ sign = ['-'] → DigitRun s → Exponent (mark :: (sign ++ s))

structure Numeral.Written (n : Numeral) : Prop where
  whole : DigitRun n.whole
  fraction : Fraction n.fraction
  exponent : Exponent n.exponent
  suffix : n.suffix = [] ∨ n.suffix = ['f'] ∨ n.suffix = ['F']

/-- A numeric literal at the front of a text, no shorter than any other one there. -/
structure Numeral.Longest (n : Numeral) (s : List Char) : Prop where
  written : n.Written
  front : n.lexeme <+: s
  longest : ∀ m : Numeral, m.Written → m.lexeme <+: s → m.lexeme <+: n.lexeme

/-! ## Lexemes -/

/-- How the content of a string literal is written between its quotes. -/
inductive Escaped : List Char → List Char → Prop
  | nil : Escaped [] []
  | plain {c : Char} {content written : List Char} : c ≠ '"' → c ≠ '\\' → c ≠ '\n' →
      Escaped content written → Escaped (c :: content) (c :: written)
  | escape {c e : Char} {content written : List Char} : escaped? c = some e →
      Escaped content written → Escaped (e :: content) ('\\' :: c :: written)

/-- The token that a lexeme spells. -/
inductive Spells : List Char → Kind → Prop
  | keyword (k : Keyword) : Spells k.text.toList (.keyword k)
  | word {c : Char} {s : List Char} : Text.opensWord c = true →
      (∀ d ∈ s, Text.inWord d = true) → (∀ k : Keyword, k.text.toList ≠ c :: s) →
      Spells (c :: s) (.word (String.ofList (c :: s)))
  | symbol (k : Symbol) : Spells k.text.toList (.symbol k)
  | int {n : Numeral} : n.Written → n.isFloat = false →
      Decimal.natOfDigits n.wholeDigits < Nat.pow 2 63 →
      Spells n.lexeme (.int (Decimal.natOfDigits n.wholeDigits))
  | float {n : Numeral} : n.Written → n.isFloat = true → Spells n.lexeme (.float n.value.toFloat)
  | string {content written : List Char} : Escaped content written →
      Spells ('"' :: (written ++ ['"'])) (.string (String.ofList content))

/-! ## Gaps -/

def LineEnds (s : List Char) : Prop :=
  s = [] ∨ ∃ rest, s = '\n' :: rest

/-- A run of blanks and comments with the given text behind it. A line comment reaches to the end of
its line, a block comment to the first `*/`. -/
inductive Gap : List Char → List Char → Prop
  | nil {rest : List Char} : Gap [] rest
  | blank {c : Char} {gap rest : List Char} : Text.isBlank c = true → Gap gap rest →
      Gap (c :: gap) rest
  | line {content gap rest : List Char} : '\n' ∉ content → LineEnds (gap ++ rest) →
      Gap gap rest → Gap ('/' :: '/' :: (content ++ gap)) rest
  | block {content gap rest : List Char} : ¬['*', '/'] <:+: content → Gap gap rest →
      Gap ('/' :: '*' :: (content ++ '*' :: '/' :: gap)) rest

/-! ## Texts with no further piece -/

/-- A string literal that is not closed ends here: the text ends, also behind a lone backslash, or
the line does. -/
def LiteralBreaks (s : List Char) : Prop :=
  s = [] ∨ s = ['\\'] ∨ ∃ rest, s = '\n' :: rest

inductive Stuck : LexicalError → List Char → Prop
  | comment {s : List Char} : ¬['*', '/'] <:+: s → Stuck .unterminatedComment ('/' :: '*' :: s)
  | string {content written s : List Char} : Escaped content written → LiteralBreaks s →
      Stuck .unterminatedString ('"' :: (written ++ s))
  | escape {content written s : List Char} {c : Char} : Escaped content written →
      escaped? c = none → Stuck (.unknownEscape c) ('"' :: (written ++ '\\' :: c :: s))
  | numeral {n : Numeral} {c : Char} {s : List Char} : n.Longest (n.lexeme ++ c :: s) →
      Text.inWord c = true → Stuck (.invalidNumeral (n.text.push c)) (n.lexeme ++ c :: s)
  | range {n : Numeral} {s : List Char} : n.Longest (n.lexeme ++ s) → n.isFloat = false →
      Nat.pow 2 63 ≤ Decimal.natOfDigits n.wholeDigits →
      Stuck (.integerOutOfRange n.text) (n.lexeme ++ s)
  | character {c : Char} {s : List Char} : Text.isBlank c = false →
      c ≠ '"' → (∀ lexeme kind, lexeme <+: c :: s → ¬Spells lexeme kind) →
      Stuck (.unexpectedCharacter c) (c :: s)

end SceneScript.Token

namespace SceneScript.Token

theorem DigitRun.starts {s : List Char} (run : DigitRun s) (t : List Char) :
    startsWithDigit (s ++ t) = true := by
  cases run with
  | last digit | digit digit | underscore digit => exact digit

def NoDigits (s : List Char) : Prop :=
  ∀ c ∈ s.head?, c.isDigit = false ∧ c ≠ '_'

theorem NoDigits.split {s : List Char} (stops : NoDigits s) : splitDigits s = ([], s) := by
  cases s with
  | nil => rfl
  | cons c rest =>
    obtain ⟨notDigit, notUnderscore⟩ := stops c rfl
    simp [splitDigits, notDigit, notUnderscore]

theorem DigitRun.split {s : List Char} (run : DigitRun s) (t : List Char) :
    splitDigits (s ++ t) = (s ++ (splitDigits t).1, (splitDigits t).2) := by
  induction run with
  | last digit => simp [splitDigits, digit]
  | digit digit _ ih => simp [splitDigits, digit, ih]
  | underscore digit run ih => simp [splitDigits, digit, run.starts, ih]

/-- The digits read behind a digit make up a run with it. The induction needs those read at the
front as well, for what follows an underscore. -/
theorem splitDigits_run (s : List Char) :
    (∀ c : Char, c.isDigit = true → DigitRun (c :: (splitDigits s).1)) ∧
      (startsWithDigit s = true → DigitRun (splitDigits s).1) := by
  induction s with
  | nil => exact ⟨fun c digit => .last digit, nofun⟩
  | cons d rest ih =>
    by_cases digit : d.isDigit = true
    · have found : (splitDigits (d :: rest)).1 = d :: (splitDigits rest).1 := by
        simp [splitDigits, digit]
      rw [found]
      exact ⟨fun c first => .digit first (ih.1 d digit), fun _ => ih.1 d digit⟩
    · refine ⟨fun c first => ?_, fun starts => absurd starts digit⟩
      by_cases underscore : d = '_' ∧ startsWithDigit rest = true
      · obtain ⟨rfl, starts⟩ := underscore
        have found : (splitDigits ('_' :: rest)).1 = '_' :: (splitDigits rest).1 := by
          simp [splitDigits, starts]
        rw [found]
        exact .underscore first (ih.2 starts)
      · have found : (splitDigits (d :: rest)).1 = [] := by
          rw [splitDigits, if_neg (by simpa [digit] using underscore)]
        rw [found]
        exact .last first

theorem splitFraction_fraction (s : List Char) : Fraction (splitFraction s).1 := by
  unfold splitFraction
  split
  · split
    · exact .point ((splitDigits_run _).2 ‹_›)
    · exact .none
  · exact .none

theorem splitSign_is (s : List Char) :
    (splitSign s).1 = [] ∨ (splitSign s).1 = ['+'] ∨ (splitSign s).1 = ['-'] := by
  unfold splitSign
  split <;> simp

theorem splitExponent_exponent (s : List Char) : Exponent (splitExponent s).1 := by
  unfold splitExponent
  split
  · next m rest =>
    dsimp only
    split
    · next taken =>
      simp only [Bool.and_eq_true, Bool.or_eq_true, beq_iff_eq] at taken
      exact .mark taken.1 (splitSign_is rest) ((splitDigits_run _).2 taken.2)
    · exact .none
  · exact .none

theorem splitSuffix_suffix (s : List Char) :
    (splitSuffix s).1 = [] ∨ (splitSuffix s).1 = ['f'] ∨ (splitSuffix s).1 = ['F'] := by
  unfold splitSuffix
  split <;> simp

/-! ## The longest numeral -/

def OpensWith (allowed : List Char) (s : List Char) : Prop :=
  ∀ c ∈ s.head?, c ∈ allowed

theorem OpensWith.nil (allowed : List Char) : OpensWith allowed [] :=
  nofun

theorem OpensWith.noDigits {s : List Char} (opens : OpensWith ['.', 'e', 'E', 'f', 'F'] s) :
    NoDigits s := by
  intro c first
  have among := opens c first
  simp only [List.mem_cons, List.not_mem_nil, or_false] at among
  rcases among with rfl | rfl | rfl | rfl | rfl <;> decide

theorem OpensWith.mono {allowed wider : List Char} {s : List Char} (opens : OpensWith allowed s)
    (among : allowed ⊆ wider) : OpensWith wider s :=
  fun c first => among (opens c first)

theorem opensWith_suffix {s t : List Char} (suffix : s = [] ∨ s = ['f'] ∨ s = ['F'])
    (more : s = [] → OpensWith ['f', 'F'] t) : OpensWith ['f', 'F'] (s ++ t) := by
  rcases suffix with rfl | rfl | rfl
  · exact more rfl
  · simp [OpensWith]
  · simp [OpensWith]

theorem Exponent.opensWith {s t : List Char} (exponent : Exponent s)
    (more : s = [] → OpensWith ['e', 'E', 'f', 'F'] t) :
    OpensWith ['e', 'E', 'f', 'F'] (s ++ t) := by
  cases exponent with
  | none => exact more rfl
  | mark is => rcases is with rfl | rfl <;> simp [OpensWith]

theorem Fraction.opensWith {s t : List Char} (fraction : Fraction s)
    (more : s = [] → OpensWith ['.', 'e', 'E', 'f', 'F'] t) :
    OpensWith ['.', 'e', 'E', 'f', 'F'] (s ++ t) := by
  cases fraction with
  | none => exact more rfl
  | point => simp [OpensWith]

theorem splitSign_digit {s : List Char} (starts : startsWithDigit s = true) :
    splitSign s = ([], s) := by
  unfold splitSign
  split
  · cases starts
  · cases starts
  · rfl

theorem splitSign_sign {sign s : List Char} (is : sign = [] ∨ sign = ['+'] ∨ sign = ['-'])
    (starts : startsWithDigit s = true) : splitSign (sign ++ s) = (sign, s) := by
  rcases is with rfl | rfl | rfl
  · exact splitSign_digit starts
  · rfl
  · rfl

theorem DigitRun.split_all {s t : List Char} (run : DigitRun s)
    (opens : OpensWith ['.', 'e', 'E', 'f', 'F'] t) : splitDigits (s ++ t) = (s, t) := by
  rw [run.split, opens.noDigits.split, List.append_nil]

theorem DigitRun.split_front {s : List Char} (run : DigitRun s) (t : List Char) :
    s <+: (splitDigits (s ++ t)).1 := by
  rw [run.split]
  exact List.prefix_append _ _

theorem Fraction.split_all {s t : List Char} (fraction : Fraction s)
    (opens : OpensWith ['e', 'E', 'f', 'F'] t) : splitFraction (s ++ t) = (s, t) := by
  cases fraction with
  | none =>
    rw [List.nil_append]
    unfold splitFraction
    split
    · simp [OpensWith] at opens
    · rfl
  | point run =>
    rw [List.cons_append, splitFraction, if_pos (run.starts t),
      run.split_all (opens.mono (List.subset_cons_self _ _))]

theorem Fraction.split_front {s : List Char} (fraction : Fraction s) (t : List Char) :
    s <+: (splitFraction (s ++ t)).1 := by
  cases fraction with
  | none => exact List.nil_prefix
  | point run =>
    rw [List.cons_append, splitFraction, if_pos (run.starts t)]
    exact List.cons_prefix_cons.2 ⟨rfl, run.split_front t⟩

theorem splitExponent_mark {mark : Char} {sign s : List Char} (isMark : mark = 'e' ∨ mark = 'E')
    (isSign : sign = [] ∨ sign = ['+'] ∨ sign = ['-']) (run : DigitRun s) (t : List Char) :
    splitExponent (mark :: (sign ++ s) ++ t) =
      (mark :: (sign ++ (splitDigits (s ++ t)).1), (splitDigits (s ++ t)).2) := by
  have taken : ((mark == 'e' || mark == 'E') && startsWithDigit (s ++ t)) = true := by
    rcases isMark with rfl | rfl <;> simpa using run.starts t
  rw [List.cons_append, List.append_assoc, splitExponent, splitSign_sign isSign (run.starts t)]
  simp only [taken, if_true, List.cons_append]

theorem Exponent.split_all {s t : List Char} (exponent : Exponent s)
    (opens : OpensWith ['f', 'F'] t) : splitExponent (s ++ t) = (s, t) := by
  cases exponent with
  | none =>
    cases t with
    | nil => rfl
    | cons c rest =>
      have notMark : (c == 'e' || c == 'E') = false := by
        rcases List.mem_cons.1 (opens c rfl) with rfl | last
        · rfl
        · cases List.mem_singleton.1 last
          rfl
      simp only [List.nil_append, splitExponent, notMark, Bool.false_and, Bool.false_eq_true,
        if_false]
  | mark isMark isSign run =>
    rw [splitExponent_mark isMark isSign run,
      run.split_all (opens.mono (fun _ => by simp; tauto))]

theorem Exponent.split_front {s : List Char} (exponent : Exponent s) (t : List Char) :
    s <+: (splitExponent (s ++ t)).1 := by
  cases exponent with
  | none => exact List.nil_prefix
  | mark isMark isSign run =>
    rw [splitExponent_mark isMark isSign run, List.cons_prefix_cons,
      List.prefix_append_right_inj]
    exact ⟨rfl, run.split_front t⟩

theorem splitSuffix_front {s : List Char} (suffix : s = [] ∨ s = ['f'] ∨ s = ['F'])
    (t : List Char) : s <+: (splitSuffix (s ++ t)).1 := by
  rcases suffix with rfl | rfl | rfl
  · exact List.nil_prefix
  · exact List.prefix_rfl
  · exact List.prefix_rfl

namespace Numeral

theorem split_written {s : List Char} (starts : startsWithDigit s = true) :
    (split s).1.Written :=
  ⟨(splitDigits_run s).2 starts, splitFraction_fraction _, splitExponent_exponent _,
    splitSuffix_suffix _⟩

theorem split_alone {n : Numeral} (written : n.Written) : split n.lexeme = (n, []) := by
  obtain ⟨whole, fraction, exponent, suffix⟩ := written
  have suffixOpens : OpensWith ['f', 'F'] n.suffix := by
    simpa using opensWith_suffix suffix fun _ => .nil _
  have exponentOpens : OpensWith ['e', 'E', 'f', 'F'] (n.exponent ++ n.suffix) :=
    exponent.opensWith fun _ => suffixOpens.mono (by simp)
  have fractionOpens : OpensWith ['.', 'e', 'E', 'f', 'F']
      (n.fraction ++ (n.exponent ++ n.suffix)) :=
    fraction.opensWith fun _ => exponentOpens.mono (by simp)
  have suffixAlone : splitSuffix n.suffix = (n.suffix, []) := by
    rcases suffix with is | is | is <;> rw [is] <;> rfl
  simp only [split, lexeme, List.append_assoc, whole.split_all fractionOpens,
    fraction.split_all exponentOpens, exponent.split_all suffixOpens, suffixAlone]

theorem split_front {n : Numeral} (written : n.Written) (t : List Char) :
    n.lexeme <+: (split (n.lexeme ++ t)).1.lexeme := by
  obtain ⟨whole, fraction, exponent, suffix⟩ := written
  -- The last part that is there may be read on, those before it are read as they are.
  by_cases noSuffix : n.suffix = []
  · by_cases noExponent : n.exponent = []
    · by_cases noFraction : n.fraction = []
      · simp only [split, lexeme, noSuffix, noExponent, noFraction, List.append_nil,
          List.append_assoc]
        exact (whole.split_front t).trans (List.prefix_append _ _)
      · have opens := fraction.opensWith (t := t) fun none => absurd none noFraction
        simp only [split, lexeme, noSuffix, noExponent, List.append_nil, List.append_assoc,
          whole.split_all opens, List.prefix_append_right_inj]
        exact (fraction.split_front t).trans (List.prefix_append _ _)
    · have opens := exponent.opensWith (t := t) fun none => absurd none noExponent
      have fractionOpens := fraction.opensWith fun _ => opens.mono (by simp)
      simp only [split, lexeme, noSuffix, List.append_nil, List.append_assoc,
        whole.split_all fractionOpens, fraction.split_all opens, List.prefix_append_right_inj]
      exact (exponent.split_front t).trans (List.prefix_append _ _)
  · have opens := opensWith_suffix (t := t) suffix fun none => absurd none noSuffix
    have exponentOpens := exponent.opensWith fun _ => opens.mono (by simp)
    have fractionOpens := fraction.opensWith fun _ => exponentOpens.mono (by simp)
    simp only [split, lexeme, List.append_assoc, whole.split_all fractionOpens,
      fraction.split_all exponentOpens, exponent.split_all opens, List.prefix_append_right_inj]
    exact splitSuffix_front suffix t

theorem split_longest {s : List Char} (starts : startsWithDigit s = true) :
    (split s).1.Longest s where
  written := split_written starts
  front := ⟨_, split_append s⟩
  longest m written front := by
    obtain ⟨t, rfl⟩ := front
    exact split_front written t

end Numeral

end SceneScript.Token
