import SceneScript.Proofs.Template.Visible

/-!
# Tokens written out

How a token is written (`Kind.WrittenAs`), said without the reader: fixed tokens and words as they
are, whole numbers in decimal, and string literals in quotes, where some characters have to be
escaped and some others may be. A written token is read back as it is where a space or the end of
the text follows (`Kind.WrittenAs.next`).
-/

namespace SceneScript.Token

variable {c : Char} {s t lexeme : List Char} {kind : Kind}

/-! ## How tokens are written -/

def escapeLetter? : Char → Option Char
  | '"' => some '"'
  | '\\' => some '\\'
  | '\n' => some 'n'
  | '\t' => some 't'
  | '\r' => some 'r'
  | '\x00' => some '0'
  | _ => none

inductive CharWrittenAs : Char → List Char → Prop
  | raw {c : Char} : c ≠ '"' → c ≠ '\\' → c ≠ '\n' → CharWrittenAs c [c]
  | escaped {c letter : Char} : escapeLetter? c = some letter → CharWrittenAs c ['\\', letter]

inductive Kind.WrittenAs : Kind → List Char → Prop
  | keyword (k : Keyword) : WrittenAs (.keyword k) k.text.toList
  | symbol (k : Symbol) : WrittenAs (.symbol k) k.text.toList
  | word (name : String) : WrittenAs (.word name) name.toList
  | int (value : Nat) : WrittenAs (.int value) value.repr.toList
  | string {content : List Char} {pieces : List (List Char)} :
      List.Forall₂ CharWrittenAs content pieces →
      WrittenAs (.string (String.ofList content)) ('"' :: (pieces.flatten ++ ['"']))

/-- The tokens that a text can hold, apart from literals with a fraction or an exponent: a name is a
word and no keyword, and a whole number fits a signed integer of 64 bits. -/
def Kind.Writable : Kind → Prop
  | .word name => (∃ c s, name.toList = c :: s ∧ Text.opensWord c = true ∧
      ∀ d ∈ s, Text.inWord d = true) ∧ ∀ k : Keyword, k.text ≠ name
  | .int value => value ≤ Nat.pow 2 63 - 1
  | .float _ | .finish => False
  | .keyword _ | .symbol _ | .string _ => True

theorem charWrittenAs_some (c : Char) : ∃ piece, CharWrittenAs c piece := by
  by_cases special : c = '"' ∨ c = '\\' ∨ c = '\n'
  · rcases special with rfl | rfl | rfl
    all_goals exact ⟨_, .escaped rfl⟩
  · simp only [not_or] at special
    obtain ⟨notQuote, notBackslash, notBreak⟩ := special
    exact ⟨_, .raw notQuote notBackslash notBreak⟩

theorem content_written (content : List Char) :
    ∃ pieces, List.Forall₂ CharWrittenAs content pieces := by
  induction content with
  | nil => exact ⟨[], .nil⟩
  | cons c rest ih =>
    obtain ⟨piece, first⟩ := charWrittenAs_some c
    obtain ⟨pieces, others⟩ := ih
    exact ⟨piece :: pieces, .cons first others⟩

theorem Kind.Writable.written (writable : kind.Writable) : ∃ lexeme, kind.WrittenAs lexeme := by
  cases kind with
  | keyword k => exact ⟨_, .keyword k⟩
  | symbol k => exact ⟨_, .symbol k⟩
  | word name => exact ⟨_, .word name⟩
  | int value => exact ⟨_, .int value⟩
  | float value | finish => exact writable.elim
  | string value =>
    obtain ⟨pieces, written⟩ := content_written value.toList
    exact ⟨_, by simpa using WrittenAs.string written⟩

/-! ## Letters are not blank -/

def blankCodes : List Nat :=
  [9, 10, 11, 12, 13, 0x20, 0x85, 0xA0, 0x1680, 0x2000, 0x2001, 0x2002, 0x2003, 0x2004, 0x2005,
   0x2006, 0x2007, 0x2008, 0x2009, 0x200A, 0x2028, 0x2029, 0x202F, 0x205F, 0x3000]

theorem mem_blankCodes (blank : Text.isBlank c = true) : c.toNat ∈ blankCodes := by
  unfold Text.isBlank at blank
  generalize c.toNat = code at blank
  simp only [blankCodes, List.mem_cons, List.not_mem_nil, or_false]
  grind

theorem opensWord_blankCodes :
    ∀ code ∈ blankCodes, Text.opensWord (Char.ofNat code) = false := by
  decide +kernel

theorem not_blank_of_opensWord (opens : Text.opensWord c = true) : Text.isBlank c = false := by
  by_contra blank
  rw [Bool.not_eq_false] at blank
  have := opensWord_blankCodes c.toNat (mem_blankCodes blank)
  rw [Char.ofNat_toNat, opens] at this
  contradiction

/-! ## What follows a written token -/

def Apart (t : List Char) : Prop :=
  t = [] ∨ ∃ rest, t = ' ' :: rest

namespace Apart

theorem noDigits (apart : Apart t) : NoDigits t := by
  rcases apart with rfl | ⟨rest, rfl⟩
  · exact nofun
  · simp [NoDigits]

theorem takeWhile (apart : Apart t) : t.takeWhile Text.inWord = [] := by
  rcases apart with rfl | ⟨rest, rfl⟩
  all_goals rfl

theorem dropWhile (apart : Apart t) : t.dropWhile Text.inWord = t := by
  rcases apart with rfl | ⟨rest, rfl⟩
  all_goals rfl

theorem notWord (apart : Apart t) : t.head?.filter Text.inWord = none := by
  rcases apart with rfl | ⟨rest, rfl⟩
  all_goals rfl

theorem split {digits : List Char} (run : DigitRun digits) (apart : Apart t) :
    Numeral.split (digits ++ t) = (⟨digits, [], [], []⟩, t) := by
  unfold Numeral.split
  rw [run.split, apart.noDigits.split, List.append_nil]
  rcases apart with rfl | ⟨rest, rfl⟩
  · rfl
  · simp [splitFraction, splitExponent, splitSuffix]

end Apart

/-! ## Reading written tokens -/

theorem digitRun_of_digits (digits : ∀ d ∈ c :: s, d.isDigit = true) : DigitRun (c :: s) := by
  induction s generalizing c with
  | nil => exact .last (digits c List.mem_cons_self)
  | cons d rest ih =>
    obtain ⟨first, others⟩ := List.forall_mem_cons.1 digits
    exact .digit first (ih others)

theorem escaped?_of_letter {letter : Char} (is : escapeLetter? c = some letter) :
    escaped? letter = some c := by
  unfold escapeLetter? at is
  split at is
  all_goals cases is
  all_goals rfl

theorem escaped_of_written {content : List Char} {pieces : List (List Char)}
    (written : List.Forall₂ CharWrittenAs content pieces) : Escaped content pieces.flatten := by
  induction written with
  | nil => exact .nil
  | cons first _ ih =>
    cases first with
    | raw notQuote notBackslash notBreak => exact .plain notQuote notBackslash notBreak ih
    | escaped is => exact .escape (escaped?_of_letter is) ih

namespace Piece

theorem next_word (opens : Text.opensWord c = true) (inside : ∀ d ∈ s, Text.inWord d = true)
    (apart : Apart t) :
    next c (s ++ t) = .ok ⟨c :: s, some (.ofWord (String.ofList (c :: s))), t⟩ := by
  have all : ∀ d ∈ c :: s, Text.inWord d = true :=
    List.forall_mem_cons.2 ⟨Text.inWord_of_opensWord opens, inside⟩
  have notSlash : c ≠ '/' := by
    rintro rfl
    exact absurd opens (by decide)
  have isToken : next c (s ++ t) = token c (s ++ t) :=
    next_of_not_comment (by simp [not_blank_of_opensWord opens])
      (fun _ is => absurd is notSlash) fun _ is => absurd is notSlash
  rw [isToken, token_word opens, word, ← List.cons_append, List.takeWhile_append_of_pos all,
    List.dropWhile_append_of_pos all, apart.takeWhile, apart.dropWhile, List.append_nil]

theorem next_symbol (k : Symbol) (apart : Apart t) :
    ∃ c s, k.text.toList = c :: s ∧
      next c (s ++ t) = .ok ⟨c :: s, some (.symbol k), t⟩ := by
  rcases apart with rfl | ⟨rest, rfl⟩
  all_goals
    cases k
    all_goals exact ⟨_, _, rfl, rfl⟩

theorem next_digit (digit : c.isDigit = true) (s : List Char) : next c s = number (c :: s) := by
  have notSlash : c ≠ '/' := by
    rintro rfl
    exact absurd digit (by decide)
  rw [next_of_not_comment (by simp [not_blank_of_isDigit digit]) (fun _ is => absurd is notSlash)
    fun _ is => absurd is notSlash, token_number digit]

theorem repr_digits (m : Nat) : m.repr.toList.all Char.isDigit = true ∧
    m.repr.toList.isEmpty = false ∧ Decimal.natOfDigits m.repr.toList = m := by
  rw [Nat.toList_repr]
  refine ⟨List.all_eq_true.2 fun c mem => ?_, by simp, ?_⟩
  · exact Nat.isDigit_of_mem_toDigits (by decide) (by decide) mem
  · exact Nat.ofDigitChars_toDigits (by decide) (by decide)

theorem next_int {value : Nat} (inRange : value ≤ Nat.pow 2 63 - 1) (apart : Apart t) :
    ∃ c s, value.repr.toList = c :: s ∧
      next c (s ++ t) = .ok ⟨c :: s, some (.int value), t⟩ := by
  obtain ⟨digits, nonempty, denotes⟩ := repr_digits value
  obtain ⟨c, s, spelt⟩ : ∃ c s, value.repr.toList = c :: s :=
    List.exists_cons_of_ne_nil (List.isEmpty_eq_false_iff.1 nonempty)
  rw [spelt] at digits denotes
  have digits := List.all_eq_true.1 digits
  have digit : c.isDigit = true := digits c List.mem_cons_self
  have whole : (Numeral.mk (c :: s) [] [] []).wholeDigits = c :: s := List.filter_eq_self.2 digits
  have numeral : Kind.ofNumeral ⟨c :: s, [], [], []⟩ = .ok (.int value) := by
    unfold Kind.ofNumeral
    rw [if_neg (by simp [Numeral.isFloat]), whole, denotes]
    exact if_pos (by have : 0 < Nat.pow 2 63 := by decide
                     omega)
  refine ⟨c, s, spelt, ?_⟩
  rw [next_digit digit, number, ← List.cons_append, apart.split (digitRun_of_digits digits),
    apart.notWord, numeral]
  simp [Except.map, Numeral.lexeme]

theorem next_string {content : List Char} {pieces : List (List Char)}
    (written : List.Forall₂ CharWrittenAs content pieces) (t : List Char) :
    next '"' (pieces.flatten ++ ['"'] ++ t) =
      .ok ⟨'"' :: (pieces.flatten ++ ['"']), some (.string (String.ofList content)), t⟩ := by
  have isToken (s : List Char) : next '"' s = string s :=
    next_of_not_comment (by decide) nofun nofun
  rw [isToken, string, List.append_assoc]
  have := (escaped_of_written written).next t
  simp [this, Except.map]

end Piece

theorem Kind.WrittenAs.next (written : kind.WrittenAs lexeme) (writable : kind.Writable)
    (apart : Apart t) :
    ∃ c s, lexeme = c :: s ∧ Piece.next c (s ++ t) = .ok ⟨c :: s, some kind, t⟩ := by
  cases written with
  | keyword k =>
    obtain ⟨c, s, spelt, opens, inside⟩ := keyword_word k
    refine ⟨c, s, spelt, ?_⟩
    rw [Piece.next_word opens inside apart, ← spelt, String.ofList_toList, ofWord_keyword]
  | symbol k => exact Piece.next_symbol k apart
  | word name =>
    obtain ⟨⟨c, s, spelt, opens, inside⟩, other⟩ := writable
    have unknown : Keyword.ofText? name = none :=
      List.find?_eq_none.2 fun k _ is => other k (eq_of_beq is)
    refine ⟨c, s, spelt, ?_⟩
    rw [Piece.next_word opens inside apart, ← spelt, String.ofList_toList, Kind.ofWord, unknown]
  | int value => exact Piece.next_int writable apart
  | string pieces => exact ⟨_, _, rfl, Piece.next_string pieces t⟩

/-! ## Texts of several tokens -/

namespace Stream

variable {found : List Token} {p : Position}

theorem extend_space (found : List Token) (p : Position) (t : List Char) :
    extend found p (' ' :: t) = extend found (p.next ' ') t := by
  have blank : Piece.next ' ' t = .ok ⟨[' '], none, t⟩ := rfl
  exact extend_ok blank

theorem extend_written {kinds : List Kind} {lexemes : List (List Char)}
    (written : List.Forall₂ Kind.WrittenAs kinds lexemes) (writable : ∀ kind ∈ kinds, kind.Writable)
    (found : List Token) (p : Position) :
    ∃ stream, extend found p ([' '].intercalate lexemes) = .ok stream ∧
      stream.tokens.map Token.kind = found.reverse.map Token.kind ++ kinds := by
  induction written generalizing found p with
  | nil => exact ⟨_, extend_nil found p, by simp⟩
  | @cons kind lexeme kinds lexemes first others ih =>
    obtain ⟨firstWritable, othersWritable⟩ := List.forall_mem_cons.1 writable
    cases lexemes with
    | nil =>
      cases others
      obtain ⟨c, s, rfl, next⟩ := first.next firstWritable (.inl rfl)
      have spelt : [' '].intercalate [c :: s] = c :: s := by simp [List.intercalate]
      rw [List.append_nil] at next
      rw [spelt, extend_ok next, extend_nil]
      exact ⟨_, rfl, by simp [add]⟩
    | cons lexeme' lexemes =>
      obtain ⟨c, s, rfl, next⟩ := first.next firstWritable
        (.inr ⟨[' '].intercalate (lexeme' :: lexemes), rfl⟩)
      have spelt : [' '].intercalate ((c :: s) :: lexeme' :: lexemes) =
          c :: (s ++ ' ' :: [' '].intercalate (lexeme' :: lexemes)) := by
        simp [List.intercalate]
      rw [spelt, extend_ok next, extend_space]
      obtain ⟨stream, reads, kinds⟩ := ih othersWritable _ _
      refine ⟨stream, reads, ?_⟩
      rw [kinds]
      simp [add]

end Stream

end SceneScript.Token
