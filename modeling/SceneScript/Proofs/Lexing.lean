import SceneScript.Proofs.Decimal.Rounding
import SceneScript.Proofs.Token.Cuts
import SceneScript.Proofs.Token.Writing

/-!
# Reading a text

A text that begins with a digit begins with a numeral, the longest one that is there. It is read as
the number that it denotes, with one rounding if it has a fraction, an exponent or a suffix, and
reading goes on behind it (`Stream.extend_numeral`).

Reading a text loses nothing (`Stream.ofText_lossless`). A text that can be read is its gaps and
lexemes put together again, and each token is the one that its lexeme spells, in the place where the
lexeme begins. A text that cannot be read is cut the same way as far as it can be, and what is left
begins with an open comment or string literal, an unknown escape, a numeral that a letter follows or
that is too large, or a character that begins no token.

Reading undoes the writing of tokens (`Stream.ofText_written`). Every token but a literal with a
fraction or an exponent can be written, and a text of such tokens with a single space between
neighbours is read as exactly these tokens and the end of input, whichever way the characters of its
string literals are written.
-/

namespace SceneScript.Token

open Number

/-! ## The value of a numeral -/

/-- The number that the digits among some characters denote, the first one counting most. -/
def denoted (s : List Char) : ℕ :=
  Nat.ofDigits 10 ((s.filter Char.isDigit).reverse.map fun c => c.toNat - '0'.toNat)

theorem natOfDigits_eq (s : List Char) :
    Decimal.natOfDigits s = Nat.ofDigits 10 (s.reverse.map fun c => c.toNat - '0'.toNat) := by
  induction s using List.reverseRecOn with
  | nil => rfl
  | append_singleton s c ih =>
    rw [List.reverse_append, List.reverse_singleton, List.singleton_append, List.map_cons,
      Nat.ofDigits_cons, ← ih, Decimal.natOfDigits, List.foldl_append]
    exact Nat.add_comm _ _

theorem natOfDigits_filter (s : List Char) :
    Decimal.natOfDigits (s.filter Char.isDigit) = denoted s :=
  natOfDigits_eq _

theorem natOfDigits_append (s t : List Char) :
    Decimal.natOfDigits (s ++ t) =
      Decimal.natOfDigits s * 10 ^ t.length + Decimal.natOfDigits t := by
  simp only [natOfDigits_eq, List.reverse_append, List.map_append, Nat.ofDigits_append,
    List.length_map, List.length_reverse]
  ring

namespace Numeral

variable {n : Numeral}

/-- The number that a numeral denotes: its whole part and its fraction, as many tenths of tenths as
there are digits, times the power of ten that its exponent denotes. -/
def decimal (n : Numeral) : ℚ :=
  (denoted n.whole + denoted n.fraction / 10 ^ n.fraction.countP Char.isDigit) *
    10 ^ (if '-' ∈ n.exponent then -denoted n.exponent else denoted n.exponent : ℤ)

theorem exponentValue_eq (n : Numeral) : n.exponentValue =
    if '-' ∈ n.exponent then -(denoted n.exponent : ℤ) else denoted n.exponent := by
  simp only [exponentValue, natOfDigits_filter, List.contains_iff_mem]

theorem value_exact (n : Numeral) : n.value.exact = n.decimal := by
  rw [value, Decimal.Scientific.ofParts, Decimal.Scientific.exact, if_neg Bool.false_ne_true,
    one_mul, exponentValue_eq, wholeDigits, natOfDigits_append, natOfDigits_filter,
    natOfDigits_filter, ← List.countP_eq_length_filter, zpow_sub₀ (by norm_num), zpow_natCast, decimal]
  push_cast
  field_simp

end Numeral

theorem DigitRun.mem {s : List Char} (run : DigitRun s) :
    ∀ c ∈ s, c.isDigit = true ∨ c = '_' := by
  induction run <;> grind

theorem DigitRun.withoutUnderscores {s : List Char} (run : DigitRun s) :
    Numeral.withoutUnderscores s = s.filter Char.isDigit := by
  refine List.filter_congr fun c member => ?_
  rcases run.mem c member with digit | rfl
  · rw [digit, bne_iff_ne]
    rintro rfl
    cases digit
  · rfl

theorem DigitRun.filter_ne_nil {s : List Char} (run : DigitRun s) :
    s.filter Char.isDigit ≠ [] := by
  cases run with
  | last digit | digit digit | underscore digit => simp [digit]


/-! ## The text of a numeral -/

section

variable {s t : List Char}

theorem takeWhile_digits (digits : ∀ c ∈ s, c.isDigit = true)
    (stops : ∀ c ∈ t.head?, c.isDigit = false) : (s ++ t).takeWhile Char.isDigit = s ∧
      (s ++ t).dropWhile Char.isDigit = t := by
  rw [List.takeWhile_append_of_pos digits, List.dropWhile_append_of_pos digits]
  cases t with
  | nil => simp
  | cons c t => simp [stops c rfl]

theorem filter_isDigit (s : List Char) : ∀ c ∈ s.filter Char.isDigit, c.isDigit = true :=
  fun _ member => (List.mem_filter.1 member).2

end

theorem toLower_digit {c : Char} (digit : c.isDigit = true) : c.toLower = c := by
  simp only [Char.isDigit, Bool.and_eq_true, decide_eq_true_eq] at digit
  rw [Char.toLower, dif_neg]
  intro upper
  exact absurd (UInt32.le_trans upper.1 digit.2) (by decide)

theorem splitSign_of_digit {c : Char} (digit : c.isDigit = true) (s : List Char) :
    Decimal.splitSign (c :: s) = (false, c :: s) := by
  unfold Decimal.splitSign
  split
  · next same =>
    cases same
    cases digit
  · next same =>
    cases same
    cases digit
  · rfl

namespace Numeral

def exponentText : List Char → List Char
  | [] => []
  | _ :: rest => 'e' :: withoutUnderscores rest

theorem text_toList (n : Numeral) : n.text.toList =
    withoutUnderscores n.whole ++ (withoutUnderscores n.fraction ++ exponentText n.exponent) := by
  rw [text, String.toList_ofList, List.append_assoc]
  cases n.exponent <;> rfl

theorem exponentText_head (s : List Char) :
    ∀ c ∈ (exponentText s).head?, c.isDigit = false ∧ c ≠ '.' := by
  cases s <;> simp [exponentText]

theorem readExponent?_text {s : List Char} (exponent : Exponent s) :
    Decimal.readExponent? (exponentText s) =
      some (if '-' ∈ s then -(denoted s : ℤ) else denoted s) := by
  cases exponent with
  | none => rfl
  | @mark mark sign s isMark isSign run =>
    have digits : (s.filter Char.isDigit).all Char.isDigit = true :=
      List.all_eq_true.2 (filter_isDigit s)
    have nonempty : (s.filter Char.isDigit).isEmpty = false := by
      simpa using run.filter_ne_nil
    have noMark : mark.isDigit = false ∧ '-' ≠ mark := by
      rcases isMark with rfl | rfl <;> decide
    have noSign : '-' ∉ s := fun member => by
      rcases run.mem _ member with digit | is
      · cases digit
      · cases is
    have kept : withoutUnderscores (sign ++ s) = sign ++ s.filter Char.isDigit := by
      rw [withoutUnderscores, List.filter_append, ← run.withoutUnderscores]
      rcases isSign with rfl | rfl | rfl <;> rfl
    have split : Decimal.splitSign (sign ++ s.filter Char.isDigit) =
        (decide ('-' ∈ sign), s.filter Char.isDigit) := by
      rcases isSign with rfl | rfl | rfl
      · obtain ⟨c, rest, is⟩ := List.exists_cons_of_ne_nil run.filter_ne_nil
        have digit := filter_isDigit s c (by simp [is])
        rw [List.nil_append, is, splitSign_of_digit digit]
        rfl
      · rfl
      · rfl
    have value : denoted (mark :: (sign ++ s)) = Decimal.natOfDigits (s.filter Char.isDigit) := by
      rw [← natOfDigits_filter, List.filter_cons_of_neg (by simp [noMark.1]), List.filter_append]
      rcases isSign with rfl | rfl | rfl <;> rfl
    have negative : '-' ∈ mark :: (sign ++ s) ↔ '-' ∈ sign := by
      simp [noMark.2, noSign]
    simp only [exponentText, kept, value, negative, Decimal.readExponent?, split, digits, nonempty]
    by_cases minus : '-' ∈ sign <;> simp [minus]

variable {n : Numeral}

theorem readSize?_text (written : n.Written) :
    Decimal.readSize? false n.text.toList = some n.value := by
  obtain ⟨whole, fraction, exponent, -⟩ := written
  have stops := exponentText_head n.exponent
  have reads := readExponent?_text exponent
  have digits : (n.whole.filter Char.isDigit).isEmpty = false := by
    simpa using whole.filter_ne_nil
  rw [text_toList, whole.withoutUnderscores, value, exponentValue_eq, wholeDigits]
  generalize exponentText n.exponent = tail at stops reads ⊢
  generalize (if '-' ∈ n.exponent then -(denoted n.exponent : ℤ) else denoted n.exponent) = power
    at reads ⊢
  generalize n.fraction = part at fraction
  cases fraction with
  | none =>
    obtain ⟨front, back⟩ := takeWhile_digits (filter_isDigit n.whole) fun c head => (stops c head).1
    have noPoint (t : List Char) : tail ≠ '.' :: t := by
      rintro rfl
      exact (stops '.' rfl).2 rfl
    have nothing : withoutUnderscores [] = [] := rfl
    simp only [nothing, List.nil_append, Decimal.readSize?, front, back, digits, Bool.false_and,
      Bool.false_eq_true, if_false]
    rw [reads]
    rfl
  | @point s run =>
    have dot : withoutUnderscores ('.' :: s) = '.' :: s.filter Char.isDigit := by
      rw [← run.withoutUnderscores]
      rfl
    obtain ⟨front, back⟩ := takeWhile_digits (filter_isDigit n.whole)
      (t := '.' :: (s.filter Char.isDigit ++ tail)) (by simp)
    obtain ⟨front', back'⟩ := takeWhile_digits (filter_isDigit s) fun c head => (stops c head).1
    rw [dot, List.cons_append]
    simp only [Decimal.readSize?, front, back, front', back', digits, reads, Bool.false_and]
    rfl

theorem read?_text (written : n.Written) :
    Decimal.read? n.text.toList = some (.finite n.value) := by
  obtain ⟨c, rest, is⟩ := List.exists_cons_of_ne_nil written.whole.filter_ne_nil
  have digit := filter_isDigit n.whole c (by simp [is])
  have opens : ∃ more, n.text.toList = c :: more := by
    rw [text_toList, written.whole.withoutUnderscores, is]
    exact ⟨_, rfl⟩
  have size := readSize?_text written
  obtain ⟨more, opens⟩ := opens
  rw [opens] at size ⊢
  have word {d : Char} {ds : List Char} (letter : d.isDigit = false) :
      ((c :: more).map Char.toLower == d :: ds) = false := by
    rw [List.map_cons, toLower_digit digit, beq_eq_false_iff_ne]
    intro same
    cases same
    exact absurd digit (by simp [letter])
  have noWord : ((c :: more).map Char.toLower == "nan".toList) = false ∧
      ((c :: more).map Char.toLower == "inf".toList) = false ∧
      ((c :: more).map Char.toLower == "infinity".toList) = false :=
    ⟨word (by decide), word (by decide), word (by decide)⟩
  simp only [Decimal.read?, splitSign_of_digit digit, noWord, size]
  rfl

end Numeral


/-! ## Numerals at the front of a text -/

namespace Numeral

variable {n m : Numeral} {s : List Char}

theorem longest_iff (starts : startsWithDigit s = true) : m.Longest s ↔ m = (split s).1 := by
  have reading := split_longest starts
  refine ⟨fun other => ?_, fun is => is ▸ reading⟩
  have same : m.lexeme = (split s).1.lexeme :=
    List.IsPrefix.eq_of_length_le (reading.longest m other.written other.front)
      (other.longest _ reading.written reading.front).length_le
  have alone := split_alone other.written
  rw [same, split_alone reading.written] at alone
  exact (congrArg Prod.fst alone).symm

theorem kind_eq (n : Numeral) : Kind.ofNumeral n =
    if n.isFloat then .ok (.float n.value.toFloat)
    else if denoted n.whole ≤ 2 ^ 63 - 1 then .ok (.int (denoted n.whole))
    else .error (.integerOutOfRange n.text) := by
  rw [Kind.ofNumeral]
  dsimp only
  rw [wholeDigits, natOfDigits_filter]
  exact if_congr Iff.rfl rfl (if_congr (Nat.lt_add_one_iff (n := 2 ^ 63 - 1)) rfl rfl)

theorem split_range {whole : List Char} (run : DigitRun whole) (back : List Char) :
    split (whole ++ '.' :: '.' :: back) = (⟨whole, [], [], []⟩, '.' :: '.' :: back) := by
  have opens : OpensWith ['.', 'e', 'E', 'f', 'F'] ('.' :: '.' :: back) := by simp [OpensWith]
  unfold split
  rw [run.split_all opens]
  rfl

end Numeral

namespace Stream

/-- A text that begins with a digit begins with a numeral `n`, the longest one there. A letter, a
digit or an underscore must not follow it. It is a number in double precision if it has a fraction,
an exponent or a suffix, namely the one that its decimal is rounded to, and a whole number if not,
which must be one of 64 bits. Reading goes on behind it. The text that the number is converted from
is one that the conversion accepts, and the points of a range are no part of the numeral. -/
theorem extend_numeral (found : List Token) (p : Position) {s : List Char}
    (starts : startsWithDigit s = true) :
    ∃ n rest, s = n.lexeme ++ rest ∧ (∀ m : Numeral, m.Longest s ↔ m = n) ∧
      (∀ c ∈ rest.head?, Text.inWord c = true →
        extend found p s = .error ⟨.invalidNumeral (n.text.push c), p⟩) ∧
      ((∀ c ∈ rest.head?, Text.inWord c = false) → extend found p s =
        if n.isFloat then
          extend (⟨.float n.value.toFloat, p⟩ :: found) (p.after n.lexeme) rest
        else if denoted n.whole ≤ 2 ^ 63 - 1 then
          extend (⟨.int (denoted n.whole), p⟩ :: found) (p.after n.lexeme) rest
        else .error ⟨.integerOutOfRange n.text, p⟩) ∧
      RoundsTo .binary64 .positive n.decimal n.value.toFloat.toModel.unpack ∧
      Decimal.read? n.text.toList = some (.finite n.value) ∧
      ∀ whole back, DigitRun whole → s = whole ++ '.' :: '.' :: back →
        n = ⟨whole, [], [], []⟩ ∧ rest = '.' :: '.' :: back := by
  obtain ⟨c, t, rfl⟩ : ∃ c t, s = c :: t := by
    cases s with
    | nil => cases starts
    | cons c t => exact ⟨c, t, rfl⟩
  have next := Piece.next_digit (s := t) starts
  have reading := Numeral.split_longest starts
  have whole := Numeral.split_append (c :: t)
  refine ⟨(Numeral.split (c :: t)).1, (Numeral.split (c :: t)).2, whole.symm,
    fun m => Numeral.longest_iff starts, fun d first inWord => ?_, fun apart => ?_, ?_,
    Numeral.read?_text reading.written, fun digits back run is => ?_⟩
  · rw [Piece.number, Option.mem_def.1 first, Option.filter_some_pos inWord] at next
    exact extend_error next
  · have noWord : (Numeral.split (c :: t)).2.head?.filter Text.inWord = none := by
      rw [Option.filter_eq_none_iff]
      simpa using apart
    rw [Piece.number, noWord] at next
    generalize (Numeral.split (c :: t)).1 = n at next reading
    generalize (Numeral.split (c :: t)).2 = rest at next
    dsimp only at next
    rw [Numeral.kind_eq] at next
    split_ifs at next ⊢ with float small
    · exact extend_ok next
    · exact extend_ok next
    · exact extend_error next
  · have rounds := Decimal.Scientific.toFloat_roundsTo (s := (Numeral.split (c :: t)).1.value) rfl
    rwa [Numeral.value_exact] at rounds
  -- The two dots of a range end the digits, so no fraction is read.
  · rw [is, Numeral.split_range run]
    exact ⟨rfl, rfl⟩

theorem extend_numeral_range :
    extend [] .start "12..20".toList =
      extend [⟨.int 12, .start⟩] (Position.start.after ['1', '2']) "..20".toList := by
  obtain ⟨n, rest, -, -, -, reads, -, -, range⟩ :=
    extend_numeral [] .start (s := "12..20".toList) (by decide)
  obtain ⟨rfl, rfl⟩ := range ['1', '2'] ['2', '0'] (.digit rfl (.last rfl)) rfl
  have value : denoted ['1', '2'] = 12 := rfl
  have dot : Text.inWord '.' = false := by decide
  rw [reads (by simp [dot]), if_neg (by decide), value, if_pos (by norm_num)]
  rfl

end Stream

/-! ## Whole texts -/

theorem Stream.ofText_lossless (text : String) :
    match Stream.ofText text with
    | .ok stream => ∃ cuts gap, text.toList = Cut.text cuts ++ gap ∧ Gap gap [] ∧
        (∀ front cut back, cuts = front ++ cut :: back →
          cut.Stands (Cut.text front) (Cut.text back ++ gap)) ∧
        stream.closed = cuts.map Cut.token ++ [⟨.finish, .place text.toList⟩]
    | .error fault => ∃ cuts gap rest, text.toList = Cut.text cuts ++ gap ++ rest ∧ Gap gap rest ∧
        (∀ front cut back, cuts = front ++ cut :: back →
          cut.Stands (Cut.text front) (Cut.text back ++ gap ++ rest)) ∧
        fault.position = .place (Cut.text cuts ++ gap) ∧ Stuck fault.error rest := by
  obtain ⟨cuts, gap, rest, splits, ends⟩ := ofText_cuts text
  split
  · next stream result =>
    rw [result] at ends
    obtain ⟨rfl, rfl⟩ := ends
    refine ⟨cuts, gap, ?_, splits.last, fun front cut back is => ?_, rfl⟩
    · simpa using splits.whole
    · simpa using splits.stands is
  · next fault result =>
    rw [result] at ends
    obtain ⟨front, whole, position, stuck⟩ := ends
    have front_eq : front = Cut.text cuts ++ gap := by
      rw [splits.whole, ← List.append_assoc] at whole
      exact (List.append_cancel_right whole).symm
    refine ⟨cuts, gap, rest, ?_, splits.last, fun front cut back is => ?_, ?_, stuck⟩
    · rw [splits.whole, List.append_assoc]
    · simpa using splits.stands is
    · rw [position, front_eq]

/-! ## Written tokens -/

theorem writable_written {kinds : List Kind} (writable : ∀ kind ∈ kinds, kind.Writable) :
    ∃ lexemes, List.Forall₂ Kind.WrittenAs kinds lexemes := by
  induction kinds with
  | nil => exact ⟨[], .nil⟩
  | cons kind kinds ih =>
    obtain ⟨first, others⟩ := List.forall_mem_cons.1 writable
    obtain ⟨lexeme, written⟩ := first.written
    obtain ⟨lexemes, more⟩ := ih others
    exact ⟨lexeme :: lexemes, .cons written more⟩

theorem Stream.ofText_written (kinds : List Kind) (writable : ∀ kind ∈ kinds, kind.Writable) :
    (∃ lexemes, List.Forall₂ Kind.WrittenAs kinds lexemes) ∧
      ∀ lexemes, List.Forall₂ Kind.WrittenAs kinds lexemes →
        ∃ stream, Stream.ofText (String.ofList ([' '].intercalate lexemes)) = .ok stream ∧
          stream.closed.map Token.kind = kinds ++ [.finish] := by
  refine ⟨writable_written writable, ?_⟩
  intro lexemes written
  obtain ⟨stream, reads, tokens⟩ := extend_written written writable [] .start
  refine ⟨stream, ?_, ?_⟩
  · rw [ofText, String.toList_ofList]
    exact reads
  · rw [closed, List.map_append, tokens]
    rfl

/-- A name, a range between whole numbers, two slashes that open no comment, and a literal with a
tab written both ways. -/
theorem Stream.ofText_written_names :
    ∃ stream, Stream.ofText "lets 0 .. 9223372036854775807 / / let \"\\\"\t\\t\"" = .ok stream ∧
      stream.closed.map Token.kind =
        [.word "lets", .int 0, .symbol .range, .int 9223372036854775807, .symbol .slash,
          .symbol .slash, .keyword .let, .string "\"\t\t", .finish] := by
  let kinds : List Kind := [.word "lets", .int 0, .symbol .range, .int 9223372036854775807,
    .symbol .slash, .symbol .slash, .keyword .let, .string (String.ofList ['"', '\t', '\t'])]
  let lexemes : List (List Char) := ["lets".toList, (0 : Nat).repr.toList, Symbol.range.text.toList,
    (9223372036854775807 : Nat).repr.toList, Symbol.slash.text.toList, Symbol.slash.text.toList,
    Keyword.let.text.toList, ['"', '\\', '"', '\t', '\\', 't', '"']]
  have content : List.Forall₂ CharWrittenAs ['"', '\t', '\t']
      [['\\', '"'], ['\t'], ['\\', 't']] :=
    .cons (.escaped rfl) (.cons (.raw (by decide) (by decide) (by decide))
      (.cons (.escaped rfl) .nil))
  have written : List.Forall₂ Kind.WrittenAs kinds lexemes :=
    .cons (.word _) (.cons (.int _) (.cons (.symbol _) (.cons (.int _) (.cons (.symbol _)
      (.cons (.symbol _) (.cons (.keyword _) (.cons (.string content) .nil)))))))
  have letters : ['e', 't', 's'].all Text.inWord = true := by decide +kernel
  have name : Kind.Writable (.word "lets") := by
    refine ⟨⟨'l', ['e', 't', 's'], rfl, by decide +kernel, List.all_eq_true.1 letters⟩, fun k => ?_⟩
    cases k <;> decide
  have writable : ∀ kind ∈ kinds, kind.Writable := by
    apply List.forall_mem_cons.2 ⟨name, ?_⟩
    simp [Kind.Writable]
  obtain ⟨stream, reads, tokens⟩ := (Stream.ofText_written kinds writable).2 lexemes written
  have text : String.ofList ([' '].intercalate lexemes) =
      "lets 0 .. 9223372036854775807 / / let \"\\\"\t\\t\"" := by
    decide +kernel
  exact ⟨stream, text ▸ reads, tokens⟩

end SceneScript.Token
