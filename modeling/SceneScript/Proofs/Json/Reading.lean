import SceneScript.Json.Reader
import SceneScript.Proofs.Json.Writing

/-!
# Written values are read back

The reader gives back every value from its text, if the numbers in it are written as JSON has them
and its strings denote texts or halves of surrogate pairs (`read?_render`).
-/

namespace SceneScript.Json

/-! ## The characters of a value -/

def quoted (raw : String) : List Char :=
  '"' :: raw.toList ++ ['"']

mutual

def chars : Json → List Char
  | .null => ['n', 'u', 'l', 'l']
  | .bool true => ['t', 'r', 'u', 'e']
  | .bool false => ['f', 'a', 'l', 's', 'e']
  | .number text => text.toList
  | .string raw => quoted raw
  | .array items => '[' :: itemChars items ++ [']']
  | .object fields => '{' :: fieldChars fields ++ ['}']

def itemChars : List Json → List Char
  | [] => []
  | [item] => item.chars
  | item :: rest => item.chars ++ ',' :: itemChars rest

def fieldChars : List (String × Json) → List Char
  | [] => []
  | [(name, value)] => quoted name ++ ':' :: value.chars
  | (name, value) :: rest => quoted name ++ ':' :: value.chars ++ ',' :: fieldChars rest

end

mutual

theorem toList_write (out : String) (j : Json) : (j.write out).toList = out.toList ++ j.chars := by
  cases j with
  | null => exact String.toList_append
  | bool value => cases value <;> exact String.toList_append
  | number text => exact String.toList_append
  | string raw => simp [write, chars, quoted, String.toList_append]
  | array items => simp [write, chars, String.toList_append, toList_writeItems]
  | object fields => simp [write, chars, String.toList_append, toList_writeFields]

theorem toList_writeItems (out : String) (items : List Json) :
    (writeItems out items).toList = out.toList ++ itemChars items := by
  match items with
  | [] => exact (List.append_nil _).symm
  | [item] => exact toList_write out item
  | item :: next :: rest =>
    simp [writeItems, itemChars, toList_writeItems, toList_write, String.toList_append]

theorem toList_writeFields (out : String) (fields : List (String × Json)) :
    (writeFields out fields).toList = out.toList ++ fieldChars fields := by
  match fields with
  | [] => exact (List.append_nil _).symm
  | [(name, value)] =>
    simp [writeFields, fieldChars, quoted, toList_write, String.toList_append]
  | (name, value) :: next :: rest =>
    simp [writeFields, fieldChars, quoted, toList_writeFields, toList_write, String.toList_append]

end

theorem toList_render (j : Json) : j.render.toList = j.chars := by
  simp [render, toList_write]

/-! ## Numbers -/

def AllDigits (s : List Char) : Prop :=
  ∀ c ∈ s, c.isDigit = true

inductive Whole : List Char → Prop
  | zero : Whole ['0']
  | digits {c : Char} {s : List Char} : c ≠ '0' → AllDigits (c :: s) → Whole (c :: s)

inductive Fraction : List Char → Prop
  | none : Fraction []
  | digits {s : List Char} : s ≠ [] → AllDigits s → Fraction ('.' :: s)

inductive Exponent : List Char → Prop
  | none : Exponent []
  | digits {sign s : List Char} : sign ∈ [[], ['+'], ['-']] → s ≠ [] → AllDigits s →
      Exponent ('e' :: (sign ++ s))

inductive Unsigned : List Char → Prop
  | parts {whole fraction exponent : List Char} : Whole whole → Fraction fraction →
      Exponent exponent → Unsigned (whole ++ (fraction ++ exponent))

inductive Numeral : List Char → Prop
  | positive {s : List Char} : Unsigned s → Numeral s
  | negative {s : List Char} : Unsigned s → Numeral ('-' :: s)

def Closes (rest : List Char) : Prop :=
  ∀ c ∈ rest.head?, c ∈ [',', ']', '}']

def EndsDigits (rest : List Char) : Prop :=
  ∀ c ∈ rest.head?, c.isDigit = false

theorem EndsDigits.cons {c : Char} (other : c.isDigit = false) (rest : List Char) :
    EndsDigits (c :: rest) := by
  rintro _ ⟨⟩
  exact other

theorem Closes.endsDigits {rest : List Char} (closes : Closes rest) : EndsDigits rest := by
  intro c head
  have among := closes c head
  simp only [List.mem_cons, List.not_mem_nil, or_false] at among
  obtain rfl | rfl | rfl := among <;> decide

theorem digits?_append {s rest : List Char} (nonempty : s ≠ []) (digits : AllDigits s)
    (ends : EndsDigits rest) : digits? (s ++ rest) = some (s, rest) := by
  have behind : rest.takeWhile Char.isDigit = [] ∧ rest.dropWhile Char.isDigit = rest := by
    cases rest with
    | nil => exact ⟨rfl, rfl⟩
    | cons c rest =>
      have other := ends c rfl
      simp [other]
  unfold digits?
  rw [List.takeWhile_append_of_pos digits, List.dropWhile_append_of_pos digits, behind.1, behind.2,
    List.append_nil]
  simp [nonempty]

theorem Whole.read {s rest : List Char} (whole : Whole s) (ends : EndsDigits rest) :
    wholePart? (s ++ rest) = some (s, rest) := by
  cases whole with
  | zero =>
    cases rest with
    | nil => rfl
    | cons c rest =>
      have other := ends c rfl
      simp [wholePart?, other]
  | digits notZero digits =>
    rw [List.cons_append, wholePart?.eq_2 _ (by simp [notZero])]
    exact digits?_append (List.cons_ne_nil _ _) digits ends

theorem Fraction.read {s rest : List Char} (fraction : Fraction s) (ends : EndsDigits rest)
    (noPoint : ∀ c ∈ rest.head?, c ≠ '.') : fractionPart? (s ++ rest) = some (s, rest) := by
  cases fraction with
  | none =>
    rw [List.nil_append, fractionPart?.eq_2]
    rintro after rfl
    exact noPoint _ rfl rfl
  | digits nonempty digits =>
    rw [List.cons_append, fractionPart?, digits?_append nonempty digits ends]
    rfl

theorem Exponent.read {s rest : List Char} (exponent : Exponent s) (closes : Closes rest) :
    exponentPart? (s ++ rest) = some (s, rest) := by
  cases exponent with
  | none =>
    have noMark {c : Char} (mark : c = 'e' ∨ c = 'E') (after : List Char) : rest ≠ c :: after := by
      rintro rfl
      have among := closes c rfl
      obtain rfl | rfl := mark <;> simp at among
    rw [List.nil_append, exponentPart?.eq_3 _ (noMark (.inl rfl)) (noMark (.inr rfl))]
  | digits signed nonempty digits =>
    rename_i sign s
    have read := digits?_append nonempty digits closes.endsDigits
    rw [List.cons_append, exponentPart?, List.append_assoc]
    simp only [List.mem_cons, List.not_mem_nil, or_false] at signed
    obtain rfl | rfl | rfl := signed
    · obtain ⟨c, s, rfl⟩ := List.exists_cons_of_ne_nil nonempty
      have digit : c.isDigit = true := digits c List.mem_cons_self
      have notSign {d : Char} (is : d.isDigit = false) : c ≠ d := by
        rintro rfl
        rw [is] at digit
        cases digit
      rw [List.nil_append, List.cons_append, exponentDigits?.eq_3 _
        (fun _ same => notSign (by decide) (List.head_eq_of_cons_eq same))
        (fun _ same => notSign (by decide) (List.head_eq_of_cons_eq same)), ← List.cons_append,
        read]
      rfl
    · simp [exponentDigits?, read]
    · simp [exponentDigits?, read]

theorem Exponent.apart {s rest : List Char} (exponent : Exponent s) (closes : Closes rest) :
    EndsDigits (s ++ rest) ∧ ∀ c ∈ (s ++ rest).head?, c ≠ '.' := by
  cases exponent with
  | none =>
    refine ⟨closes.endsDigits, ?_⟩
    rintro c head rfl
    have among := closes _ head
    simp at among
  | digits => exact ⟨.cons (by decide) _, by simp⟩

theorem Fraction.apart {s rest : List Char} (fraction : Fraction s) (ends : EndsDigits rest) :
    EndsDigits (s ++ rest) := by
  cases fraction with
  | none => exact ends
  | digits => exact .cons (by decide) _

theorem Unsigned.head {s : List Char} (number : Unsigned s) :
    ∃ c t, s = c :: t ∧ c.isDigit = true := by
  obtain ⟨whole, -, -⟩ := number
  cases whole with
  | zero => exact ⟨_, _, rfl, rfl⟩
  | digits _ digits => exact ⟨_, _, rfl, digits _ List.mem_cons_self⟩

theorem Numeral.read {s rest : List Char} (numeral : Numeral s) (closes : Closes rest) :
    readNumber? (s ++ rest) = some (.number (String.ofList s), rest) := by
  have parts {w f e : List Char} (whole : Whole w) (fraction : Fraction f) (exponent : Exponent e) :
      wholePart? (w ++ (f ++ (e ++ rest))) = some (w, f ++ (e ++ rest)) ∧
        fractionPart? (f ++ (e ++ rest)) = some (f, e ++ rest) ∧
        exponentPart? (e ++ rest) = some (e, rest) := by
    obtain ⟨ends, noPoint⟩ := exponent.apart closes
    exact ⟨whole.read (fraction.apart ends), fraction.read ends noPoint, exponent.read closes⟩
  cases numeral with
  | positive number =>
    have noSign (t : List Char) : s ++ rest = '-' :: t → False := by
      obtain ⟨c, t, rfl, digit⟩ := number.head
      rintro ⟨⟩
      exact absurd digit (by decide)
    rw [readNumber?.eq_2 _ noSign]
    obtain ⟨whole, fraction, exponent⟩ := number
    obtain ⟨readWhole, readFraction, readExponent⟩ := parts whole fraction exponent
    simp [readWhole, readFraction, readExponent]
  | negative number =>
    obtain ⟨whole, fraction, exponent⟩ := number
    obtain ⟨readWhole, readFraction, readExponent⟩ := parts whole fraction exponent
    rw [List.cons_append, readNumber?]
    simp [readWhole, readFraction, readExponent]

def BeginsNumber (c : Char) : Prop :=
  c = '-' ∨ c.isDigit = true

theorem BeginsNumber.ne {c d : Char} (begins : BeginsNumber c)
    (other : d ≠ '-' ∧ d.isDigit = false) : c ≠ d := by
  rintro rfl
  obtain is | digit := begins
  · exact other.1 is
  · rw [other.2] at digit
    cases digit

theorem Numeral.head {s : List Char} (numeral : Numeral s) :
    ∃ c t, s = c :: t ∧ BeginsNumber c := by
  cases numeral with
  | positive number =>
    obtain ⟨c, t, is, digit⟩ := number.head
    exact ⟨c, t, is, .inr digit⟩
  | negative => exact ⟨_, _, rfl, .inl rfl⟩

/-! ## Strings -/

theorem splitQuote?_plain {c : Char} (quote : c ≠ '"') (backslash : c ≠ '\\') (s : List Char) :
    splitQuote? (c :: s) = (splitQuote? s).map fun (front, after) => (c :: front, after) :=
  splitQuote?.eq_4 _ _ (by simp [quote]) (by simp [backslash])

theorem hexValue?_plain {c : Char} {n : Nat} (is : hexValue? c = some n) : c ≠ '"' ∧ c ≠ '\\' := by
  constructor <;> rintro rfl <;> cases is

theorem splitQuote?_append {raw : List Char} {es : List Element} (read : elements? raw = some es)
    (rest : List Char) : splitQuote? (raw ++ '"' :: rest) = some (raw, rest) := by
  induction raw using elements?.induct generalizing es with
  | case1 => rfl
  | case2 a b c d s ih =>
    simp only [elements?, hexCode?, Option.bind_eq_bind, Option.bind_eq_some_iff] at read
    obtain ⟨-, ⟨i, isA, j, isB, k, isC, l, isD, -⟩, es, read, -⟩ := read
    have plainA := hexValue?_plain isA
    have plainB := hexValue?_plain isB
    have plainC := hexValue?_plain isC
    have plainD := hexValue?_plain isD
    simp only [List.cons_append, splitQuote?, splitQuote?_plain plainA.1 plainA.2,
      splitQuote?_plain plainB.1 plainB.2, splitQuote?_plain plainC.1 plainC.2,
      splitQuote?_plain plainD.1 plainD.2, ih read, Option.map_some]
  | case3 c s notCode ih =>
    simp only [elements?.eq_3 _ _ notCode, Option.bind_eq_bind, Option.bind_eq_some_iff] at read
    obtain ⟨-, -, es, read, -⟩ := read
    rw [List.cons_append, List.cons_append, splitQuote?, ih read, Option.map_some]
  | case4 c s notCode notEscape special =>
    rw [elements?.eq_4 _ _ notCode notEscape, if_pos special] at read
    cases read
  | case5 c s notCode notEscape special ih =>
    simp only [elements?.eq_4 _ _ notCode notEscape, if_neg special, Option.bind_eq_bind,
      Option.bind_eq_some_iff] at read
    obtain ⟨es, read, -⟩ := read
    simp only [Bool.or_eq_true, beq_iff_eq, not_or] at special
    rw [List.cons_append, splitQuote?_plain special.1.1 special.1.2, ih read, Option.map_some]

theorem readString?_quoted {raw : String} (read : (elements? raw.toList).isSome)
    (rest : List Char) : readString? (raw.toList ++ '"' :: rest) = some (raw, rest) := by
  obtain ⟨es, read⟩ := Option.isSome_iff_exists.1 read
  simp [readString?, splitQuote?_append read, read]

/-! ## Values -/

mutual

def Written : Json → Prop
  | .null | .bool _ => True
  | .number text => Numeral text.toList
  | .string raw => (elements? raw.toList).isSome
  | .array items => ItemsWritten items
  | .object fields => FieldsWritten fields

def ItemsWritten : List Json → Prop
  | [] => True
  | item :: rest => item.Written ∧ ItemsWritten rest

def FieldsWritten : List (String × Json) → Prop
  | [] => True
  | (name, value) :: rest =>
    (elements? name.toList).isSome ∧ value.Written ∧ FieldsWritten rest

end

theorem skipSpace_cons {c : Char} (visible : isSpace c = false) (s : List Char) :
    skipSpace (c :: s) = c :: s := by
  simp [skipSpace, visible]

theorem BeginsNumber.visible {c : Char} (begins : BeginsNumber c) : isSpace c = false := by
  simp [isSpace, begins.ne (d := ' ') (by decide), begins.ne (d := '\t') (by decide),
    begins.ne (d := '\n') (by decide), begins.ne (d := '\r') (by decide)]

theorem readValue?_number (fuel : Nat) {c : Char} (begins : BeginsNumber c) (s : List Char) :
    readValue? (fuel + 1) (c :: s) = readNumber? (c :: s) := by
  simp [readValue?, skipSpace_cons begins.visible, begins.ne (d := 'n') (by decide),
    begins.ne (d := 't') (by decide), begins.ne (d := 'f') (by decide),
    begins.ne (d := '"') (by decide), begins.ne (d := '[') (by decide),
    begins.ne (d := '\x7b') (by decide)]

theorem Written.head {j : Json} (written : j.Written) :
    ∃ c s, j.chars = c :: s ∧ isSpace c = false ∧ c ≠ ']' := by
  cases j with
  | null => exact ⟨_, _, rfl, rfl, by decide⟩
  | bool value => cases value <;> exact ⟨_, _, rfl, rfl, by decide⟩
  | number text =>
    obtain ⟨c, s, is, begins⟩ := Numeral.head written
    exact ⟨c, s, is, begins.visible, begins.ne (by decide)⟩
  | string => exact ⟨_, _, rfl, rfl, by decide⟩
  | array => exact ⟨_, _, rfl, rfl, by decide⟩
  | object => exact ⟨_, _, rfl, rfl, by decide⟩

theorem Written.itemChars_head {item : Json} (written : item.Written) (items : List Json)
    (rest : List Char) :
    ∃ c s, itemChars (item :: items) ++ rest = c :: s ∧ isSpace c = false ∧ c ≠ ']' := by
  obtain ⟨c, s, is, first⟩ := written.head
  cases items with
  | nil => exact ⟨c, s ++ rest, by simp [itemChars, is], first⟩
  | cons next items => exact ⟨c, s ++ ',' :: (itemChars (next :: items) ++ rest),
      by simp [itemChars, is], first⟩

theorem readField?_quoted {value : List Char → Option (Json × List Char)} {name : String} {v : Json}
    {s rest : List Char} (written : (elements? name.toList).isSome)
    (read : value s = some (v, rest)) :
    readField? value (quoted name ++ ':' :: s) = some ((name, v), rest) := by
  have readName := readString?_quoted written (':' :: s)
  simp [readField?, quoted, skipSpace_cons (c := '"') rfl, readName, skipSpace_cons (c := ':') rfl,
    read]

mutual

theorem readValue?_chars (fuel : Nat) {j : Json} (written : j.Written) (rest : List Char)
    (enough : j.chars.length < fuel) (closes : Closes rest) :
    readValue? fuel (j.chars ++ rest) = some (j, rest) := by
  obtain _ | fuel := fuel
  · cases enough
  cases j with
  | null => rfl
  | bool value => cases value <;> rfl
  | number text =>
    obtain ⟨c, s, is, begins⟩ := Numeral.head written
    have read := Numeral.read written closes
    rw [is, List.cons_append] at read
    rw [chars, is, List.cons_append, readValue?_number fuel begins, read, ← is,
      String.ofList_toList]
  | string raw =>
    have read := readString?_quoted written rest
    simp [readValue?, chars, quoted, skipSpace_cons (c := '"') rfl, read]
  | array items =>
    obtain _ | ⟨item, items⟩ := items
    · rfl
    simp only [chars, List.length_append, List.length_cons, List.length_nil] at enough
    have read :=
      readItems?_chars fuel fuel written (List.cons_ne_nil _ _) (by omega) (by omega) rest
    obtain ⟨c, s, is, visible, notEnd⟩ := Written.itemChars_head written.1 items (']' :: rest)
    rw [is] at read
    simp [readValue?, chars, is, skipSpace_cons (c := '[') rfl, skipSpace_cons visible, notEnd,
      read]
  | object fields =>
    obtain _ | ⟨field, fields⟩ := fields
    · rfl
    simp only [chars, List.length_append, List.length_cons, List.length_nil] at enough
    have read :=
      readFields?_chars fuel fuel written (List.cons_ne_nil _ _) (by omega) (by omega) rest
    obtain ⟨s, is⟩ : ∃ s, fieldChars (field :: fields) ++ '\x7d' :: rest = '"' :: s := by
      cases fields <;> exact ⟨_, rfl⟩
    rw [is] at read
    simp [readValue?, chars, is, skipSpace_cons (c := '\x7b') rfl, skipSpace_cons (c := '"') rfl,
      read]

theorem readItems?_chars (fuel rounds : Nat) {items : List Json} (written : ItemsWritten items)
    (nonempty : items ≠ []) (enough : (itemChars items).length < fuel)
    (short : (itemChars items).length < rounds) (rest : List Char) :
    readItems? (readValue? fuel) rounds (itemChars items ++ ']' :: rest) = some (items, rest) := by
  obtain _ | rounds := rounds
  · cases short
  match items with
  | [] => exact absurd rfl nonempty
  | [item] =>
    have read := readValue?_chars fuel written.1 (']' :: rest) enough (by simp [Closes])
    simp [readItems?, itemChars, read, skipSpace_cons (c := ']') rfl]
  | item :: next :: items =>
    simp only [itemChars, List.length_append, List.length_cons] at enough short
    have first := readValue?_chars fuel written.1
      (',' :: (itemChars (next :: items) ++ ']' :: rest)) (by omega) (by simp [Closes])
    have others := readItems?_chars fuel rounds written.2 (List.cons_ne_nil _ _) (by omega)
      (by omega) rest
    simp [readItems?, itemChars, first, others, skipSpace_cons (c := ',') rfl]

theorem readFields?_chars (fuel rounds : Nat) {fields : List (String × Json)}
    (written : FieldsWritten fields) (nonempty : fields ≠ [])
    (enough : (fieldChars fields).length < fuel) (short : (fieldChars fields).length < rounds)
    (rest : List Char) :
    readFields? (readValue? fuel) rounds (fieldChars fields ++ '\x7d' :: rest) =
      some (fields, rest) := by
  obtain _ | rounds := rounds
  · cases short
  match fields with
  | [] => exact absurd rfl nonempty
  | [(name, v)] =>
    simp only [fieldChars, List.length_append, List.length_cons] at enough
    have read := readField?_quoted written.1 (readValue?_chars fuel written.2.1 ('\x7d' :: rest)
      (by omega) (by simp [Closes]))
    simp [readFields?, fieldChars, read, skipSpace_cons (c := '\x7d') rfl]
  | (name, v) :: next :: fields =>
    simp only [fieldChars, List.length_append, List.length_cons] at enough short
    have first := readField?_quoted written.1 (readValue?_chars fuel written.2.1
      (',' :: (fieldChars (next :: fields) ++ '\x7d' :: rest)) (by omega) (by simp [Closes]))
    have others := readFields?_chars fuel rounds written.2.2 (List.cons_ne_nil _ _) (by omega)
      (by omega) rest
    simp [readFields?, fieldChars, first, others, skipSpace_cons (c := ',') rfl]

end

/-- A written value is read back from its text, with no limit on how deep it is. -/
theorem read?_render {j : Json} (written : j.Written) : read? j.render = some j := by
  have read := readValue?_chars (j.chars.length + 1) written [] (by omega) nofun
  rw [List.append_nil] at read
  rw [read?, toList_render]
  exact Option.bind_eq_some_iff.mpr ⟨(j, []), read, rfl⟩

end SceneScript.Json
