import SceneScript.Proofs.Rendering
import SceneScript.Proofs.Source.Depth
import SceneScript.Proofs.Token.Writing

/-!
# Whole numbers as text

Whole numbers are shown in decimal, and the same text is shown wherever a number is turned into one.
It is read back as the number, and as an expression it is a literal with that value. The least
number is the exception: its magnitude is no literal, so its text is no expression
(`Constant.int_text_read_back`).
-/

namespace SceneScript

open Token (Stream Piece)

/-! ## Texts of values -/

theorem Constant.value_plain (c : Constant) (ref : Nat) : c.value ≠ .object ref := by
  cases c <;> nofun

namespace Run

variable {limits : Limits} {s : RunState}

def Room (limits : Limits) (s : RunState) (t : String) (steps : Nat) : Prop :=
  t.utf8ByteSize ≤ limits.maxStringLen ∧ s.heapBytes + t.utf8ByteSize ≤ limits.maxHeapBytes ∧
    s.steps + steps ≤ limits.maxSteps

/-- A run gives a text if there is room for it and for the steps that it takes, and no other value
in any case. -/
def Shows (run : Run Value) (t : String) (steps : Nat) : Prop :=
  ∀ limits s, Ends limits s run (fun v _ => v = .string t) fun _ _ => ¬Room limits s t steps

theorem string_run (t : String) (limits : Limits) (s : RunState) : string t limits s =
    if t.utf8ByteSize > limits.maxStringLen then
      .error ⟨.stringLimit t.utf8ByteSize limits.maxStringLen, none⟩ s
    else if s.heapBytes + t.utf8ByteSize > limits.maxHeapBytes then
      .error ⟨.heapLimit limits.maxHeapBytes, none⟩
        { s with heapBytes := s.heapBytes + t.utf8ByteSize }
    else .ok (.string t) { s with heapBytes := s.heapBytes + t.utf8ByteSize } := by
  change (if t.utf8ByteSize > limits.maxStringLen then
    fault (.stringLimit t.utf8ByteSize limits.maxStringLen) >>= fun _ => _
    else charge t.utf8ByteSize >>= fun _ => pure (.string t) : Run Value) limits s = _
  split
  · rfl
  · rw [bind_apply, charge_run]
    by_cases much : s.heapBytes + t.utf8ByteSize > limits.maxHeapBytes
    · rw [if_pos much, if_pos much]
    · rw [if_neg much, if_neg much]
      rfl

theorem shows_string (t : String) (steps : Nat) : Shows (string t) t steps := by
  intro limits s
  rw [Ends, string_run]
  split_ifs with long much
  · exact fun room => absurd room.1 (Nat.not_le.2 long)
  · exact fun room => absurd room.2.1 (Nat.not_le.2 much)
  · rfl

theorem display_shown {v : Value} (plain : ∀ ref, v ≠ .object ref) {t : String}
    (short : v.text.utf8ByteSize ≤ t.utf8ByteSize) (limits : Limits) (s : RunState) :
    Ends limits s (display v) (fun u s' => u = v.text ∧ s' = { s with steps := s.steps + 1 })
      fun _ _ => ¬Room limits s t 1 := by
  have writes : Text.Writes (textBounds limits) 1 (Text.write s.heap v) _ _ :=
    Text.writes_nested s.heap 8 v
  have text : s.heap.render 8 v = v.text ∧ s.heap.rendered 8 v = 1 := by
    cases v with
    | object ref => exact absurd rfl (plain ref)
    | _ => exact ⟨rfl, rfl⟩
  rw [text.1, text.2] at writes
  obtain ⟨succeeds, fails⟩ := display_of_writes writes
  by_cases fits : v.text.utf8ByteSize ≤ limits.maxStringLen ∧ 1 ≤ limits.maxSteps - s.steps
  · rw [Ends, succeeds fits]
    exact ⟨rfl, rfl⟩
  · obtain ⟨f, taken, -, failed⟩ := fails fits
    rw [Ends, failed]
    exact fun room => fits ⟨short.trans room.1, by have := room.2.2; omega⟩

theorem tick_taken (t : String) (limits : Limits) (s : RunState) :
    Ends limits s tick (fun u s' => u = () ∧ s' = { s with steps := s.steps + 1 })
      fun _ _ => ¬Room limits s t 1 := by
  rw [← bind_pure tick]
  refine .tick_bind (fun full room => ?_) fun _ => .pure ⟨rfl, rfl⟩
  have := room.2.2
  omega

theorem const_given (classes : List HostClass) (locals : Array Value) (p : Position) (c : Constant)
    (t : String) (limits : Limits) (s : RunState) :
    Ends limits s ((Code.const p c).eval classes locals)
      (fun v s' => v = c.value ∧ s' = { s with steps := s.steps + 1 })
      fun _ _ => ¬Room limits s t 1 := by
  rw [Code.eval]
  refine .located ((tick_taken t limits s).bind fun _ s' taken => ?_)
  exact .pure ⟨rfl, taken.2⟩

theorem Shows.after {α : Type} {run : Run α} {next : α → Run Value} {a : α} {t : String}
    {steps : Nat} (rest : Shows (next a) t steps)
    (takes : ∀ limits s, Ends limits s run
      (fun b s' => b = a ∧ s' = { s with steps := s.steps + 1 }) fun _ _ => ¬Room limits s t 1) :
    Shows (run >>= next) t (steps + 1) := by
  intro limits s
  refine .bind ((takes limits s).mono (fun _ _ => id) fun _ _ noRoom room => noRoom ?_) ?_
  · exact ⟨room.1, room.2.1, by have := room.2.2; omega⟩
  · rintro b s' ⟨rfl, rfl⟩
    refine (rest limits _).mono (fun _ _ => id) fun _ _ noRoom room => noRoom ?_
    exact ⟨room.1, room.2.1, by have := room.2.2; dsimp only; omega⟩

theorem shows_textOf {v : Value} (plain : ∀ ref, v ≠ .object ref) :
    Shows (Native.textOf v) v.text 1 :=
  (shows_string v.text 0).after (display_shown plain le_rfl)

theorem shows_concat (classes : List HostClass) (locals : Array Value) (p q r : Position)
    (c d : Constant) : Shows ((Code.concat p (.const q c) (.const r d)).eval classes locals)
      (c.value.text ++ d.value.text) 5 := by
  have texts : Shows (do
      let s ← display c.value
      let t ← display d.value
      string (s ++ t)) (c.value.text ++ d.value.text) 2 :=
    Shows.after (a := c.value.text)
      (Shows.after (a := d.value.text) (shows_string _ 0) (display_shown d.value_plain (by simp)))
      (display_shown c.value_plain (by simp))
  have values : Shows (do
      let a ← (Code.const q c).eval classes locals
      let b ← (Code.const r d).eval classes locals
      let s ← display a
      let t ← display b
      string (s ++ t)) (c.value.text ++ d.value.text) 4 :=
    Shows.after (a := c.value) (Shows.after (a := d.value) texts (const_given classes locals r d _))
      (const_given classes locals q c _)
  rw [Code.eval]
  exact fun limits s => .located (Shows.after (a := ()) values (tick_taken _) limits s)

theorem concat_given {classes : List HostClass} {locals : Array Value} {p : Position}
    {left right : Code} {limits : Limits} {s s' : RunState} {v : Value}
    (ran : (Code.concat p left right).eval classes locals limits s = .ok v s') :
    ∃ a b s₁ s₂, left.eval classes locals limits { s with steps := s.steps + 1 } = .ok a s₁ ∧
      right.eval classes locals limits s₁ = .ok b s₂ ∧ ∃ t u, v = .string (t ++ u) ∧
        ((∀ ref, a ≠ .object ref) → t = a.text) ∧ ((∀ ref, b ≠ .object ref) → u = b.text) := by
  have ends : Ends limits s ((Code.concat p left right).eval classes locals)
      (fun v _ => ∃ a b s₁ s₂,
        left.eval classes locals limits { s with steps := s.steps + 1 } = .ok a s₁ ∧
        right.eval classes locals limits s₁ = .ok b s₂ ∧ ∃ t u, v = .string (t ++ u) ∧
          ((∀ ref, a ≠ .object ref) → t = a.text) ∧ ((∀ ref, b ≠ .object ref) → u = b.text))
      fun _ _ => True := by
    have given {α : Type} (run : Run α) (s : RunState) :
        Ends limits s run (fun a s' => run limits s = .ok a s') fun _ _ => True :=
      .intro (fun _ _ ran => ran) fun _ _ _ => trivial
    have text {a : Value} {t : String} {s₁ s₂ : RunState}
        (shown : display a limits s₁ = .ok t s₂) (plain : ∀ ref, a ≠ .object ref) : t = a.text :=
      ((display_shown plain le_rfl limits s₁).of_ok shown).1
    rw [Code.eval]
    refine .located (.tick_bind (fun _ => trivial) fun _ => ?_)
    refine (given _ _).bind fun a s₁ ofLeft => (given _ _).bind fun b s₂ ofRight => ?_
    refine (given _ _).bind fun t s₃ first => (given _ _).bind fun u s₄ second => ?_
    refine (shows_string (t ++ u) 0 limits s₄).mono (fun v _ is => ?_) fun _ _ _ => trivial
    exact ⟨a, b, s₁, s₂, ofLeft, ofRight, t, u, is, text first, text second⟩
  exact ends.of_ok ran

/-! ## Values of texts -/

theorem parseInt_run {t : String} {n : Int64} (read : Number.readInt64? t.toList = some n)
    (limits : Limits) (s : RunState) :
    HostClass.integer.callStatic "parseInt" [.string t] limits s = .ok (.int n) s := by
  have text : (liftM (Value.string t).asString : Run String) limits s = .ok t s := rfl
  rw [HostClass.callStatic, Native.integerStatic, bind_apply, text]
  dsimp only
  rw [read]
  rfl

end Run

/-! ## Reading digits -/

namespace Number

theorem foldl_digits (digits : List Char) (m : Nat) :
    digits.foldl (fun (n : Int) c => 10 * n + (c.toNat - '0'.toNat : Nat)) m =
      (digits.foldl (fun n c => 10 * n + (c.toNat - '0'.toNat)) m : Nat) := by
  induction digits generalizing m with
  | nil => rfl
  | cons c digits ih =>
    rw [List.foldl_cons, List.foldl_cons, ← ih]
    push_cast
    rfl

theorem toString_toList (v : Int) : (toString v).toList =
    if v < 0 then '-' :: v.natAbs.repr.toList else v.natAbs.repr.toList := by
  cases v with
  | ofNat m => rfl
  | negSucc m =>
    rw [if_pos (Int.negSucc_lt_zero m)]
    change ("-" ++ (m + 1).repr).toList = _
    rw [String.toList_append]
    rfl

theorem int64?_toInt (n : Int64) : int64? n.toInt = some n := by
  rw [int64?, if_pos ⟨n.minValue_le_toInt, n.toInt_le⟩, Int64.ofInt_toInt]

theorem readInt64?_repr (m : Nat) : readInt64? m.repr.toList = int64? m ∧
    readInt64? ('-' :: m.repr.toList) = int64? (-m) := by
  obtain ⟨digits, nonempty, denotes⟩ := Token.Piece.repr_digits m
  have size : m.repr.toList.foldl (fun (n : Int) c => 10 * n + (c.toNat - '0'.toNat : Nat)) 0 = m :=
    (foldl_digits _ 0).trans (congrArg _ denotes)
  generalize m.repr.toList = text at digits nonempty size
  have signed : readInt64? ('-' :: text) = int64? (-m) := by
    simpa [readInt64?, digits, nonempty] using congrArg (fun v => int64? (-v)) size
  refine ⟨?_, signed⟩
  cases text with
  | nil => cases nonempty
  | cons c rest =>
    have digit : c.isDigit = true := List.all_eq_true.1 digits c List.mem_cons_self
    have noSign : c ≠ '-' ∧ c ≠ '+' := by
      constructor <;> (rintro rfl; cases digit)
    simpa [readInt64?, digits, noSign] using congrArg int64? size

theorem readInt64?_toString (n : Int64) : readInt64? (toString n.toInt).toList = some n := by
  rw [toString_toList]
  split_ifs with negative
  · rw [(readInt64?_repr _).2, Int.ofNat_natAbs_of_nonpos (Int.le_of_lt negative), Int.neg_neg,
      int64?_toInt]
  · rw [(readInt64?_repr _).1, Int.natAbs_of_nonneg (Int.not_lt.1 negative), int64?_toInt]

end Number

/-! ## Literals -/

namespace Source

theorem next_minus {c : Char} (digit : c.isDigit = true) (s : List Char) :
    Piece.next '-' (c :: s) = .ok ⟨['-'], some (.symbol .minus), c :: s⟩ := by
  have noArrow : c ≠ '>' := by
    rintro rfl
    cases digit
  have alone : Token.twoCharSymbol? '-' c = none := by simp [Token.twoCharSymbol?, noArrow]
  change Piece.symbol '-' (c :: s) = _
  rw [Piece.symbol, alone]
  rfl

variable {text : String} {m : Nat}

theorem parse_natural (small : m ≤ Nat.pow 2 63 - 1) (is : text.toList = m.repr.toList) :
    Expr.parse 2 text = .ok (.int .start m) := by
  obtain ⟨c, s, spelt, next⟩ := Piece.next_int (t := []) small (.inl rfl)
  rw [List.append_nil] at next
  rw [Expr.parse, Parser.onText, Stream.ofText, is, spelt, Stream.extend_ok next, Stream.extend_nil]
  rfl

theorem parse_negative (small : m ≤ Nat.pow 2 63 - 1) (is : text.toList = '-' :: m.repr.toList) :
    Expr.parse 2 text = .ok (.int .start (-m)) := by
  obtain ⟨c, s, spelt, next⟩ := Piece.next_int (t := []) small (.inl rfl)
  have digit : c.isDigit = true :=
    List.all_eq_true.1 (Piece.repr_digits m).1 c (by rw [spelt]; exact List.mem_cons_self)
  rw [List.append_nil] at next
  rw [Expr.parse, Parser.onText, Stream.ofText, is, spelt, Stream.extend_ok (next_minus digit s),
    Stream.extend_ok next, Stream.extend_nil]
  rfl

theorem parse_toString {n : Int64} (notLeast : n ≠ Int64.minValue) :
    Expr.parse 2 (toString n.toInt) = .ok (.int .start n.toInt) := by
  have least : n.toInt ≠ -2 ^ 63 := fun is => notLeast (Int64.toInt_inj.1 is)
  have bounds := And.intro n.le_toInt n.toInt_lt
  have small : n.toInt.natAbs ≤ Nat.pow 2 63 - 1 := by
    have : Nat.pow 2 63 = 2 ^ 63 := rfl
    omega
  have shape := Number.toString_toList n.toInt
  split_ifs at shape with negative
  · rw [parse_negative small shape, Int.ofNat_natAbs_of_nonpos (Int.le_of_lt negative), Int.neg_neg]
  · rw [parse_natural small shape, Int.natAbs_of_nonneg (Int.not_lt.1 negative)]

def leastFault : Fault :=
  ⟨.lexical (.integerOutOfRange "9223372036854775808"), ⟨1, 2⟩⟩

theorem parse_least (maxDepth : Nat) :
    Expr.parse maxDepth (toString Int64.minValue.toInt) = .error leastFault := by
  have text : (toString Int64.minValue.toInt).toList =
      '-' :: '9' :: "223372036854775808".toList := by
    decide
  have magnitude : Piece.next '9' "223372036854775808".toList =
      .error (.integerOutOfRange "9223372036854775808") := by
    rfl
  rw [Expr.parse, Parser.onText, Stream.ofText, text, Stream.extend_ok (next_minus (by decide) _),
    Stream.extend_error magnitude]
  rfl

end Source

/-! ## There and back -/

/-- The text that is shown for a constant: by the member `toString` of a whole number, by
`String::valueOf`, and where it is put together with something else. -/
structure Constant.ShownAs (c : Constant) (text : String) : Prop where
  toString : Run.Shows (HostClass.integer.call "toString" c.value []) text 1
  valueOf : Run.Shows (HostClass.string.callStatic "valueOf" [c.value]) text 1
  before (classes : List HostClass) (locals : Array Value) (p q r : Position) (d : Constant) :
    Run.Shows ((Code.concat p (.const q c) (.const r d)).eval classes locals)
      (text ++ d.value.text) 5
  behind (classes : List HostClass) (locals : Array Value) (p q r : Position) (d : Constant) :
    Run.Shows ((Code.concat p (.const q d) (.const r c)).eval classes locals)
      (d.value.text ++ text) 5
  within {classes : List HostClass} {locals : Array Value} {p : Position} {left right : Code}
    {limits : Limits} {s s' : RunState} {v : Value}
    (ran : (Code.concat p left right).eval classes locals limits s = .ok v s') :
    ∃ a b s₁ s₂, left.eval classes locals limits { s with steps := s.steps + 1 } = .ok a s₁ ∧
      right.eval classes locals limits s₁ = .ok b s₂ ∧
      (a = c.value → ∃ u, v = .string (text ++ u)) ∧ (b = c.value → ∃ t, v = .string (t ++ text))

theorem Constant.shown (c : Constant) : c.ShownAs c.value.text where
  toString := Run.shows_textOf c.value_plain
  valueOf := Run.shows_textOf c.value_plain
  before classes locals p q r d := Run.shows_concat classes locals p q r c d
  behind classes locals p q r d := Run.shows_concat classes locals p q r d c
  within ran := by
    obtain ⟨a, b, s₁, s₂, left, right, t, u, is, first, second⟩ := Run.concat_given ran
    refine ⟨a, b, s₁, s₂, left, right, fun same => ⟨u, ?_⟩, fun same => ⟨t, ?_⟩⟩
    · rw [is, first (same ▸ c.value_plain), same]
    · rw [is, second (same ▸ c.value_plain), same]

/-- A whole number is shown in decimal. The text is read back as the number, and parsed as a literal
with that value. The text of the least number is no expression, since its magnitude is out of the
range of literals. -/
theorem Constant.int_text_read_back (n : Int64) :
    (Constant.int n).ShownAs (toString n.toInt) ∧
      (∀ limits s, HostClass.integer.callStatic "parseInt" [.string (toString n.toInt)] limits s =
        .ok (.int n) s) ∧
      (∀ maxDepth, 2 ≤ maxDepth → n ≠ Int64.minValue →
        Source.Expr.parse maxDepth (toString n.toInt) = .ok (.int .start n.toInt)) ∧
      ∀ maxDepth, n = Int64.minValue →
        Source.Expr.parse maxDepth (toString n.toInt) = .error Source.leastFault := by
  refine ⟨Constant.shown (.int n), fun limits s => ?_, fun maxDepth deep notLeast => ?_,
    fun maxDepth is => ?_⟩
  · exact Run.parseInt_run (Number.readInt64?_toString n) limits s
  · exact Source.Expr.parse_deeper deep (Source.parse_toString notLeast)
  · rw [is]
    exact Source.parse_least maxDepth

/-- The text of the least number is shown and read back as the number, but does not parse. -/
theorem Constant.least_not_parsed :
    (Constant.int Int64.minValue).ShownAs "-9223372036854775808" ∧
      ¬∃ p, Source.Expr.parse 2 "-9223372036854775808" = .ok (.int p Int64.minValue.toInt) := by
  have text : toString Int64.minValue.toInt = "-9223372036854775808" := rfl
  refine ⟨text ▸ Constant.shown (.int Int64.minValue), ?_⟩
  rintro ⟨p, parsed⟩
  rw [← text, Source.parse_least] at parsed
  cases parsed

end SceneScript
