import Mathlib.Tactic.SplitIfs
import SceneScript.Json.Value

/-!
# Written values

A text that is written as a string is read back from it. A value takes up at most its weight in
bytes: what it is written with, and one separator for each item and field.
-/

namespace SceneScript.Json

/-! ## Texts -/

theorem elements?_plain {c : Char} (quote : c ≠ '"') (backslash : c ≠ '\\') (high : ¬ c.toNat < 32)
    (rest : List Char) : elements? (c :: rest) = (elements? rest).map (.char c :: ·) := by
  rw [elements?.eq_4 _ _ (by simp [backslash]) (by simp [backslash])]
  simp [quote, backslash, high, Option.map_eq_bind, Function.comp_def]

theorem elements?_short {c e : Char} (letter : e ≠ 'u') (read : unescaped? e = some c)
    (rest : List Char) : elements? ('\\' :: e :: rest) = (elements? rest).map (.char c :: ·) := by
  rw [elements?.eq_3 _ _ (by simp [letter]), read]
  simp [Option.map_eq_bind, Function.comp_def]

theorem hexCode?_hexDigits {n : Nat} (low : n < 32) (rest : List Char) :
    ∃ a b c d, hexDigits n ++ rest = a :: b :: c :: d :: rest ∧ hexCode? a b c d = some n := by
  refine ⟨_, _, _, _, rfl, ?_⟩
  revert n
  decide

theorem elements?_code {c : Char} (low : c.toNat < 32) (rest : List Char) :
    elements? ('\\' :: 'u' :: hexDigits c.toNat ++ rest) =
      (elements? rest).map (.char c :: ·) := by
  obtain ⟨w, x, y, z, split, read⟩ := hexCode?_hexDigits low rest
  have element : Element.ofCode c.toNat = .char c := by
    simp only [Element.ofCode, Char.ofNat_toNat]
    rw [if_neg (by simp; omega), if_neg (by simp; omega)]
  rw [List.cons_append, List.cons_append, split, elements?, read]
  simp [element, Option.map_eq_bind, Function.comp_def]

theorem elements?_escape (c : Char) (rest : List Char) :
    elements? (escape c ++ rest) = (elements? rest).map (.char c :: ·) := by
  simp only [escape, beq_iff_eq]
  split_ifs with quote backslash back tab line page carriage low
  · subst quote
    exact elements?_short (by decide) rfl rest
  · subst backslash
    exact elements?_short (by decide) rfl rest
  · subst back
    exact elements?_short (by decide) rfl rest
  · subst tab
    exact elements?_short (by decide) rfl rest
  · subst line
    exact elements?_short (by decide) rfl rest
  · subst page
    exact elements?_short (by decide) rfl rest
  · subst carriage
    exact elements?_short (by decide) rfl rest
  · exact elements?_code low rest
  · exact elements?_plain quote backslash low rest

theorem elements?_flatMap_escape (cs : List Char) :
    elements? (cs.flatMap escape) = some (cs.map .char) := by
  induction cs with
  | nil => rfl
  | cons c cs ih => rw [List.flatMap_cons, elements?_escape, ih, Option.map_some, List.map_cons]

theorem pair?_map_char (cs : List Char) : pair? (cs.map .char) = some cs := by
  induction cs with
  | nil => rfl
  | cons c cs ih => rw [List.map_cons, pair?, ih, Option.map_some]

theorem text?_text (s : String) : text? (text s) = some s := by
  simp [text, text?, unescape?, elements?_flatMap_escape, pair?_map_char]

/-! ## Sizes -/

mutual

def weight : Json → Nat
  | .null => 4
  | .bool _ => 5
  | .number text => text.utf8ByteSize
  | .string raw => raw.utf8ByteSize + 2
  | .array items => weightItems items + 2
  | .object fields => weightFields fields + 2

def weightItems : List Json → Nat
  | [] => 0
  | item :: rest => item.weight + 1 + weightItems rest

def weightFields : List (String × Json) → Nat
  | [] => 0
  | (name, value) :: rest => name.utf8ByteSize + 4 + value.weight + weightFields rest

end

mutual

theorem size_write (out : String) (j : Json) :
    (j.write out).utf8ByteSize ≤ out.utf8ByteSize + j.weight := by
  cases j with
  | null => exact Nat.le_of_eq String.utf8ByteSize_append
  | bool value => cases value <;> simp [write, weight, String.utf8ByteSize_append] <;> decide
  | number text => exact Nat.le_of_eq String.utf8ByteSize_append
  | string raw =>
    simp only [write, weight, String.utf8ByteSize_append]
    have : "\"".utf8ByteSize = 1 := rfl
    omega
  | array items =>
    have inner := size_writeItems (out ++ "[") items
    have left : "[".utf8ByteSize = 1 := rfl
    have right : "]".utf8ByteSize = 1 := rfl
    simp only [write, weight, String.utf8ByteSize_append] at inner ⊢
    omega
  | object fields =>
    have inner := size_writeFields (out ++ "\x7b") fields
    have left : "\x7b".utf8ByteSize = 1 := rfl
    have right : "\x7d".utf8ByteSize = 1 := rfl
    simp only [write, weight, String.utf8ByteSize_append] at inner ⊢
    omega

theorem size_writeItems (out : String) (items : List Json) :
    (writeItems out items).utf8ByteSize ≤ out.utf8ByteSize + weightItems items := by
  match items with
  | [] => exact Nat.le_refl _
  | [item] =>
    have first := size_write out item
    simp only [writeItems, weightItems]
    omega
  | item :: next :: rest =>
    have first := size_write out item
    have others := size_writeItems (item.write out ++ ",") (next :: rest)
    have comma : ",".utf8ByteSize = 1 := rfl
    simp only [writeItems, weightItems, String.utf8ByteSize_append] at others ⊢
    omega

theorem size_writeFields (out : String) (fields : List (String × Json)) :
    (writeFields out fields).utf8ByteSize ≤ out.utf8ByteSize + weightFields fields := by
  match fields with
  | [] => exact Nat.le_refl _
  | [(name, value)] =>
    have first := size_write (out ++ "\"" ++ name ++ "\":") value
    have quote : "\"".utf8ByteSize = 1 := rfl
    have colon : "\":".utf8ByteSize = 2 := rfl
    simp only [writeFields, weightFields, String.utf8ByteSize_append] at first ⊢
    omega
  | (name, value) :: next :: rest =>
    have first := size_write (out ++ "\"" ++ name ++ "\":") value
    have others := size_writeFields (value.write (out ++ "\"" ++ name ++ "\":") ++ ",")
      (next :: rest)
    have comma : ",".utf8ByteSize = 1 := rfl
    have quote : "\"".utf8ByteSize = 1 := rfl
    have colon : "\":".utf8ByteSize = 2 := rfl
    simp only [writeFields, weightFields, String.utf8ByteSize_append] at first others ⊢
    omega

end

theorem size_render (j : Json) : j.render.utf8ByteSize ≤ j.weight := by
  simpa [render] using size_write "" j

end SceneScript.Json
