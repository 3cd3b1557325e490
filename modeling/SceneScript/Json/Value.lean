/-!
# JSON values

A JSON value as it is written: numbers and strings are kept as their text, so that a reader can
decide what a number stands for and whether a string denotes a text at all. Fields keep their order
and may repeat.
-/

namespace SceneScript

inductive Json where
  | null
  | bool (value : Bool)
  /-- A number, as written. -/
  | number (text : String)
  /-- A string, as written between its quotes. -/
  | string (raw : String)
  | array (items : List Json)
  | object (fields : List (String × Json))
deriving Inhabited

namespace Json

/-! ## Strings -/

/-- The four lower-case hexadecimal digits of a number below `2 ^ 16`. -/
def hexDigits (n : Nat) : List Char :=
  [n / 4096 % 16, n / 256 % 16, n / 16 % 16, n % 16].map Nat.digitChar

/-- A character as it is written in a string. Only the quote, the backslash and control characters
are escaped. -/
def escape (c : Char) : List Char :=
  if c == '"' then ['\\', '"']
  else if c == '\\' then ['\\', '\\']
  else if c == '\x08' then ['\\', 'b']
  else if c == '\t' then ['\\', 't']
  else if c == '\n' then ['\\', 'n']
  else if c == '\x0c' then ['\\', 'f']
  else if c == '\r' then ['\\', 'r']
  else if c.toNat < 32 then '\\' :: 'u' :: hexDigits c.toNat
  else [c]

def text (s : String) : Json :=
  .string (String.ofList (s.toList.flatMap escape))

def field (name : String) (value : Json) : String × Json :=
  (String.ofList (name.toList.flatMap escape), value)

def nat (n : Nat) : Json :=
  .number (toString n)

/-- What one element of a written string stands for: a character, or half of a surrogate pair. -/
inductive Element where
  | char (c : Char)
  | high (code : Nat)
  | low (code : Nat)

def Element.ofCode (code : Nat) : Element :=
  if 0xD800 ≤ code && code < 0xDC00 then .high code
  else if 0xDC00 ≤ code && code < 0xE000 then .low code
  else .char (Char.ofNat code)

def hexValue? (c : Char) : Option Nat :=
  if c.isDigit then some (c.toNat - '0'.toNat)
  else if 'a' ≤ c && c ≤ 'f' then some (c.toNat - 'a'.toNat + 10)
  else if 'A' ≤ c && c ≤ 'F' then some (c.toNat - 'A'.toNat + 10)
  else none

def hexCode? (a b c d : Char) : Option Nat := do
  let a ← hexValue? a
  let b ← hexValue? b
  let c ← hexValue? c
  let d ← hexValue? d
  return ((a * 16 + b) * 16 + c) * 16 + d

def unescaped? : Char → Option Char
  | '"' => some '"'
  | '\\' => some '\\'
  | '/' => some '/'
  | 'b' => some '\x08'
  | 'f' => some '\x0c'
  | 'n' => some '\n'
  | 'r' => some '\r'
  | 't' => some '\t'
  | _ => none

def elements? : List Char → Option (List Element)
  | [] => some []
  | '\\' :: 'u' :: a :: b :: c :: d :: rest => do
    let code ← hexCode? a b c d
    return .ofCode code :: (← elements? rest)
  | '\\' :: c :: rest => do
    let e ← unescaped? c
    return .char e :: (← elements? rest)
  | c :: rest => do
    if c == '"' || c == '\\' || c.toNat < 32 then none
    else return .char c :: (← elements? rest)

/-- The text of elements, in which each half of a surrogate pair must have its partner. -/
def pair? : List Element → Option (List Char)
  | [] => some []
  | .char c :: rest => (pair? rest).map (c :: ·)
  | .high h :: .low l :: rest =>
    (pair? rest).map (Char.ofNat (0x10000 + (h - 0xD800) * 1024 + (l - 0xDC00)) :: ·)
  | _ => none

def unescape? (raw : String) : Option String := do
  return String.ofList (← pair? (← elements? raw.toList))

def text? : Json → Option String
  | .string raw => unescape? raw
  | _ => none

/-! ## Writing -/

mutual

def write (out : String) : Json → String
  | .null => out ++ "null"
  | .bool true => out ++ "true"
  | .bool false => out ++ "false"
  | .number text => out ++ text
  | .string raw => out ++ "\"" ++ raw ++ "\""
  | .array items => writeItems (out ++ "[") items ++ "]"
  | .object fields => writeFields (out ++ "\x7b") fields ++ "\x7d"

def writeItems (out : String) : List Json → String
  | [] => out
  | [item] => item.write out
  | item :: rest => writeItems (item.write out ++ ",") rest

def writeFields (out : String) : List (String × Json) → String
  | [] => out
  | [(name, value)] => value.write (out ++ "\"" ++ name ++ "\":")
  | (name, value) :: rest => writeFields (value.write (out ++ "\"" ++ name ++ "\":") ++ ",") rest

end

def render (j : Json) : String :=
  j.write ""

end Json

end SceneScript
