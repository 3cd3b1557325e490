import SceneScript.Json.Value

/-!
# Reading JSON

The reader accepts exactly the JSON grammar. It takes the number of characters as the bound of its
recursion: each nested value and each further item takes at least one character.
-/

namespace SceneScript.Json

def isSpace (c : Char) : Bool :=
  c == ' ' || c == '\t' || c == '\n' || c == '\r'

def skipSpace (s : List Char) : List Char :=
  s.dropWhile isSpace

/-- Removes the given word from the front. -/
def dropWord? : List Char → List Char → Option (List Char)
  | [], s => some s
  | w :: word, c :: s => if w == c then dropWord? word s else none
  | _ :: _, [] => none

/-! ## Numbers -/

def digits? (s : List Char) : Option (List Char × List Char) :=
  let front := s.takeWhile Char.isDigit
  if front.isEmpty then none else some (front, s.dropWhile Char.isDigit)

/-- The whole part of a number, which begins with zero only if it is zero. -/
def wholePart? : List Char → Option (List Char × List Char)
  | '0' :: rest => if rest.head?.any Char.isDigit then none else some (['0'], rest)
  | s => digits? s

def fractionPart? : List Char → Option (List Char × List Char)
  | '.' :: rest => do
    let (front, after) ← digits? rest
    return ('.' :: front, after)
  | s => some ([], s)

def exponentDigits? : List Char → Option (List Char × List Char)
  | '+' :: rest => (digits? rest).map fun (front, after) => ('+' :: front, after)
  | '-' :: rest => (digits? rest).map fun (front, after) => ('-' :: front, after)
  | s => digits? s

def exponentPart? : List Char → Option (List Char × List Char)
  | 'e' :: rest => (exponentDigits? rest).map fun (front, after) => ('e' :: front, after)
  | 'E' :: rest => (exponentDigits? rest).map fun (front, after) => ('E' :: front, after)
  | s => some ([], s)

def readNumber? (s : List Char) : Option (Json × List Char) := do
  let (sign, unsigned) := match s with
    | '-' :: rest => (['-'], rest)
    | rest => ([], rest)
  let (whole, afterWhole) ← wholePart? unsigned
  let (fraction, afterFraction) ← fractionPart? afterWhole
  let (exponent, rest) ← exponentPart? afterFraction
  return (.number (String.ofList (sign ++ whole ++ fraction ++ exponent)), rest)

/-! ## Strings -/

/-- Splits a string from its closing quote on. -/
def splitQuote? : List Char → Option (List Char × List Char)
  | [] => none
  | '"' :: rest => some ([], rest)
  | '\\' :: c :: rest => (splitQuote? rest).map fun (front, after) => ('\\' :: c :: front, after)
  | c :: rest => (splitQuote? rest).map fun (front, after) => (c :: front, after)

def readString? (s : List Char) : Option (String × List Char) := do
  let (raw, rest) ← splitQuote? s
  let _ ← elements? raw
  return (String.ofList raw, rest)

/-! ## Values -/

/-- The rest of an array behind an item or its opening bracket and first blank. -/
def readItems? (value : List Char → Option (Json × List Char)) :
    Nat → List Char → Option (List Json × List Char)
  | 0, _ => none
  | fuel + 1, s => do
    let (item, rest) ← value s
    match skipSpace rest with
    | ',' :: more => do
      let (items, after) ← readItems? value fuel more
      return (item :: items, after)
    | ']' :: after => return ([item], after)
    | _ => none

def readField? (value : List Char → Option (Json × List Char)) (s : List Char) :
    Option ((String × Json) × List Char) :=
  match skipSpace s with
  | '"' :: quoted => do
    let (name, rest) ← readString? quoted
    match skipSpace rest with
    | ':' :: more => do
      let (item, after) ← value more
      return ((name, item), after)
    | _ => none
  | _ => none

def readFields? (value : List Char → Option (Json × List Char)) :
    Nat → List Char → Option (List (String × Json) × List Char)
  | 0, _ => none
  | fuel + 1, s => do
    let (item, rest) ← readField? value s
    match skipSpace rest with
    | ',' :: more => do
      let (items, after) ← readFields? value fuel more
      return (item :: items, after)
    | '}' :: after => return ([item], after)
    | _ => none

/-- Reads one value, blanks in front of it included. -/
def readValue? : Nat → List Char → Option (Json × List Char)
  | 0, _ => none
  | fuel + 1, s =>
    match skipSpace s with
    | 'n' :: rest => do return (.null, ← dropWord? "ull".toList rest)
    | 't' :: rest => do return (.bool true, ← dropWord? "rue".toList rest)
    | 'f' :: rest => do return (.bool false, ← dropWord? "alse".toList rest)
    | '"' :: rest => do
      let (raw, after) ← readString? rest
      return (.string raw, after)
    | '[' :: rest =>
      match skipSpace rest with
      | ']' :: after => some (.array [], after)
      | items => do
        let (items, after) ← readItems? (readValue? fuel) fuel items
        return (.array items, after)
    | '{' :: rest =>
      match skipSpace rest with
      | '}' :: after => some (.object [], after)
      | fields => do
        let (fields, after) ← readFields? (readValue? fuel) fuel fields
        return (.object fields, after)
    | other => readNumber? other

def read? (source : String) : Option Json := do
  let s := source.toList
  let (value, rest) ← readValue? (s.length + 1) s
  if (skipSpace rest).isEmpty then some value else none

end SceneScript.Json
