import SetScaler.Json.Number

/-!
Reading JSON text by the strict grammar: one value, blanks around tokens, nothing after it. The text
is cut into tokens first, and the tokens are then folded into a value with the open containers on a
stack, so that nesting may be of any depth.
-/

namespace SetScaler.Json

/-- A token of the grammar; a scalar token carries its value. -/
inductive Token where
  | scalar (value : Json)
  | openArray
  | closeArray
  | openObject
  | closeObject
  | comma
  | colon

def hexDigit? (c : Char) : Option Nat :=
  if '0' ≤ c ∧ c ≤ '9' then some (c.toNat - '0'.toNat)
  else if 'a' ≤ c ∧ c ≤ 'f' then some (c.toNat - 'a'.toNat + 10)
  else if 'A' ≤ c ∧ c ≤ 'F' then some (c.toNat - 'A'.toNat + 10)
  else none

def hexUnit? (a b c d : Char) : Option Nat := do
  let a ← hexDigit? a
  let b ← hexDigit? b
  let c ← hexDigit? c
  let d ← hexDigit? d
  return ((a * 16 + b) * 16 + c) * 16 + d

/-- The character that a one-letter escape stands for. -/
def escaped? : Char → Option Char
  | '"' => some '"'
  | '\\' => some '\\'
  | '/' => some '/'
  | 'b' => some '\x08'
  | 'f' => some '\x0c'
  | 'n' => some '\n'
  | 'r' => some '\r'
  | 't' => some '\t'
  | _ => none

/-- A piece of a string literal: a character, or one 16-bit unit given by its number. -/
inductive Piece where
  | char (c : Char)
  | unit (value : Nat)

/-- Cuts a string literal, its opening quote already read, into pieces and the text after it. -/
def pieces? : List Char → Option (List Piece × List Char)
  | [] => none
  | '"' :: rest => some ([], rest)
  | '\\' :: 'u' :: a :: b :: c :: d :: rest => do
    let value ← hexUnit? a b c d
    let (tail, rest) ← pieces? rest
    return (.unit value :: tail, rest)
  | '\\' :: c :: rest => do
    let c ← escaped? c
    let (tail, rest) ← pieces? rest
    return (.char c :: tail, rest)
  | c :: rest => do
    if c.toNat < 0x20 then none
    else
      let (tail, rest) ← pieces? rest
      return (.char c :: tail, rest)

/-- The characters that pieces stand for: a high unit must be followed by a low one, and a low unit
stands nowhere else. -/
def joined? : List Piece → Option (List Char)
  | [] => some []
  | .char c :: rest => (joined? rest).map (c :: ·)
  | .unit high :: .unit low :: rest =>
    if 0xD800 ≤ high ∧ high < 0xDC00 then
      if 0xDC00 ≤ low ∧ low < 0xE000 then
        (joined? rest).map (Char.ofNat (0x10000 + (high - 0xD800) * 0x400 + (low - 0xDC00)) :: ·)
      else none
    else if 0xDC00 ≤ high ∧ high < 0xE000 then none
    else (joined? (.unit low :: rest)).map (Char.ofNat high :: ·)
  | .unit value :: rest =>
    if 0xD800 ≤ value ∧ value < 0xE000 then none
    else (joined? rest).map (Char.ofNat value :: ·)

def ofPieces (pieces : List Piece) : Json :=
  match joined? pieces with
  | some chars => .str (String.ofList chars)
  | none => .unreadable

/-- An exponent after its mark: an optional sign and at least one digit. -/
def exponent? (text : List Char) : Option (Int × List Char) :=
  let (negative, rest) := match text with
    | '-' :: rest => (true, rest)
    | '+' :: rest => (false, rest)
    | rest => (false, rest)
  let digits := rest.takeWhile Char.isDigit
  if digits.isEmpty then none
  else
    let value : Int := Decimal.digitsValue digits
    some (if negative then -value else value, rest.dropWhile Char.isDigit)

/-- A number literal and the text after it. A whole part has no zero in front of other digits. -/
def literal? (text : List Char) : Option (Literal × List Char) := do
  let (negative, unsigned) := match text with
    | '-' :: rest => (true, rest)
    | rest => (false, rest)
  let whole := unsigned.takeWhile Char.isDigit
  let afterWhole := unsigned.dropWhile Char.isDigit
  if whole.isEmpty || (whole.head? == some '0' && whole.length > 1) then none
  let (fraction, afterFraction) ← match afterWhole with
    | '.' :: rest =>
      let digits := rest.takeWhile Char.isDigit
      if digits.isEmpty then none else some (some digits, rest.dropWhile Char.isDigit)
    | rest => some (none, rest)
  match afterFraction with
  | 'e' :: rest | 'E' :: rest =>
    let (power, rest) ← exponent? rest
    return (⟨negative, whole, fraction, some power⟩, rest)
  | rest => return (⟨negative, whole, fraction, none⟩, rest)

/-- The next token of a text that starts with one. -/
def token? : List Char → Option (Token × List Char)
  | '[' :: rest => some (.openArray, rest)
  | ']' :: rest => some (.closeArray, rest)
  | '{' :: rest => some (.openObject, rest)
  | '}' :: rest => some (.closeObject, rest)
  | ',' :: rest => some (.comma, rest)
  | ':' :: rest => some (.colon, rest)
  | '"' :: rest => (pieces? rest).map fun (pieces, rest) => (.scalar (ofPieces pieces), rest)
  | 't' :: 'r' :: 'u' :: 'e' :: rest => some (.scalar (.bool true), rest)
  | 'f' :: 'a' :: 'l' :: 's' :: 'e' :: rest => some (.scalar (.bool false), rest)
  | 'n' :: 'u' :: 'l' :: 'l' :: rest => some (.scalar .null, rest)
  | text => (literal? text).map fun (literal, rest) => (.scalar literal.toJson, rest)

def isGap (c : Char) : Bool := c = ' ' || c = '\t' || c = '\n' || c = '\r'

/-- All tokens of a text; each takes at least one character, so its length bounds their number. -/
def tokensWithin : Nat → List Char → Option (List Token)
  | 0, text => if (text.dropWhile isGap).isEmpty then some [] else none
  | limit + 1, text =>
    match text.dropWhile isGap with
    | [] => some []
    | start => do
      let (token, rest) ← token? start
      return token :: (← tokensWithin limit rest)

def tokens? (text : List Char) : Option (List Token) := tokensWithin text.length text

/-- A container still open: its finished items or members, the latest first, and for an object the
key whose value is being read. -/
inductive Open where
  | array (items : List Json)
  | object (members : List (String × Json)) (key : String)

/-- What the reader is waiting for. -/
inductive Expect where
  | value
  /-- The first item of an array, or its end. -/
  | firstItem
  /-- The first key of an object with no members yet, or its end. -/
  | firstKey
  /-- A further key of an object with these members. -/
  | key (members : List (String × Json))
  /-- The colon after a key. -/
  | colon (members : List (String × Json)) (key : String)
  /-- A comma or the end of the container, a value having just been read. -/
  | next (read : Json)

/-- Folds tokens into one value. -/
def build : List Token → List Open → Expect → Option Json
  | [], [], .next read => some read
  | [], _, _ => none
  | .scalar read :: rest, stack, .value => build rest stack (.next read)
  | .scalar read :: rest, stack, .firstItem => build rest (.array [] :: stack) (.next read)
  | .scalar (.str key) :: rest, stack, .firstKey => build rest stack (.colon [] key)
  | .scalar (.str key) :: rest, stack, .key members => build rest stack (.colon members key)
  | .openArray :: rest, stack, .value => build rest stack .firstItem
  | .openArray :: rest, stack, .firstItem => build rest (.array [] :: stack) .firstItem
  | .openObject :: rest, stack, .value => build rest stack .firstKey
  | .openObject :: rest, stack, .firstItem => build rest (.array [] :: stack) .firstKey
  | .closeArray :: rest, stack, .firstItem => build rest stack (.next (.arr []))
  | .closeObject :: rest, stack, .firstKey => build rest stack (.next (.obj []))
  | .colon :: rest, stack, .colon members key => build rest (.object members key :: stack) .value
  | .comma :: rest, .array items :: stack, .next read =>
    build rest (.array (read :: items) :: stack) .value
  | .closeArray :: rest, .array items :: stack, .next read =>
    build rest stack (.next (.arr (read :: items).reverse))
  | .comma :: rest, .object members key :: stack, .next read =>
    build rest stack (.key ((key, read) :: members))
  | .closeObject :: rest, .object members key :: stack, .next read =>
    build rest stack (.next (.obj ((key, read) :: members).reverse))
  | _, _, _ => none

/-- The value a text holds; `none` when it is not JSON. -/
def read? (text : String) : Option Json := do
  build (← tokens? text.toList) [] .value

end SetScaler.Json
