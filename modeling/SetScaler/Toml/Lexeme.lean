import SetScaler.Calendar
import SetScaler.Decimal.Numeral
import SetScaler.Json.Reader

/-!
The smallest pieces of TOML 1.0: white space, comments, strings, keys, numbers and dates. Each
reader takes the text from its position on and gives back what it read and the text after it.
-/

namespace SetScaler.Toml

/-- A reader of one piece of a text. -/
abbrev Reader (α : Type) := List Char → Option (α × List Char)

def isSpace (c : Char) : Bool := c = ' ' || c = '\t'

def skipSpace (text : List Char) : List Char := text.dropWhile isSpace

/-- Characters that may stand in comments and, but for quotes and backslashes, in strings: a tab,
and everything that is not a control character. -/
def isPlain (c : Char) : Bool := c = '\t' || (0x20 ≤ c.toNat && c.toNat ≠ 0x7F)

def newline : Reader Unit
  | '\n' :: rest => some ((), rest)
  | '\r' :: '\n' :: rest => some ((), rest)
  | _ => none

def skipComment : List Char → List Char
  | '#' :: rest => rest.dropWhile isPlain
  | text => text

/-- The end of a line: spaces, a comment, and a line break or the end of the text. -/
def lineEnd (text : List Char) : Option (List Char) :=
  match skipComment (skipSpace text) with
  | [] => some []
  | rest => (newline rest).map (·.2)

/-- Spaces, line breaks and comments, each comment with its line break, as they may stand between
the items of an array. -/
def skipLines : Nat → List Char → List Char
  | 0, text => text
  | limit + 1, text =>
    match skipSpace text with
    | '#' :: rest =>
      match newline (rest.dropWhile isPlain) with
      | some (_, rest) => skipLines limit rest
      | none => '#' :: rest
    | rest =>
      match newline rest with
      | some (_, rest) => skipLines limit rest
      | none => rest

/-- The character of a code point that is one. -/
def charOf? (value : Nat) : Option Char :=
  if value.isValidChar then some (Char.ofNat value) else none

/-- An escape, its backslash already read. -/
def escape : Reader Char
  | 'b' :: rest => some ('\x08', rest)
  | 't' :: rest => some ('\t', rest)
  | 'n' :: rest => some ('\n', rest)
  | 'f' :: rest => some ('\x0c', rest)
  | 'r' :: rest => some ('\r', rest)
  | '"' :: rest => some ('"', rest)
  | '\\' :: rest => some ('\\', rest)
  | 'u' :: a :: b :: c :: d :: rest => do
    return (← charOf? (← Json.hexUnit? a b c d), rest)
  | 'U' :: a :: b :: c :: d :: e :: f :: g :: h :: rest => do
    let high ← Json.hexUnit? a b c d
    let low ← Json.hexUnit? e f g h
    return (← charOf? (high * 65536 + low), rest)
  | _ => none

/-- Puts a character in front of a string that was read. -/
def consChar (c : Char) : Option (List Char × List Char) → Option (List Char × List Char) :=
  Option.map fun read => (c :: read.1, read.2)

/-- A basic string on one line, its opening quote already read. -/
def basic : Nat → Reader (List Char)
  | 0, _ => none
  | _ + 1, [] => none
  | _ + 1, '"' :: rest => some ([], rest)
  | limit + 1, '\\' :: rest => (escape rest).bind fun (c, rest) => consChar c (basic limit rest)
  | limit + 1, c :: rest => if isPlain c then consChar c (basic limit rest) else none

/-- A literal string on one line, its opening quote already read. -/
def literal : Reader (List Char)
  | [] => none
  | '\'' :: rest => some ([], rest)
  | c :: rest => if isPlain c then consChar c (literal rest) else none

/-- Skips a line break that is escaped, its backslash already read: the white space before it and
all of it after it. -/
def escapedBreak (text : List Char) : Option (List Char) :=
  (newline (skipSpace text)).map fun (_, rest) =>
    rest.dropWhile fun c => isSpace c || c = '\n' || c = '\r'

/-- Whether every carriage return in white space is part of a line break. -/
def returnsPaired : List Char → Bool
  | '\r' :: '\n' :: rest => returnsPaired rest
  | '\r' :: _ => false
  | c :: rest => if isSpace c || c = '\n' then returnsPaired rest else true
  | [] => true

/-- A basic string over several lines, its opening quotes already read. One or two quotes may stand
right before the closing ones. -/
def basicLines : Nat → Reader (List Char)
  | 0, _ => none
  | _ + 1, '"' :: '"' :: '"' :: '"' :: '"' :: rest => some (['"', '"'], rest)
  | _ + 1, '"' :: '"' :: '"' :: '"' :: rest => some (['"'], rest)
  | _ + 1, '"' :: '"' :: '"' :: rest => some ([], rest)
  | limit + 1, '\\' :: rest =>
    match escapedBreak rest with
    | some after =>
      if returnsPaired (skipSpace rest) then basicLines limit after else none
    | none => (escape rest).bind fun (c, rest) => consChar c (basicLines limit rest)
  | limit + 1, '\r' :: '\n' :: rest => consChar '\n' (basicLines limit rest)
  | limit + 1, c :: rest =>
    if c = '\n' || isPlain c then consChar c (basicLines limit rest) else none
  | _ + 1, [] => none

/-- A literal string over several lines, its opening quotes already read. -/
def literalLines : Reader (List Char)
  | '\'' :: '\'' :: '\'' :: '\'' :: '\'' :: rest => some (['\'', '\''], rest)
  | '\'' :: '\'' :: '\'' :: '\'' :: rest => some (['\''], rest)
  | '\'' :: '\'' :: '\'' :: rest => some ([], rest)
  | '\r' :: '\n' :: rest => consChar '\n' (literalLines rest)
  | c :: rest => if c = '\n' || isPlain c then consChar c (literalLines rest) else none
  | [] => none

/-- A line break right after opening quotes does not count. -/
def afterQuotes (text : List Char) : List Char :=
  match newline text with
  | some (_, rest) => rest
  | none => text

/-- A string of any of the four kinds. -/
def string : Reader (List Char)
  | '"' :: '"' :: '"' :: rest => basicLines (rest.length + 1) (afterQuotes rest)
  | '"' :: rest => basic (rest.length + 1) rest
  | '\'' :: '\'' :: '\'' :: rest => literalLines (afterQuotes rest)
  | '\'' :: rest => literal rest
  | _ => none

def isBareKey (c : Char) : Bool := c.isAlphanum || c = '-' || c = '_'

/-- One part of a key: bare or quoted on one line. -/
def simpleKey : Reader String
  | '"' :: rest => (basic (rest.length + 1) rest).map fun (key, rest) => (String.ofList key, rest)
  | '\'' :: rest => (literal rest).map fun (key, rest) => (String.ofList key, rest)
  | text =>
    let key := text.takeWhile isBareKey
    if key.isEmpty then none else some (String.ofList key, text.dropWhile isBareKey)

/-- The parts of a dotted key, with spaces around each. -/
def keyParts : Nat → Reader (List String)
  | 0, _ => none
  | limit + 1, text => do
    let (part, rest) ← simpleKey (skipSpace text)
    match skipSpace rest with
    | '.' :: rest =>
      let (parts, rest) ← keyParts limit rest
      return (part :: parts, rest)
    | rest => return ([part], rest)

/-- Keys and containers are nested fewer than so many levels deep. -/
def depthLimit : Nat := 80

/-- A key, as the parts that lead to it and its own last part. -/
def key (text : List Char) : Option ((List String × String) × List Char) := do
  let (parts, rest) ← keyParts depthLimit text
  if parts.length < depthLimit then
    return ((parts.dropLast, ← parts.getLast?), rest)
  else none

/-- Digits of some kind, single underscores between them. -/
def digits (isDigit : Char → Bool) : Reader (List Char)
  | [] => none
  | c :: rest =>
    if !isDigit c then none
    else match rest with
      | '_' :: next => consChar c (digits isDigit next)
      | next =>
        match next with
        | d :: _ => if isDigit d then consChar c (digits isDigit next) else some ([c], next)
        | [] => some ([c], [])

/-- An optional sign; true for minus. -/
def sign : List Char → Bool × List Char
  | '-' :: rest => (true, rest)
  | '+' :: rest => (false, rest)
  | rest => (false, rest)

/-- The digits of a decimal whole number: no zero in front of others. -/
def decimal : Reader (List Char)
  | '0' :: rest => some (['0'], rest)
  | text => digits Char.isDigit text

def digitsIn (base : Nat) (text : List Char) : Nat :=
  text.foldl (fun value c => value * base + (Json.hexDigit? c).getD 0) 0

/-- A whole number that fits a signed 64-bit word. -/
def wholeJson (value : Int) : Option Json := (Json.int value).int64?.map Json.int

/-- A whole number in a base given by its mark. -/
def based (base : Nat) (text : List Char) : Option (Json × List Char) := do
  let (read, rest) ← digits (fun c => (Json.hexDigit? c).any (· < base)) text
  return (← wholeJson (digitsIn base read), rest)

/-- The digits after an exponent's mark, with a sign. -/
def exponent (text : List Char) : Option (Int × List Char) := do
  let (negative, rest) := sign text
  let (read, rest) ← digits Char.isDigit rest
  let value : Int := Decimal.digitsValue read
  return (if negative then -value else value, rest)

/-- A decimal number: whole, or with a fraction or an exponent. A positive number beyond the doubles
is refused. -/
def number (text : List Char) : Option (Json × List Char) := do
  let (negative, unsigned) := sign text
  let (whole, rest) ← decimal unsigned
  let float (digits : List Char) (power : Int) (rest : List Char) : Option (Json × List Char) :=
    let value := Decimal.Numeral.nearest ⟨Decimal.digitsValue digits, power⟩
    if value.isInf && !negative then none
    else some (.float (if negative then -value else value), rest)
  match rest with
  | '.' :: rest =>
    let (fraction, rest) ← digits Char.isDigit rest
    let places : Int := fraction.length
    match rest with
    | 'e' :: rest | 'E' :: rest =>
      let (power, rest) ← exponent rest
      float (whole ++ fraction) (power - places) rest
    | rest => float (whole ++ fraction) (-places) rest
  | 'e' :: rest | 'E' :: rest =>
    let (power, rest) ← exponent rest
    float whole power rest
  | rest =>
    let value : Int := Decimal.digitsValue whole
    return (← wholeJson (if negative then -value else value), rest)

/-- The words for infinity and not-a-number, with an optional sign. -/
def special (text : List Char) : Option (Json × List Char) :=
  let (negative, rest) := sign text
  match rest with
  | 'i' :: 'n' :: 'f' :: rest =>
    some (.float (if negative then -1.0 / 0.0 else 1.0 / 0.0), rest)
  | 'n' :: 'a' :: 'n' :: rest => some (.float (0.0 / 0.0), rest)
  | _ => none

/-- Exactly so many digits, with a value between bounds. -/
def fixed (count low high : Nat) (text : List Char) : Option (Nat × List Char) :=
  let read := text.take count
  let value := Decimal.digitsValue read
  if read.length = count && read.all Char.isDigit && low ≤ value && value ≤ high then
    some (value, text.drop count)
  else none

def mark (c : Char) : Reader Unit
  | d :: rest => if c = d then some ((), rest) else none
  | [] => none

/-- A time of day, up to an optional fraction of a second. -/
def timeOfDay (text : List Char) : Option (List Char) := do
  let (_, rest) ← fixed 2 0 23 text
  let (_, rest) ← mark ':' rest
  let (_, rest) ← fixed 2 0 59 rest
  let (_, rest) ← mark ':' rest
  let (_, rest) ← fixed 2 0 60 rest
  match rest with
  | '.' :: tail =>
    let fraction := tail.takeWhile Char.isDigit
    if fraction.isEmpty then none else some (tail.dropWhile Char.isDigit)
  | rest => some rest

/-- An offset from universal time, if there is one. -/
def offset : List Char → Option (List Char)
  | 'Z' :: rest | 'z' :: rest => some rest
  | '+' :: rest | '-' :: rest => do
    let (_, rest) ← fixed 2 0 23 rest
    let (_, rest) ← mark ':' rest
    let (_, rest) ← fixed 2 0 59 rest
    return rest
  | rest => some rest

def date (text : List Char) : Option (List Char) := do
  let (year, rest) ← fixed 4 0 9999 text
  let (_, rest) ← mark '-' rest
  let (month, rest) ← fixed 2 1 12 rest
  let (_, rest) ← mark '-' rest
  let (day, rest) ← fixed 2 1 31 rest
  if day ≤ daysIn year month then some rest else none

/-- Whether a text starts as a time does: two digits and a colon. -/
def startsTime : List Char → Bool
  | a :: b :: ':' :: _ => a.isDigit && b.isDigit
  | _ => false

/-- Whether a text starts as a date does: four digits and a dash. -/
def startsDate : List Char → Bool
  | a :: b :: c :: d :: '-' :: _ => [a, b, c, d].all Char.isDigit
  | _ => false

/-- A date, a time, or both. As a value it is a record with one member that no record of ours
knows. -/
def moment (text : List Char) : Option (Json × List Char) := do
  let rest ←
    if startsDate text then do
      let rest ← date text
      match rest with
      | c :: tail =>
        if (c = 'T' || c = 't' || c = ' ') && startsTime tail then (timeOfDay tail).bind offset
        else some rest
      | [] => some []
    else timeOfDay text
  return (.obj [("datetime", .null)], rest)

/-- A number, a date or a time. -/
def numberOrMoment (text : List Char) : Option (Json × List Char) :=
  if startsDate text || startsTime text then moment text
  else match text with
    | '0' :: 'x' :: rest => based 16 rest
    | '0' :: 'o' :: rest => based 8 rest
    | '0' :: 'b' :: rest => based 2 rest
    | _ =>
      match special text with
      | some read => some read
      | none => number text

end SetScaler.Toml
