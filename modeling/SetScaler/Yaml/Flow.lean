import SetScaler.Json.Reader

/-!
YAML's scalars and its flow notation, which is that of JSON with fewer quotes. Numbers are those of
JSON; anchors, tags and complex keys are not read.
-/

namespace SetScaler.Yaml

/-- The value of a scalar without quotes. -/
def plainValue (text : List Char) : Json :=
  let word := String.ofList text
  if ["", "~", "null", "Null", "NULL"].contains word then .null
  else if ["true", "True", "TRUE"].contains word then .bool true
  else if ["false", "False", "FALSE"].contains word then .bool false
  else match Json.literal? text with
    | some (literal, []) => literal.toJson
    | _ => .str word

/-- Characters that a scalar without quotes does not start with. -/
def isIndicator (c : Char) : Bool :=
  ['[', ']', '\x7b', '\x7d', ',', '"', '\'', '|', '>', '&', '*', '!', '%', '@', '#',
    '\x60'].contains c

/-- A dash, a question mark or a colon that stands alone. -/
def isLoneMark : List Char → Bool
  | c :: rest => ['-', '?', ':'].contains c && rest.head?.all Json.isGap
  | [] => false

def startsPlain (text : List Char) : Bool :=
  text.head?.any (fun c => !isIndicator c) && !isLoneMark text

/-- The text between single quotes, the opening one already read; two quotes in a row stand for
one. -/
def singleQuoted : List Char → Option (List Char × List Char)
  | '\'' :: '\'' :: rest => (singleQuoted rest).map fun (text, rest) => ('\'' :: text, rest)
  | '\'' :: rest => some ([], rest)
  | c :: rest => (singleQuoted rest).map fun (text, rest) => (c :: text, rest)
  | [] => none

def quotedScalar : List Char → Option (List Char × List Char)
  | '"' :: rest => do
    let (pieces, rest) ← Json.pieces? rest
    return (← Json.joined? pieces, rest)
  | '\'' :: rest => singleQuoted rest
  | _ => none

/-- Cuts a scalar without quotes off a text in flow notation. -/
def flowPlain : List Char → List Char × List Char
  | [] => ([], [])
  | c :: rest =>
    if [',', '[', ']', '\x7b', '\x7d', '\n'].contains c || isLoneMark (c :: rest) && c = ':' then
      ([], c :: rest)
    else
      let (text, after) := flowPlain rest
      (c :: text, after)

def trimEnd (text : List Char) : List Char := (text.reverse.dropWhile Json.isGap).reverse

mutual

def flowValue : Nat → List Char → Option (Json × List Char)
  | 0, _ => none
  | limit + 1, text =>
    match text.dropWhile Json.isGap with
    | '[' :: rest => (flowItems limit rest).map fun (items, rest) => (.arr items, rest)
    | '\x7b' :: rest => (flowEntries limit rest).map fun (entries, rest) => (.obj entries, rest)
    | start =>
      match quotedScalar start with
      | some (scalar, rest) => some (.str (String.ofList scalar), rest)
      | none =>
        if startsPlain start then
          let (scalar, rest) := flowPlain start
          some (plainValue (trimEnd scalar), rest)
        else none

def flowItems : Nat → List Char → Option (List Json × List Char)
  | 0, _ => none
  | limit + 1, text =>
    match text.dropWhile Json.isGap with
    | ']' :: rest => some ([], rest)
    | start => do
      let (item, rest) ← flowValue limit start
      match rest.dropWhile Json.isGap with
      | ',' :: rest =>
        let (items, rest) ← flowItems limit rest
        return (item :: items, rest)
      | ']' :: rest => return ([item], rest)
      | _ => none

/-- The entries of a mapping, up to its end. A key without a value stands for `null`. -/
def flowEntries : Nat → List Char → Option (List (String × Json) × List Char)
  | 0, _ => none
  | limit + 1, text =>
    match text.dropWhile Json.isGap with
    | '\x7d' :: rest => some ([], rest)
    | start => do
      let (key, rest) ← match quotedScalar start with
        | some read => some read
        | none =>
          if startsPlain start then
            let (key, rest) := flowPlain start
            some (trimEnd key, rest)
          else none
      let (value, rest) ← match rest.dropWhile Json.isGap with
        | ':' :: rest =>
          match rest.dropWhile Json.isGap with
          | ',' :: _ | '\x7d' :: _ => some (Json.null, rest)
          | _ => flowValue limit rest
        | _ => some (Json.null, rest)
      let entry := (String.ofList key, value)
      match rest.dropWhile Json.isGap with
      | ',' :: rest =>
        let (entries, rest) ← flowEntries limit rest
        return (entry :: entries, rest)
      | '\x7d' :: rest => return ([entry], rest)
      | _ => none

end

end SetScaler.Yaml
