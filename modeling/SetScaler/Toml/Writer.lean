import SetScaler.Json.Writer

/-!
Writing TOML: strings in the plainest of the four notations that can hold them, arrays of strings,
and entries of a table.
-/

namespace SetScaler.Toml

/-- The length of the longest run of a character in a text. -/
def longestRun (c : Char) (text : List Char) : Nat :=
  (text.foldl (fun (run, longest) d =>
    if d = c then (run + 1, max longest (run + 1)) else (0, longest)) (0, 0)).2

/-- How a string is written: between double quotes with escapes, or between single quotes as it is;
either on one line or over several. -/
inductive Quoting where
  | basic
  | literal
  | basicLines
  | literalLines
deriving DecidableEq, Repr

/-- A control character that no notation takes without an escape. -/
def needsEscape (c : Char) : Bool :=
  (c.toNat < 0x20 && c != '\t' && c != '\n') || c.toNat = 0x7F

/-- The notation of a string: one that needs no escapes if there is one, single lines before
several. -/
def Quoting.of (text : List Char) : Quoting :=
  let breaks := text.contains '\n'
  let escapes := text.any needsEscape
  let backslash := text.contains '\\'
  let doubles := longestRun '"' text
  let singles := longestRun '\'' text
  if !escapes && !backslash && !breaks && doubles = 0 then .basic
  else if !escapes && !breaks && singles = 0 then .literal
  else if !escapes && !backslash && doubles ≤ 2 then .basicLines
  else if !escapes && singles ≤ 2 then .literalLines
  else if breaks then .basicLines
  else .basic

/-- A character other than a quote between double quotes. Line breaks stand for themselves in a
string over several lines. -/
def escapedChar (breaks : Bool) (c : Char) : List Char :=
  if c = '\\' then ['\\', '\\']
  else if c = '\x08' then ['\\', 'b']
  else if c = '\t' then ['\\', 't']
  else if c = '\n' then if breaks then ['\n'] else ['\\', 'n']
  else if c = '\x0c' then ['\\', 'f']
  else if c = '\r' then ['\\', 'r']
  else if needsEscape c then ['\\', 'u', '0', '0'] ++ (Json.hexPair c.toNat).map Char.toUpper
  else [c]

/-- A text between double quotes. Up to two quotes in a row stand for themselves in a string over
several lines, of which there were `quotes` already. -/
def escaped (breaks : Bool) : (quotes : Nat) → List Char → List Char
  | _, [] => []
  | quotes, c :: rest =>
    if c = '"' then
      if breaks && quotes < 2 then '"' :: escaped breaks (quotes + 1) rest
      else '\\' :: '"' :: escaped breaks 0 rest
    else escapedChar breaks c ++ escaped breaks 0 rest

/-- A string. One over several lines starts on a line of its own. -/
def quoted (text : String) : String :=
  let chars := text.toList
  let first := if chars.contains '\n' then ['\n'] else []
  let written := match Quoting.of chars with
    | .basic => ['"'] ++ escaped false 0 chars ++ ['"']
    | .literal => ['\''] ++ chars ++ ['\'']
    | .basicLines =>
      ['"', '"', '"'] ++ first ++ escaped true 0 chars ++ ['"', '"', '"']
    | .literalLines => ['\'', '\'', '\''] ++ first ++ chars ++ ['\'', '\'', '\'']
  String.ofList written

/-- An array of strings: on one line up to one of them, else one on each line. -/
def quotedList : List String → String
  | [] => "[]"
  | [text] => "[" ++ quoted text ++ "]"
  | texts => "[\n" ++ String.join (texts.map fun text => "    " ++ quoted text ++ ",\n") ++ "]"

def entry (key value : String) : String := key ++ " = " ++ value ++ "\n"

def table (name : String) (entries : List String) : String :=
  "[" ++ name ++ "]\n" ++ String.join entries

end SetScaler.Toml
