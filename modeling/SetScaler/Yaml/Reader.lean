import SetScaler.Yaml.Flow

/-!
Reading YAML documents as they are written by hand: mappings and sequences by indentation, the flow
notation, quoted and plain scalars, and texts over several lines.
-/

namespace SetScaler.Yaml

/-- A line: how far it is indented, its text without comments, and the line as it was. -/
structure Line where
  indent : Nat
  text : List Char
  raw : List Char

/-- A text without the comment at its end. A comment starts a line or follows a blank, and not
between quotes. -/
def withoutComment : (quote : Option Char) → (before : Char) → List Char → List Char
  | _, _, [] => []
  | some '"', _, '\\' :: c :: rest => '\\' :: c :: withoutComment (some '"') c rest
  | some '\'', _, '\'' :: '\'' :: rest => '\'' :: '\'' :: withoutComment (some '\'') '\'' rest
  | some quote, _, c :: rest =>
    c :: withoutComment (if c = quote then none else some quote) c rest
  | none, before, c :: rest =>
    if c = '#' ∧ before = ' ' then []
    else
      let opens := (c = '"' || c = '\'') && [' ', '[', '\x7b', ',', ':'].contains before
      c :: withoutComment (if opens then some c else none) c rest

def Line.of (raw : List Char) : Line :=
  let text := raw.dropWhile (· = ' ')
  ⟨raw.length - text.length, trimEnd (withoutComment none ' ' text), raw⟩

namespace Line

def isBlank (line : Line) : Bool := line.text.isEmpty

/-- Whether a line is an item of a sequence. -/
def isItem (line : Line) : Bool := line.text.head? == some '-' && isLoneMark line.text

end Line

/-- The text after the colon of a key, if the text goes on with one. -/
def afterColon (text : List Char) : Option (List Char) :=
  match text.dropWhile (· = ' ') with
  | ':' :: rest => if rest.head?.all Json.isGap then some (rest.dropWhile Json.isGap) else none
  | _ => none

/-- Splits a line into a key without quotes and the text after its colon. -/
def plainKey : List Char → Option (List Char × List Char)
  | [] => none
  | c :: rest =>
    match afterColon (c :: rest) with
    | some value => some ([], value)
    | none => (plainKey rest).map fun (key, value) => (c :: key, value)

/-- Splits a line into a key and the text after its colon. -/
def splitKey (text : List Char) : Option (String × List Char) :=
  match quotedScalar text with
  | some (key, rest) => (afterColon rest).map fun value => (String.ofList key, value)
  | none =>
    if startsPlain text then
      (plainKey text).map fun (key, value) => (String.ofList (trimEnd key), value)
    else none

/-- The lines that belong to something indented by less than `low`. -/
def indented (low : Nat) (lines : List Line) : List Line :=
  lines.takeWhile fun line => line.isBlank || low ≤ line.indent

/-- A text over several lines, its mark being `text`: line breaks are kept after `|` and are blanks
after `>`. It ends with a line break unless a dash follows the mark. -/
def blockText (text : List Char) (body : List Line) : String :=
  let indent := ((body.find? fun line => !line.isBlank).map Line.indent).getD 0
  let between := if text.head? = some '|' then "\n" else " "
  let last := if text.drop 1 = ['-'] then "" else "\n"
  between.intercalate (body.map fun line => String.ofList (line.raw.drop indent)) ++ last

/-- A scalar or a value in flow notation that starts within a line; `low` is how far the lines that
go on with it are indented. -/
def inlineValue (low : Nat) (text : List Char) (rest : List Line) : Option (Json × List Line) :=
  match text with
  | '|' :: _ | '>' :: _ =>
    let body := indented low rest
    some (.str (blockText text body), rest.drop body.length)
  | '[' :: _ | '\x7b' :: _ | '"' :: _ | '\'' :: _ => do
    let whole := "\n".toList.intercalate (text :: rest.map Line.text)
    let (value, after) ← flowValue (whole.length + 1) whole
    let used := (whole.take (whole.length - after.length)).count '\n'
    if (after.takeWhile (· ≠ '\n')).all Json.isGap then return (value, rest.drop used) else none
  | _ => do
    let more := (indented low rest).filter fun line => !line.isBlank
    let texts := text :: more.map Line.text
    if startsPlain text && !more.any Line.isItem &&
        texts.all (fun text => (splitKey text).isNone) then
      let words := " ".toList.intercalate texts
      return (plainValue words, rest.drop (indented low rest).length)
    else none

mutual

/-- A value whose lines are indented by `low` at least. -/
def blockValue : Nat → (low : Nat) → List Line → Option (Json × List Line)
  | 0, _, _ => none
  | limit + 1, low, lines =>
    match lines.dropWhile Line.isBlank with
    | [] => some (.null, [])
    | line :: rest =>
      if line.indent < low then some (.null, line :: rest)
      else if line.isItem then
        (blockItems limit line.indent (line :: rest)).map fun (items, rest) => (.arr items, rest)
      else if (splitKey line.text).isSome then
        (blockEntries limit line.indent [] (line :: rest)).map fun (entries, rest) =>
          (.obj entries, rest)
      else inlineValue low line.text rest

/-- The items of a sequence whose dashes are indented by `indent`. -/
def blockItems : Nat → (indent : Nat) → List Line → Option (List Json × List Line)
  | 0, _, _ => none
  | limit + 1, indent, lines =>
    match lines.dropWhile Line.isBlank with
    | [] => some ([], [])
    | line :: rest =>
      if line.indent ≠ indent ∨ !line.isItem then
        if indent < line.indent then none else some ([], line :: rest)
      else do
        let text := (line.text.drop 1).dropWhile (· = ' ')
        let first : Line := ⟨indent + (line.text.length - text.length), text, line.raw⟩
        let (item, rest) ← blockValue limit (indent + 1) (first :: rest)
        let (items, rest) ← blockItems limit indent rest
        return (item :: items, rest)

/-- The entries of a mapping whose keys are indented by `indent`, beside those already read. No key
is given twice. -/
def blockEntries : Nat → (indent : Nat) → List (String × Json) → List Line →
    Option (List (String × Json) × List Line)
  | 0, _, _, _ => none
  | limit + 1, indent, entries, lines =>
    match lines.dropWhile Line.isBlank with
    | [] => some (entries, [])
    | line :: rest =>
      if line.indent < indent then some (entries, line :: rest)
      else if indent < line.indent then none
      else do
        let (key, text) ← splitKey line.text
        let (value, rest) ←
          if text.isEmpty then
            let isSequence := (rest.dropWhile Line.isBlank).head?.any fun next =>
              next.indent = indent && next.isItem
            blockValue limit (if isSequence then indent else indent + 1) rest
          else inlineValue (indent + 1) text rest
        if entries.any (·.1 == key) then none
        else blockEntries limit indent (entries ++ [(key, value)]) rest

end

def linesOf (text : String) : List (List Char) :=
  (text.toList.splitOn '\n').map fun line =>
    if line.getLast? = some '\r' then line.dropLast else line

def isSeparator (line : List Char) : Bool := line.take 3 = ['-', '-', '-'] && line.length = 3

def document? (lines : List (List Char)) : Option Json := do
  let lines := lines.map Line.of
  if lines.any fun line => line.text.head? == some '\t' then none
  else
    let limit := 2 * lines.foldl (fun total line => total + line.raw.length + 1) 0 + 2
    let (value, rest) ← blockValue limit 0 lines
    if rest.all Line.isBlank then return value else none

/-- All documents of a text; a line of three dashes starts a document. -/
def documents? (text : String) : Option (List Json) :=
  let parts := (linesOf text).splitOnP isSeparator
  let isEmpty (part : List (List Char)) := part.all fun line => (Line.of line).isBlank
  let parts := match parts with
    | first :: second :: rest => if isEmpty first then second :: rest else parts
    | parts => parts
  parts.mapM document?

end SetScaler.Yaml
