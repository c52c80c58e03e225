import SetScaler.Toml.Lexeme
import SetScaler.Toml.Table

/-!
Reading a TOML 1.0 document as one record: tables become objects, arrays of tables become arrays.
-/

namespace SetScaler.Toml

def boolean : Reader Json
  | 't' :: 'r' :: 'u' :: 'e' :: rest => some (.bool true, rest)
  | 'f' :: 'a' :: 'l' :: 's' :: 'e' :: rest => some (.bool false, rest)
  | _ => none

mutual

/-- A value. `depth` counts the levels of nesting left, `limit` bounds the steps. -/
def value (depth : Nat) : Nat → Reader Json
  | 0, _ => none
  | limit + 1, text =>
    match text with
    | '"' :: _ | '\'' :: _ =>
      (string text).map fun (read, rest) => (.str (String.ofList read), rest)
    | '[' :: rest =>
      if depth = 0 then none
      else (items (depth - 1) limit rest).map fun (read, rest) => (.arr read, rest)
    | '\x7b' :: rest =>
      if depth = 0 then none
      else
        match skipSpace rest with
        | '\x7d' :: rest => some (.obj [], rest)
        | rest =>
          (members (depth - 1) limit [] rest).map fun (read, rest) =>
            (.obj (entriesJson read), rest)
    | 't' :: _ | 'f' :: _ => boolean text
    | 'i' :: _ | 'n' :: _ => special text
    | _ => numberOrMoment text

def items (depth : Nat) : Nat → Reader (List Json)
  | 0, _ => none
  | limit + 1, text =>
    match skipLines text.length text with
    | ']' :: rest => some ([], rest)
    | start => do
      let (item, rest) ← value depth limit start
      match skipLines rest.length rest with
      | ',' :: rest =>
        let (others, rest) ← items depth limit rest
        return (item :: others, rest)
      | ']' :: rest => return ([item], rest)
      | _ => none

def members (depth : Nat) : Nat → Entries → Reader Entries
  | 0, _, _ => none
  | limit + 1, entries, text => do
    let ((path, name), rest) ← key text
    let (_, rest) ← mark '=' rest
    let (json, rest) ← value depth limit (skipSpace rest)
    let entries ← addValue path name json entries
    match skipSpace rest with
    | ',' :: rest => members depth limit entries rest
    | '\x7d' :: rest => return (entries, rest)
    | _ => none

end

/-- A header's key, up to the brackets that close it. -/
def headerKey (closing : List Char) (text : List Char) :
    Option ((List String × String) × List Char) := do
  let (read, rest) ← key text
  if closing.isPrefixOf rest then return (read, rest.drop closing.length) else none

/-- The lines of a document from some line on. `current` is the path of the table that the latest
header opened. -/
def lines : Nat → (current : List String) → Entries → List Char → Option Entries
  | 0, _, _, _ => none
  | limit + 1, current, entries, text =>
    match skipSpace text with
    | [] => some entries
    | '#' :: rest => do lines limit current entries (← lineEnd ('#' :: rest))
    | '\n' :: rest | '\r' :: '\n' :: rest => lines limit current entries rest
    | '[' :: '[' :: rest => do
      let ((path, name), rest) ← headerKey [']', ']'] rest
      let rest ← lineEnd rest
      lines limit (path ++ [name]) (← openItem path name entries) rest
    | '[' :: rest => do
      let ((path, name), rest) ← headerKey [']'] rest
      let rest ← lineEnd rest
      lines limit (path ++ [name]) (← openTable path name entries) rest
    | start => do
      let ((path, name), rest) ← key start
      let (_, rest) ← mark '=' rest
      let (json, rest) ← value (depthLimit - 1) rest.length (skipSpace rest)
      let rest ← lineEnd rest
      let entries ←
        changeAt false (fun _ inner => addValue path name json inner) false current entries
      lines limit current entries rest

/-- A document without the byte order mark in front of it. -/
def withoutMark : List Char → List Char
  | '\uFEFF' :: rest => rest
  | text => text

/-- The record that a document holds; `none` when it is not TOML. -/
def read? (text : String) : Option Json :=
  let chars := withoutMark text.toList
  (lines (chars.length + 1) [] [] chars).map fun entries => .obj (entriesJson entries)

end SetScaler.Toml
