/-!
Reading bytes as UTF-8 text when not all of them are well formed: each longest run of bytes that
begins no character is shown as one replacement character.
-/

namespace SetScaler.Text

/-- The character shown in place of bytes that encode none. -/
def replacement : Char := '\uFFFD'

/-- What the first byte of a character says: the bytes that follow it, the bits it carries itself,
and the bounds of the byte after it, which shut out overlong forms and surrogates. -/
structure Lead where
  following : Nat
  bits : Nat
  low : Nat
  high : Nat

/-- The lead of a character that takes more than one byte; `none` for a byte that starts none. -/
def Lead.of? (byte : Nat) : Option Lead :=
  if 0xC2 ≤ byte ∧ byte ≤ 0xDF then some ⟨1, byte - 0xC0, 0x80, 0xBF⟩
  else if byte = 0xE0 then some ⟨2, 0, 0xA0, 0xBF⟩
  else if byte = 0xED then some ⟨2, 0x0D, 0x80, 0x9F⟩
  else if 0xE1 ≤ byte ∧ byte ≤ 0xEF then some ⟨2, byte - 0xE0, 0x80, 0xBF⟩
  else if byte = 0xF0 then some ⟨3, 0, 0x90, 0xBF⟩
  else if 0xF1 ≤ byte ∧ byte ≤ 0xF3 then some ⟨3, byte - 0xF0, 0x80, 0xBF⟩
  else if byte = 0xF4 then some ⟨3, 4, 0x80, 0x8F⟩
  else none

/-- A character begun but not finished: the bits so far, the bytes still due, and the bounds of the
next of them. -/
structure Pending where
  bits : Nat
  due : Nat
  low : Nat
  high : Nat

/-- Starts on a byte with no character pending: what it writes and what is pending after it. -/
def begin (byte : Nat) : List Char × Option Pending :=
  if byte < 0x80 then ([Char.ofNat byte], none)
  else match Lead.of? byte with
    | some lead => ([], some ⟨lead.bits, lead.following, lead.low, lead.high⟩)
    | none => ([replacement], none)

/-- Reads bytes one by one. -/
def decodeFrom : Option Pending → List UInt8 → List Char
  | none, [] => []
  | some _, [] => [replacement]
  | none, byte :: rest =>
    let step := begin byte.toNat
    step.1 ++ decodeFrom step.2 rest
  | some pending, byte :: rest =>
    let value := byte.toNat
    if pending.low ≤ value ∧ value ≤ pending.high then
      let bits := pending.bits * 64 + (value - 0x80)
      if pending.due = 1 then Char.ofNat bits :: decodeFrom none rest
      else decodeFrom (some ⟨bits, pending.due - 1, 0x80, 0xBF⟩) rest
    else
      -- the pending character ends as a replacement, and the byte is read afresh
      let step := begin value
      replacement :: step.1 ++ decodeFrom step.2 rest

/-- The text that bytes stand for, ill-formed ones replaced. -/
def decode (bytes : List UInt8) : String :=
  String.ofList (decodeFrom none bytes)

end SetScaler.Text
