/-!
Reading a decimal numeral as the nearest double. A numeral is an optional sign and either one of
the words for infinity and not-a-number, in any case, or digits with an optional point among them
and an optional exponent.
-/

namespace SetScaler.Decimal

/-- A magnitude read from a text: `digits · 10 ^ exponent`. -/
structure Numeral where
  digits : Nat
  exponent : Int
deriving Repr, DecidableEq

def digitsValue (digits : List Char) : Nat :=
  digits.foldl (fun value c => value * 10 + (c.toNat - '0'.toNat)) 0

/-- The double nearest to a numeral. -/
def Numeral.nearest (n : Numeral) : Float :=
  if n.digits = 0 then 0.0
  else
    let places := (Nat.toDigits 10 n.digits).length
    -- so far out the answer does not depend on the digits, and the power of ten is never built
    if n.exponent + places > 400 then 1.0 / 0.0
    else if n.exponent + places < -400 then 0.0
    else Float.ofScientific n.digits (n.exponent < 0) n.exponent.natAbs

/-- A signed whole number: an optional sign and at least one digit. -/
def signedInt? : List Char → Option Int
  | '-' :: digits =>
    if digits ≠ [] ∧ digits.all Char.isDigit then some (-digitsValue digits) else none
  | '+' :: digits =>
    if digits ≠ [] ∧ digits.all Char.isDigit then some (digitsValue digits) else none
  | digits => if digits ≠ [] ∧ digits.all Char.isDigit then some (digitsValue digits) else none

/-- An unsigned numeral: digits on at least one side of an optional point, then an optional
exponent. -/
def Numeral.ofChars? (text : List Char) : Option Numeral :=
  let whole := text.takeWhile Char.isDigit
  let afterWhole := text.dropWhile Char.isDigit
  let (fraction, rest) := match afterWhole with
    | '.' :: tail => (tail.takeWhile Char.isDigit, tail.dropWhile Char.isDigit)
    | tail => ([], tail)
  if whole.isEmpty && fraction.isEmpty then none
  else
    let digits := digitsValue (whole ++ fraction)
    match rest with
    | [] => some ⟨digits, -(fraction.length : Int)⟩
    | e :: tail =>
      if e = 'e' ∨ e = 'E' then
        (signedInt? tail).map fun power => ⟨digits, power - fraction.length⟩
      else none

/-- The value of an unsigned numeral or of a word for infinity or not-a-number. -/
def magnitude? (text : List Char) : Option Float :=
  let word := text.map Char.toLower
  if word = "inf".toList ∨ word = "infinity".toList then some (1.0 / 0.0)
  else if word = "nan".toList then some (0.0 / 0.0)
  else (Numeral.ofChars? text).map Numeral.nearest

/-- The double a text stands for; `none` when it is no numeral. -/
def read? : List Char → Option Float
  | '-' :: rest => (magnitude? rest).map (- ·)
  | '+' :: rest => magnitude? rest
  | rest => magnitude? rest

end SetScaler.Decimal
