import SetScaler.Decimal.Numeral
import SetScaler.Json.Basic

/-!
Number literals. A whole number that fits a 64-bit word is exact. Any other literal is read as a
double in two roundings: the leading digits that fit 64 bits become a double, which is then scaled
by a power of ten. A literal beyond the doubles has no value.
-/

namespace SetScaler.Json

/-- A number literal cut into its parts; `fraction` and `power` are present when their marks are. -/
structure Literal where
  negative : Bool
  whole : List Char
  fraction : Option (List Char)
  power : Option Int

/-- Appends digits to a significand while it fits a 64-bit word, and counts the others. -/
def absorb (significand : Nat) : List Char → Nat × Nat
  | [] => (significand, 0)
  | c :: rest =>
    let next := significand * 10 + (c.toNat - '0'.toNat)
    -- once one digit does not fit, no later one is taken
    if next < UInt64.size then absorb next rest else (significand, rest.length + 1)

/-- Scales a double by a power of ten, in steps that each stay within the table of exact or nearest
powers. `none` when the result overflows. -/
def scaleFrom : Nat → Float → Int → Option Float
  | 0, value, _ => some value
  | steps + 1, value, power =>
    if power.natAbs ≤ 308 then
      let factor := Float.ofScientific 1 false power.natAbs
      if 0 ≤ power then
        let scaled := value * factor
        if scaled.isInf then none else some scaled
      else some (value / factor)
    else if value == 0.0 then some value
    else if 0 ≤ power then none
    else scaleFrom steps (value / Float.ofScientific 1 false 308) (power + 308)

/-- A power of ten this far below zero has taken any significand to zero. -/
def scaleSteps : Nat := 8

namespace Literal

/-- The double of a literal that is not a whole number in range. -/
def double (literal : Literal) : Option Float :=
  let (whole, dropped) := absorb 0 literal.whole
  let fraction := literal.fraction.getD []
  let (significand, left) := absorb whole fraction
  let power := literal.power.getD 0 + dropped - (fraction.length - left : Nat)
  let value := Float.ofNat significand
  let scaled := if significand = 0 then some value else scaleFrom scaleSteps value power
  scaled.map fun value => if literal.negative then -value else value

def toJson (literal : Literal) : Json :=
  let magnitude := Decimal.digitsValue literal.whole
  let exact := literal.fraction.isNone && literal.power.isNone &&
    (if literal.negative then 0 < magnitude && magnitude ≤ UInt64.size / 2
     else magnitude < UInt64.size)
  if exact then .int (if literal.negative then -magnitude else magnitude)
  else match literal.double with
    | some value => .float value
    | none => .unreadable

end Literal
end SetScaler.Json
