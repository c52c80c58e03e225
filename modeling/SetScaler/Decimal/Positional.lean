import SetScaler.Decimal.Shortest

/-!
How a double is written in a message: positionally, whatever its size, with the fewest digits that
read back and no point after a whole number.
-/

namespace SetScaler.Decimal

/-- The digits of a number, padded with zeros on the left to a given count. -/
def padded (count value : Nat) : List Char :=
  let digits := Nat.toDigits 10 value
  List.replicate (count - digits.length) '0' ++ digits

/-- Digits laid out around their point, without an exponent. -/
def Digits.layout (d : Digits) : List Char :=
  let digits := padded d.count d.value
  if d.point ≤ 0 then '0' :: '.' :: List.replicate (-d.point).toNat '0' ++ digits
  else
    let whole := d.point.toNat
    if whole < d.count then digits.take whole ++ '.' :: digits.drop whole
    else digits ++ List.replicate (whole - d.count) '0'

/-- The text of a double in a message: `0.25`, `1`, `-0`, `1000000000000000000000`, `inf`, `NaN`. -/
def text (value : Float) : String :=
  let bits := value.toBits.toNat
  let sign := if bits / fractions / scales = 1 then "-" else ""
  match Binary.ofBits? bits with
  | none => if bits % fractions = 0 then sign ++ "inf" else "NaN"
  | some binary =>
    if binary.mantissa = 0 then sign ++ "0" else sign ++ String.ofList binary.shortest.layout

end SetScaler.Decimal
