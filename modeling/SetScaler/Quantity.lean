import SetScaler.Decimal.Numeral
import SetScaler.Text.Blank

/-!
CPU quantities: a decimal numeral and a unit, as in `2`, `250m` or `12345n`.
-/

namespace SetScaler

/-- The scale of a unit: thousandths, millionths, billionths or thousands of a core. -/
def cpuUnit? : Char → Option Float
  | 'n' => some 1e-9
  | 'u' => some 1e-6
  | 'm' => some 1e-3
  | 'k' => some 1e3
  | _ => none

/-- The cores that a quantity stands for; blanks around it are passed over. -/
def cpuQuantity? (text : String) : Option Float := do
  let chars := Text.trimChars text.toList
  let last ← chars.getLast?
  match cpuUnit? last with
  | some unit => (Decimal.read? chars.dropLast).map (· * unit)
  | none => (Decimal.read? chars).map (· * 1.0)

/-- The sum of those of the texts that are quantities; `none` when none is. -/
def cpuTotal (texts : List String) : Option Float :=
  (texts.filterMap cpuQuantity?).foldl (fun total cores => some (total.getD 0.0 + cores)) none

end SetScaler
