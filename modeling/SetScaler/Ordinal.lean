import SetScaler.Decimal.Numeral
import SetScaler.Text.Search

/-!
Members of a stateful set are named `<set>-<ordinal>`. This module reads the ordinal off a name and
puts names in the order of their sets and ordinals, where plain text order would put `bk-10` before
`bk-9`.
-/

namespace SetScaler

/-- The digits of an ordinal, after an optional plus sign; they fit a 32-bit word. -/
def ordinalValue? (text : List Char) : Option Nat :=
  let digits := match text with
    | '+' :: rest => rest
    | rest => rest
  if digits.isEmpty || !digits.all Char.isDigit then none
  else
    let value := Decimal.digitsValue digits
    if value < UInt32.size then some value else none

/-- The ordinal in the name of a pod or of a volume claim: the number after the last dash. -/
def ordinal? (name : String) : Option Nat :=
  (Text.splitLast '-' name.toList).bind fun parts => ordinalValue? parts.2

namespace MemberName

/-- What a member's name is ordered by: the part before the last dash, then the ordinal, then the
name itself. A missing part comes before any that is there. Texts are ordered by code points, which
is also the order of their UTF-8 bytes. -/
structure Key where
  stem : Option String
  ordinal : Option Nat
  name : String
deriving DecidableEq

def Key.ofName (name : String) : Key :=
  ⟨(Text.splitLast '-' name.toList).map fun parts => String.ofList parts.1, ordinal? name, name⟩

def compareOptions {α : Type} (compare : α → α → Ordering) : Option α → Option α → Ordering
  | none, none => .eq
  | none, some _ => .lt
  | some _, none => .gt
  | some a, some b => compare a b

def Key.compare (a b : Key) : Ordering :=
  ((compareOptions Ord.compare a.stem b.stem).then
    (compareOptions Ord.compare a.ordinal b.ordinal)).then (Ord.compare a.name b.name)

def compare (a b : String) : Ordering := (Key.ofName a).compare (Key.ofName b)

end MemberName

/-- Sorts by the names of members; items whose names are equal keep their order. -/
def sortByOrdinal {α : Type} (name : α → String) (items : List α) : List α :=
  items.mergeSort fun a b => (MemberName.compare (name a) (name b)).isLE

end SetScaler
