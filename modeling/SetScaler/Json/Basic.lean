/-!
JSON values as the scaler reads and writes them, and how a record is read off one.

A record may be given as an object of its members or as the array of its members in their order.
Members that the record does not know are passed over; a known member given twice is refused.
-/

namespace SetScaler

/-- A JSON value. Whole numbers and numbers with a fraction or an exponent are told apart, since a
count is never read from the latter. `unreadable` stands for a literal that is well formed but
denotes no value here: a number out of range, or a string with an unpaired surrogate. It may stand
wherever a value is passed over. -/
inductive Json where
  | null
  | bool (value : Bool)
  | int (value : Int)
  | float (value : Float)
  | str (value : String)
  | arr (items : List Json)
  | obj (members : List (String × Json))
  | unreadable
deriving Inhabited, Repr

namespace Json

/-- The value of a member; the last one counts when a key is given more than once. -/
def member? (key : String) : Json → Option Json
  | obj members => (members.reverse.find? fun member => member.1 == key).map (·.2)
  | _ => none

def items? : Json → Option (List Json)
  | arr items => some items
  | _ => none

def members? : Json → Option (List (String × Json))
  | obj members => some members
  | _ => none

def bool? : Json → Option Bool
  | bool value => some value
  | _ => none

def str? : Json → Option String
  | str value => some value
  | _ => none

/-- A number with a sign and a fraction; whole numbers are rounded to the nearest double. -/
def float? : Json → Option Float
  | int value => some (Float.ofInt value)
  | float value => some value
  | _ => none

/-- A whole number that is at least `low` and below `high`. -/
def within? (low high : Int) : Json → Option Int
  | int value => if low ≤ value ∧ value < high then some value else none
  | _ => none

/-- A whole number below `size`, which is the number of values of a word. -/
def unsigned? (size : Nat) (json : Json) : Option Nat := (json.within? 0 size).map Int.toNat

def int32? (json : Json) : Option Int32 :=
  (json.within? (-2147483648) 2147483648).map Int32.ofInt

def int64? (json : Json) : Option Int :=
  json.within? (-9223372036854775808) 9223372036854775808

def uint16? (json : Json) : Option UInt16 := (json.unsigned? UInt16.size).map UInt16.ofNat

def uint32? (json : Json) : Option UInt32 := (json.unsigned? UInt32.size).map UInt32.ofNat

def uint64? (json : Json) : Option UInt64 := (json.unsigned? UInt64.size).map UInt64.ofNat

def list? {α : Type} (read : Json → Option α) (json : Json) : Option (List α) :=
  json.items?.bind fun items => items.mapM read

/-- A value that may be absent, `null` standing for its absence. -/
def option? {α : Type} (read : Json → Option α) : Json → Option (Option α)
  | null => some none
  | json => (read json).map some

def ofOption {α : Type} (write : α → Json) : Option α → Json
  | none => null
  | some value => write value

end Json

/-- The members of a record that were given, by name. -/
abbrev Record := List (String × Json)

namespace Record

/-- Reads a record whose members are `names`, in their order. -/
def ofJson? (names : List String) : Json → Option Record
  | .obj members =>
    let known := members.filter fun member => names.contains member.1
    if (known.map (·.1)).Nodup then some known else none
  | .arr items => if items.length ≤ names.length then some (names.zip items) else none
  | _ => none

/-- A member that has to be given. -/
def required {α : Type} (record : Record) (name : String) (read : Json → Option α) : Option α :=
  (record.lookup name).bind read

/-- A member that takes a default when it is not given. -/
def optional {α : Type} (record : Record) (name : String) (default : α) (read : Json → Option α) :
    Option α :=
  match record.lookup name with
  | none => some default
  | some json => read json

end Record
end SetScaler
