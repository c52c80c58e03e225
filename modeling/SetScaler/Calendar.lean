import SetScaler.Decimal.Numeral
import SetScaler.Text.Blank

/-!
Days of the calendar, and points in time as RFC 3339 writes them. Times are read leniently: blanks
may stand between the parts, parts may lack leading zeros, and a blank may stand for the `T`.
-/

namespace SetScaler

def daysIn (year month : Nat) : Nat :=
  if month = 2 then
    if year % 4 = 0 ∧ (year % 100 ≠ 0 ∨ year % 400 = 0) then 29 else 28
  else if month = 4 ∨ month = 6 ∨ month = 9 ∨ month = 11 then 30
  else 31

/-- The number of leap years before a year, counted from the year 0. -/
def leapsBefore (year : Nat) : Nat := (year + 3) / 4 - (year + 99) / 100 + (year + 399) / 400

/-- The days from the first of January of the year 0 to a date. -/
def dayNumber (year month day : Nat) : Nat :=
  365 * year + leapsBefore year +
    (List.range (month - 1)).foldl (fun days before => days + daysIn year (before + 1)) 0 +
    (day - 1)

/-- A point in time, in milliseconds since the start of 1970. -/
structure Timestamp where
  millis : Int
deriving DecidableEq, Repr, Inhabited

namespace Timestamp

/-- The day number of the first of January 1970. -/
def epochDay : Nat := 719528

/-- A number of at most so many digits, blanks in front of it passed over. -/
def numeral (width : Nat) (text : List Char) : Option (Nat × List Char) :=
  let start := text.dropWhile Text.isBlank
  let digits := (start.take width).takeWhile Char.isDigit
  if digits.isEmpty then none
  else some (Decimal.digitsValue digits, start.drop digits.length)

/-- One given character, blanks in front of it passed over. -/
def mark (c : Char) (text : List Char) : Option (List Char) :=
  match text.dropWhile Text.isBlank with
  | d :: rest => if c = d then some rest else none
  | [] => none

/-- A fraction of a second, if there is one, in whole milliseconds. -/
def fraction : List Char → Option (Nat × List Char)
  | '.' :: text =>
    let digits := text.takeWhile Char.isDigit
    if digits.isEmpty then none
    else some (Decimal.digitsValue ((digits ++ ['0', '0']).take 3), text.dropWhile Char.isDigit)
  | text => some (0, text)

def twoDigits : List Char → Option (Nat × List Char)
  | a :: b :: rest =>
    if a.isDigit && b.isDigit then some (Decimal.digitsValue [a, b], rest) else none
  | _ => none

/-- An offset from universal time, in minutes. -/
def offset (text : List Char) : Option (Int × List Char) :=
  match text.dropWhile Text.isBlank with
  | 'Z' :: rest | 'z' :: rest => some (0, rest)
  | sign :: rest => do
    let utc := (sign :: rest).take 3
    if utc.map Char.toUpper = ['U', 'T', 'C'] then some (0, rest.drop 2)
    else
      let negative ← if sign = '+' then some false
        else if sign = '-' ∨ sign = '−' then some true
        else none
      let (hours, rest) ← twoDigits rest
      let (minutes, rest) ← twoDigits (rest.dropWhile fun c => c = ':' || Text.isBlank c)
      if hours < 24 ∧ minutes < 60 then
        let total : Int := hours * 60 + minutes
        some (if negative then -total else total, rest)
      else none
  | [] => none

def ofText? (text : String) : Option Timestamp := do
  let (year, rest) ← numeral 4 text.toList
  let (month, rest) ← numeral 2 (← mark '-' rest)
  let (day, rest) ← numeral 2 (← mark '-' rest)
  let rest ← match rest with
    | 'T' :: rest | 't' :: rest | ' ' :: rest => some rest
    | _ => none
  let (hour, rest) ← numeral 2 rest
  let (minute, rest) ← numeral 2 (← mark ':' rest)
  let (second, rest) ← numeral 2 (← mark ':' rest)
  let (millis, rest) ← fraction rest
  let (offset, rest) ← offset rest
  if rest.all Text.isBlank ∧ 1 ≤ month ∧ month ≤ 12 ∧ 1 ≤ day ∧ day ≤ daysIn year month ∧
      hour < 24 ∧ minute < 60 ∧ second ≤ 60 then
    let days : Int := dayNumber year month day - epochDay
    return ⟨((days * 24 + hour) * 60 + minute - offset) * 60000 + second * 1000 + millis⟩
  else none

end Timestamp
end SetScaler
