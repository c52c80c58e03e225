import SetScaler.Broker.Load
import SetScaler.Removal.Summary

/-!
The scaling arithmetic as it is carried out on words of 32 bits. Where the exact result of an operation is no
word of its type, the operation fails or goes on with the result wrapped around; which of the two is a
parameter. A number of items is not a word until it is cut to one.
-/

namespace SetScaler

/-- What becomes of an operation whose exact result does not fit its word. -/
inductive Overflow where
  | fails
  | wraps
deriving DecidableEq, Repr

/-- The bookies of a set, counted in words. -/
structure WordStats where
  writable : UInt32 := 0
  atRisk : UInt32 := 0
  readOnly : UInt32 := 0
deriving DecidableEq, Repr

def WordStats.toStats (stats : WordStats) : BookieStats :=
  ⟨stats.writable.toNat, stats.atRisk.toNat, stats.readOnly.toNat⟩

/-- What came of a removal, counted in words. -/
structure WordSummary where
  requested : UInt32
  removed : UInt32
  outcome : Removal.Outcome
deriving DecidableEq, Repr

/-- A sum that stops at the limits of its word. -/
def saturatingSum (a b : Int32) : Int32 := .ofInt (saturate (a.toInt + b.toInt))

namespace Overflow

/-- The wrapped result of an operation, given whether it is the exact one. -/
def keep {α : Type} (overflow : Overflow) (fits : Bool) (wrapped : α) : Option α :=
  if fits || overflow == wraps then some wrapped else none

variable (overflow : Overflow)

def add (a b : UInt32) : Option UInt32 := overflow.keep (a.toNat + b.toNat < UInt32.size) (a + b)

def sub (a b : UInt32) : Option UInt32 := overflow.keep (b ≤ a) (a - b)

def neg (a : Int32) : Option Int32 := overflow.keep (a != Int32.minValue) (-a)

/-- A signed word taken for an unsigned one. -/
def unsigned (a : Int32) : Option UInt32 := overflow.keep (0 ≤ a) a.toUInt32

/-- An unsigned word taken for a signed one. -/
def signed (a : UInt32) : Option Int32 := overflow.keep (a ≤ 2147483647) a.toInt32

/-- A number of items, cut to a word. -/
def cut (count : Nat) : Option UInt32 := overflow.keep (count < UInt32.size) (.ofNat count)

def countNode (high : Float) (stats : WordStats) (node : BookieNode) : Option WordStats :=
  if node.writable then do
    let writable ← overflow.add stats.writable 1
    let atRisk ← if node.atRisk high then overflow.add stats.atRisk 1 else some stats.atRisk
    return { stats with writable, atRisk }
  else do
    let readOnly ← overflow.add stats.readOnly 1
    return { stats with readOnly }

def count (nodes : List BookieNode) (high : Float) : Option WordStats :=
  nodes.foldlM (overflow.countNode high) {}

def missing (stats : WordStats) (floor : UInt32) : Option UInt32 :=
  if stats.writable < floor then overflow.sub floor stats.writable else some 0

def shortage (spec : BookieSpec) (stats : WordStats) (floor : UInt32) : Option UInt32 := do
  let missing ← overflow.missing stats floor
  if 0 < stats.atRisk then
    let healthy ← overflow.add (← overflow.sub stats.writable stats.atRisk) missing
    if healthy < floor then overflow.add missing (← overflow.unsigned (max spec.scaleUpBy 1))
    else return missing
  else return missing

def plan (spec : BookieSpec) (stats : WordStats) (nodes : List BookieNode) : Option BookiePlan := do
  let floor ← overflow.unsigned (max spec.minWritableBookies 0)
  let shortage ← overflow.shortage spec stats floor
  if 0 < shortage then return .scaleUp shortage.toNat
  else if floor < stats.writable ∧
      (nodes.filter fun node => node.writable).all fun node =>
        !node.anyAbove spec.diskUsageToleranceLwm then
    let step ← overflow.unsigned (max spec.scaleDownBy 1)
    return .scaleDownIfReplicated (min step (← overflow.sub stats.writable floor)).toNat
  else return .hold

/-- The signed change of a replica count; a magnitude that is no signed word is the greatest one. -/
def delta (direction : Direction) (magnitude : UInt32) : Option Int32 :=
  let step := if magnitude ≤ 2147483647 then magnitude.toInt32 else Int32.maxValue
  match direction with
  | .up => some step
  | .down => overflow.neg step
  | .none => some 0

def summary (attempts : List Removal.Attempt) (abandoned : Option Removal.Reason) :
    Option WordSummary := do
  let requested ← overflow.cut attempts.length
  let removed ← overflow.cut (attempts.countP Removal.Attempt.isRemoved)
  let outcome : Removal.Outcome :=
    if abandoned.isSome ∧ removed = 0 then .aborted (abandoned.getD .blocked)
    else if removed = requested ∧ 0 < requested then .complete
    else if 0 < removed then .partially
    else .aborted (abandoned.getD .blocked)
  return ⟨requested, removed, outcome⟩

/-- Minus the number of removed bookies, none after an abort. -/
def applied (summary : WordSummary) : Option Int32 :=
  match summary.outcome with
  | .aborted _ => some 0
  | .complete | .partially => do
    overflow.neg (← overflow.signed (min summary.removed summary.requested))

def brokerTarget (spec : BrokerSpec) (current : Int32) (direction : Direction) (magnitude : UInt32) :
    Option Int32 := do
  let change ← overflow.delta direction magnitude
  let raised := max (max (saturatingSum current change) 1) spec.minReplicas
  let bounded := match spec.maxReplicas with
    | some ceiling => min raised ceiling
    | none => raised
  return match direction with
    | .none => current
    | .up => max bounded current
    | .down => min bounded current

end Overflow

namespace BookieSpec

def clampWord (spec : BookieSpec) (count : Int32) : Int32 :=
  max (min count spec.scaleUpMaxLimit) spec.minWritableBookies

/-- The replica count after a change, all of it in words: nothing in it can overflow. -/
def targetWord (spec : BookieSpec) (current delta : Int32) : Int32 :=
  let proposed := saturatingSum current delta
  let clamped := spec.clampWord proposed
  if 0 < delta then max clamped current
  else if delta < 0 then min (max clamped proposed) current
  else current

end BookieSpec
end SetScaler
