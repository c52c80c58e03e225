import SetScaler.Decision
import SetScaler.Spec.Bookie

/-!
Scaling bookies by disk. The set must keep a number of writable bookies; one whose disks are all
full still counts as writable but will not for long. The set shrinks only when no writable bookie
has a disk above the low watermark, and then only if the cluster reports no under-replicated
ledgers.
-/

namespace SetScaler

structure Disk where
  maxBytes : UInt64
  usedBytes : UInt64
deriving DecidableEq, Repr, Inhabited

/-- The used fraction of a disk; a disk of size zero counts as full. -/
def Disk.ratio (disk : Disk) : Float :=
  if disk.maxBytes = 0 then 1.0
  else Float.ofNat disk.usedBytes.toNat / Float.ofNat disk.maxBytes.toNat

structure BookieNode where
  pod : String
  /-- The identity that the bookie registers under. -/
  bookieId : String
  writable : Bool
  disks : List Disk
deriving DecidableEq, Repr, Inhabited

namespace BookieNode

/-- A writable bookie whose every disk is at or above the high watermark. -/
def atRisk (node : BookieNode) (high : Float) : Bool :=
  node.writable && !node.disks.isEmpty && node.disks.all fun disk => disk.ratio >= high

def anyAbove (node : BookieNode) (threshold : Float) : Bool :=
  node.disks.any fun disk => disk.ratio > threshold

end BookieNode

structure BookieStats where
  writable : Nat
  /-- Writable bookies whose every disk is full. -/
  atRisk : Nat
  readOnly : Nat
deriving DecidableEq, Repr

def BookieStats.ofNodes (nodes : List BookieNode) (high : Float) : BookieStats where
  writable := nodes.countP fun node => node.writable
  atRisk := nodes.countP fun node => node.atRisk high
  readOnly := nodes.countP fun node => !node.writable

inductive BookiePlan where
  | scaleUp (count : Nat)
  /-- Remove so many bookies, provided that no ledger is under-replicated. -/
  | scaleDownIfReplicated (count : Nat)
  | hold
deriving DecidableEq, Repr

/-- The decision that a plan comes to, given whether replication is healthy. -/
def BookiePlan.decide : BookiePlan → Bool → Decision
  | scaleUp count, _ => .up count
  | scaleDownIfReplicated count, true => .down count
  | scaleDownIfReplicated _, false => .hold
  | hold, _ => .hold

namespace BookieSpec

def floor (spec : BookieSpec) : Nat := spec.minWritableBookies.toInt.toNat

/-- The bookies to add: those missing, and one more step when without the bookies at risk there
would still be too few. -/
def shortage (spec : BookieSpec) (stats : BookieStats) : Nat :=
  let missing := spec.floor - stats.writable
  if stats.atRisk > 0 ∧ (stats.writable - stats.atRisk) + missing < spec.floor then
    missing + (max spec.scaleUpBy.toInt 1).toNat
  else missing

def plan (spec : BookieSpec) (stats : BookieStats) (nodes : List BookieNode) : BookiePlan :=
  let shortage := spec.shortage stats
  if shortage > 0 then .scaleUp shortage
  else if stats.writable > spec.floor ∧
      (nodes.filter fun node => node.writable).all fun node =>
        !node.anyAbove spec.diskUsageToleranceLwm then
    .scaleDownIfReplicated (min (max spec.scaleDownBy.toInt 1).toNat (stats.writable - spec.floor))
  else .hold

def planFor (spec : BookieSpec) (nodes : List BookieNode) : BookiePlan :=
  spec.plan (.ofNodes nodes spec.diskUsageToleranceHwm) nodes

/-- A replica count cut at the ceiling, then raised to the number of bookies to keep. -/
def clamp (spec : BookieSpec) (count : Int) : Int :=
  max (min count spec.scaleUpMaxLimit.toInt) spec.minWritableBookies.toInt

/-- The replica count after a change. A change up never lowers it, and a change down never takes
away more than the change, which is the number of bookies that were cleared. -/
def target (spec : BookieSpec) (current delta : Int) : Int :=
  let proposed := saturate (current + delta)
  let clamped := spec.clamp proposed
  if 0 < delta then max clamped current
  else if delta < 0 then min (max clamped proposed) current
  else current

end BookieSpec
end SetScaler
