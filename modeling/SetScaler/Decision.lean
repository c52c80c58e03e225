/-!
Scaling decisions, and replica counts at the limits of their 32-bit range.
-/

namespace SetScaler

def countMin : Int := -2147483648

def countMax : Int := 2147483647

/-- A count brought into range: beyond a limit it is the limit. -/
def saturate (count : Int) : Int := max countMin (min count countMax)

inductive Direction where
  | up
  | down
  | none
deriving DecidableEq, Repr, Inhabited

structure Decision where
  direction : Direction
  magnitude : Nat
deriving DecidableEq, Repr, Inhabited

namespace Decision

def hold : Decision := ⟨.none, 0⟩

/-- Adds replicas; adding none is no decision. -/
def up (magnitude : Nat) : Decision := if magnitude = 0 then hold else ⟨.up, magnitude⟩

/-- Removes replicas; removing none is no decision. -/
def down (magnitude : Nat) : Decision := if magnitude = 0 then hold else ⟨.down, magnitude⟩

/-- The signed change of the replica count, within the range of counts. -/
def delta (decision : Decision) : Int :=
  let step : Int := min decision.magnitude countMax.toNat
  match decision.direction with
  | .up => step
  | .down => -step
  | .none => 0

theorem delta_up (magnitude : Nat) : (up magnitude).delta = min (magnitude : Int) countMax := by
  cases magnitude with
  | zero => rfl
  | succ magnitude => simp [up, delta, countMax]

theorem delta_down (magnitude : Nat) : (down magnitude).delta = -min (magnitude : Int) countMax := by
  cases magnitude with
  | zero => rfl
  | succ magnitude => simp [down, delta, countMax]

theorem delta_up_nonneg (magnitude : Nat) : 0 ≤ (up magnitude).delta := by
  rw [delta_up]
  unfold countMax
  omega

end Decision
end SetScaler
