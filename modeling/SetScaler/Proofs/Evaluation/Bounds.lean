import SetScaler.Proofs.Evaluation.Acts

/-!
# How a recorded count moves

Whatever an evaluation may record goes the way of its decision, and no further from the bounds of the spec
than the count was (`Aims.moves`).
-/

namespace SetScaler

/-- Whether a count is one that 32 bits can hold. -/
def Fits (count : Int) : Prop := countMin ≤ count ∧ count ≤ countMax

theorem fits_toInt (count : Int32) : Fits count.toInt := by
  have low := count.le_toInt
  have high := count.toInt_lt
  constructor
  · simp only [countMin]
    omega
  · simp only [countMax]
    omega

theorem fits_saturate (count : Int) : Fits (saturate count) := by
  simp only [Fits, saturate, countMin, countMax]
  omega

namespace BrokerSpec

variable {spec : BrokerSpec}

theorem ceiling_of_sound (sound : spec.defect? = none) {ceiling : Int32}
    (capped : spec.maxReplicas = some ceiling) : max spec.minReplicas.toInt 1 ≤ ceiling.toInt := by
  refine Int.not_lt.mp fun low => ?_
  have contradicts : (spec.maxReplicas.any fun ceiling => ceiling.toInt < max spec.minReplicas.toInt 1) =
      true := by
    rw [capped]
    exact decide_eq_true low
  rw [defect?, if_pos contradicts, capped] at sound
  cases sound

theorem bounded_within (sound : spec.defect? = none) (count : Int) :
    max spec.minReplicas.toInt 1 ≤ spec.bounded count ∧
      ∀ ceiling, spec.maxReplicas = some ceiling → spec.bounded count ≤ ceiling.toInt := by
  unfold bounded
  cases capped : spec.maxReplicas with
  | none =>
      refine ⟨?_, by simp⟩
      dsimp only
      omega
  | some ceiling =>
      have reachable := ceiling_of_sound sound capped
      dsimp only
      refine ⟨by omega, fun other same => ?_⟩
      cases same
      exact Int.min_le_right _ _

theorem bounded_fits {count : Int} (fits : Fits count) : Fits (spec.bounded count) := by
  obtain ⟨floorLow, floorHigh⟩ := fits_toInt spec.minReplicas
  unfold bounded Fits at *
  cases spec.maxReplicas with
  | none =>
      simp only [countMin, countMax] at *
      omega
  | some ceiling =>
      obtain ⟨low, high⟩ := fits_toInt ceiling
      simp only [countMin, countMax] at *
      omega

/-- A changed count is one within the bounds, the way of the decision. -/
theorem target_cases {current : Int} {decision : Decision} (changed : spec.target current decision ≠ current) :
    spec.target current decision = spec.bounded (saturate (current + decision.delta)) ∧
      (decision.direction = .up ∧ current < spec.target current decision ∨
        decision.direction = .down ∧ spec.target current decision < current) := by
  unfold target at changed ⊢
  cases way : decision.direction with
  | none => simp [way] at changed
  | up =>
      simp only [way] at changed ⊢
      exact ⟨by omega, .inl ⟨trivial, by omega⟩⟩
  | down =>
      simp only [way] at changed ⊢
      exact ⟨by omega, .inr ⟨trivial, by omega⟩⟩

end BrokerSpec

namespace BookieSpec

variable {spec : BookieSpec}

theorem limits_of_sound (sound : spec.defect? = none) :
    0 ≤ spec.minWritableBookies.toInt ∧ spec.minWritableBookies.toInt ≤ spec.scaleUpMaxLimit.toInt := by
  obtain ⟨floor, ceiling, -⟩ := defect?_eq_none_iff.mp sound
  exact ⟨floor, ceiling⟩

theorem clamp_within (sound : spec.defect? = none) (count : Int) :
    spec.minWritableBookies.toInt ≤ spec.clamp count ∧ spec.clamp count ≤ spec.scaleUpMaxLimit.toInt := by
  have limits := limits_of_sound sound
  unfold clamp
  omega

theorem target_up_cases {current : Int} {count : Nat}
    (changed : spec.target current (Decision.up count).delta ≠ current) :
    0 < count ∧ current < spec.target current (Decision.up count).delta ∧
      spec.target current (Decision.up count).delta =
        spec.clamp (saturate (current + (Decision.up count).delta)) := by
  have grows := Decision.delta_up_nonneg count
  rcases Nat.eq_zero_or_pos count with rfl | positive
  · simp [target, Decision.up, Decision.hold, Decision.delta] at changed
  · unfold target at changed ⊢
    dsimp only at changed ⊢
    split at changed
    · rename_i up
      simp only [if_pos up]
      omega
    · omega

/-- A count that comes down stops at the clamp, or is above it and comes down by as many as were removed. -/
theorem target_down_cases {current : Int} {removed : Nat} (fits : Fits current)
    (changed : spec.target current (-(removed : Int)) ≠ current) :
    spec.target current (-(removed : Int)) < current ∧
      current - spec.target current (-(removed : Int)) ≤ removed ∧
      (spec.target current (-(removed : Int)) = spec.clamp (saturate (current - removed)) ∨
        spec.clamp (saturate (current - removed)) ≤ spec.target current (-(removed : Int)) ∧
          spec.target current (-(removed : Int)) = saturate (current - removed)) := by
  have proposed : saturate (current + -(removed : Int)) = saturate (current - removed) := by
    rw [Int.sub_eq_add_neg]
  have near : current - removed ≤ saturate (current - removed) := by
    unfold Fits at fits
    unfold saturate
    simp only [countMin, countMax] at *
    omega
  unfold target at changed ⊢
  dsimp only at changed ⊢
  rw [proposed] at changed ⊢
  split at changed
  · omega
  · rename_i notUp
    split at changed
    · rename_i down
      simp only [if_neg notUp, if_pos down]
      omega
    · omega

end BookieSpec

namespace AutoscalerSpec

/-- The least count that the spec allows. -/
def lower : AutoscalerSpec → Int
  | broker spec => max spec.minReplicas.toInt 1
  | bookkeeper spec => spec.minWritableBookies.toInt

/-- The greatest count that the spec allows, if it sets one. -/
def upper? : AutoscalerSpec → Option Int
  | broker spec => spec.maxReplicas.map Int32.toInt
  | bookkeeper spec => some spec.scaleUpMaxLimit.toInt

variable (spec : AutoscalerSpec)

/-- Whether a count lies within the bounds. -/
def Within (count : Int) : Prop := spec.lower ≤ count ∧ ∀ upper, spec.upper? = some upper → count ≤ upper

/-- How far a count lies outside the bounds. -/
def distance (count : Int) : Int :=
  match spec.upper? with
  | none => max (spec.lower - count) 0
  | some upper => max (max (spec.lower - count) (count - upper)) 0

/-- Which way an evaluation is to scale by what it has found. -/
def direction : (spec : AutoscalerSpec) → spec.Nodes → Direction
  | broker spec, nodes => (spec.decide nodes).direction
  | bookkeeper spec, nodes => ((spec.planFor nodes).decide true).direction

/-- How a recorded count moves. -/
structure Moves (direction : Direction) (current target : Int) : Prop where
  way : direction = .up ∧ current < target ∨ direction = .down ∧ target < current
  least : spec.lower ≤ target
  nearer : spec.distance target ≤ spec.distance current
  kept : spec.Within current → spec.Within target
  fits : Fits target

variable {spec : AutoscalerSpec}

theorem distance_of_within {count : Int} (within : spec.Within count) : spec.distance count = 0 := by
  obtain ⟨low, high⟩ := within
  unfold distance
  cases capped : spec.upper? with
  | none =>
      dsimp only
      omega
  | some upper =>
      have under := high upper capped
      dsimp only
      omega

theorem distance_nonneg (count : Int) : 0 ≤ spec.distance count := by
  unfold distance
  split
  · omega
  · omega

theorem Moves.of_within {direction : Direction} {current target : Int}
    (way : direction = .up ∧ current < target ∨ direction = .down ∧ target < current)
    (within : spec.Within target) (fits : Fits target) : spec.Moves direction current target where
  way := way
  least := within.1
  nearer := by
    rw [distance_of_within within]
    exact distance_nonneg current
  kept := fun _ => within
  fits := fits

theorem broker_moves {spec : BrokerSpec} (sound : spec.defect? = none) {current : Int}
    {nodes : List BrokerNode} {target : Int} (aims : (broker spec).Aims current nodes target) :
    (broker spec).Moves ((broker spec).direction nodes) current target := by
  obtain ⟨changed, rfl⟩ := aims
  obtain ⟨bounded, way⟩ := BrokerSpec.target_cases changed
  have within := BrokerSpec.bounded_within sound (saturate (current + (spec.decide nodes).delta))
  refine .of_within way ⟨?_, fun upper capped => ?_⟩ ?_
  · rw [bounded]
    exact within.1
  · obtain ⟨ceiling, set, rfl⟩ := Option.map_eq_some_iff.mp capped
    rw [bounded]
    exact within.2 ceiling set
  · rw [bounded]
    exact BrokerSpec.bounded_fits (fits_saturate _)

theorem bookkeeper_moves {spec : BookieSpec} (sound : spec.defect? = none) {current : Int}
    (fits : Fits current) {nodes : List BookieNode} {target : Int}
    (aims : (bookkeeper spec).Aims current nodes target) :
    (bookkeeper spec).Moves ((bookkeeper spec).direction nodes) current target := by
  obtain ⟨changed, aimed⟩ := aims
  have limits := BookieSpec.limits_of_sound sound
  obtain ⟨-, capFits⟩ := fits_toInt spec.scaleUpMaxLimit
  obtain ⟨floorFits, -⟩ := fits_toInt spec.minWritableBookies
  cases planned : spec.planFor nodes with
  | hold => simp [planned] at aimed
  | scaleUp count =>
      simp only [planned] at aimed
      subst aimed
      obtain ⟨positive, rises, clamped⟩ := BookieSpec.target_up_cases changed
      have within := BookieSpec.clamp_within sound (saturate (current + (Decision.up count).delta))
      rw [← clamped] at within
      refine .of_within (.inl ⟨?_, rises⟩) ⟨within.1, fun upper capped => ?_⟩ ⟨?_, ?_⟩
      · simp [direction, planned, BookiePlan.decide, Decision.up, Nat.pos_iff_ne_zero.mp positive]
      · cases capped
        exact within.2
      · omega
      · omega
  | scaleDownIfReplicated magnitude =>
      simp only [planned] at aimed
      obtain ⟨removed, rfl⟩ := aimed
      obtain ⟨falls, -, stops⟩ := BookieSpec.target_down_cases fits changed
      have within := BookieSpec.clamp_within sound (saturate (current - removed))
      have some_bookie := (BookieSpec.shrinking_of_planFor planned).1
      have way : (bookkeeper spec).direction nodes = .down := by
        simp [direction, planned, BookiePlan.decide, Decision.down, Nat.pos_iff_ne_zero.mp some_bookie]
      have least : spec.minWritableBookies.toInt ≤ spec.target current (-(removed : Int)) := by omega
      exact {
        way := .inr ⟨way, falls⟩
        least := least
        nearer := by
          simp only [distance, upper?, lower]
          omega
        kept := fun inside => ⟨least, fun upper capped => by
          have under := inside.2 upper capped
          omega⟩
        fits := ⟨by omega, by
          have high := fits.2
          omega⟩ }

/-- What an evaluation may record moves the count as its decision says. -/
theorem Aims.moves (sound : spec.defect? = none) {current target : Int} (fits : Fits current)
    {nodes : spec.Nodes} (aims : spec.Aims current nodes target) :
    spec.Moves (spec.direction nodes) current target := by
  cases spec with
  | broker spec => exact broker_moves sound aims
  | bookkeeper spec => exact bookkeeper_moves sound fits aims

end AutoscalerSpec
end SetScaler
