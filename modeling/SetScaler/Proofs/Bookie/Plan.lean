import SetScaler.Bookie.Disk

/-!
# How far a plan goes

When a set is to grow or to shrink, and by how much (`planFor_eq_scaleUp_iff`,
`planFor_eq_scaleDown_iff`). A plan to remove bookies leaves the number that a set must keep, and so the
recorded count comes down by exactly as many as were removed (`target_removed`): neither limit of the set
gets in the way.
-/

namespace SetScaler

theorem BookieNode.writable_of_atRisk {node : BookieNode} {high : Float} (risky : node.atRisk high = true) :
    node.writable = true := by
  simp only [atRisk, Bool.and_eq_true] at risky
  exact risky.1.1

namespace BookieSpec

variable {spec : BookieSpec} {nodes : List BookieNode} {magnitude : Nat}

theorem defect?_eq_none_iff : spec.defect? = none ↔
    0 ≤ spec.minWritableBookies.toInt ∧ spec.minWritableBookies.toInt ≤ spec.scaleUpMaxLimit.toInt ∧
      ¬spec.diskUsageToleranceLwm > spec.diskUsageToleranceHwm ∧
      1 ≤ spec.scaleUpBy.toInt ∧ 1 ≤ spec.scaleDownBy.toInt := by
  unfold defect?
  split
  · simp only [reduceCtorEq, false_iff]
    omega
  · split
    · simp only [reduceCtorEq, false_iff]
      omega
    · split
      · rename_i inverted
        simp only [reduceCtorEq, false_iff]
        exact fun held => held.2.2.1 inverted
      · rename_i level
        split
        · simp only [reduceCtorEq, false_iff]
          omega
        · simp only [true_iff]
          exact ⟨by omega, by omega, level, by omega, by omega⟩

/-- What a plan to remove bookies rests on. -/
structure Shrinks (spec : BookieSpec) (nodes : List BookieNode) (magnitude : Nat) : Prop where
  covered : spec.shortage (.ofNodes nodes spec.diskUsageToleranceHwm) = 0
  spare : spec.floor < nodes.countP fun node => node.writable
  below : ∀ node ∈ nodes, node.writable = true → node.anyAbove spec.diskUsageToleranceLwm = false
  step : magnitude = min (max spec.scaleDownBy.toInt 1).toNat
    ((nodes.countP fun node => node.writable) - spec.floor)

theorem planFor_eq_scaleDown_iff :
    spec.planFor nodes = .scaleDownIfReplicated magnitude ↔ spec.Shrinks nodes magnitude := by
  unfold planFor plan
  dsimp only
  constructor
  · intro planned
    split at planned
    · cases planned
    · rename_i covered
      split at planned
      · rename_i enough
        obtain ⟨spare, below⟩ := enough
        refine ⟨by omega, spare, fun node among writable => ?_, ?_⟩
        · have kept := List.all_eq_true.mp below node (List.mem_filter.mpr ⟨among, writable⟩)
          simpa using kept
        · exact (BookiePlan.scaleDownIfReplicated.inj planned).symm
      · cases planned
  · rintro ⟨covered, spare, below, rfl⟩
    have all : ((nodes.filter fun node => node.writable).all fun node =>
        !node.anyAbove spec.diskUsageToleranceLwm) = true := by
      refine List.all_eq_true.mpr fun node among => ?_
      obtain ⟨listed, writable⟩ := List.mem_filter.mp among
      rw [below node listed writable]
      rfl
    rw [if_neg (by omega), if_pos ⟨spare, all⟩]
    rfl

theorem planFor_eq_scaleUp_iff :
    spec.planFor nodes = .scaleUp magnitude ↔
      0 < magnitude ∧ spec.shortage (.ofNodes nodes spec.diskUsageToleranceHwm) = magnitude := by
  unfold planFor plan
  dsimp only
  split
  · rename_i short
    rw [BookiePlan.scaleUp.injEq]
    constructor
    · rintro rfl
      exact ⟨short, rfl⟩
    · exact fun held => held.2
  · rename_i covered
    refine ⟨fun planned => ?_, fun held => absurd held.1 (by omega)⟩
    split at planned <;> cases planned

theorem shortage_eq_zero_iff {stats : BookieStats} :
    spec.shortage stats = 0 ↔
      spec.floor ≤ stats.writable ∧ (stats.atRisk = 0 ∨ spec.floor ≤ stats.writable - stats.atRisk) := by
  unfold shortage
  dsimp only
  split <;> omega

theorem shrinking_of_planFor (planned : spec.planFor nodes = .scaleDownIfReplicated magnitude) :
    0 < magnitude ∧ magnitude + spec.floor ≤ nodes.length := by
  obtain ⟨-, spare, -, step⟩ := planFor_eq_scaleDown_iff.mp planned
  have counted : nodes.countP (fun node => node.writable) ≤ nodes.length := List.countP_le_length
  omega

/-- A change up never lowers the count. -/
theorem le_target_up (spec : BookieSpec) (current : Int) (count : Nat) :
    current ≤ spec.target current (Decision.up count).delta := by
  have grows := Decision.delta_up_nonneg count
  unfold target
  dsimp only
  split
  · omega
  · split
    · omega
    · omega

/-- The count comes down by as many bookies as were removed, if enough of them stay. -/
theorem target_removed {current : Int} {removed : Nat} (some_removed : 0 < removed)
    (within : current ≤ countMax) (stay : (removed + spec.floor : Nat) ≤ current) :
    spec.target current (-(removed : Int)) = current - removed := by
  have kept : spec.minWritableBookies.toInt ≤ current - removed := by
    unfold floor at stay
    omega
  have proposed : saturate (current + -(removed : Int)) = current - removed := by
    unfold saturate countMin countMax at *
    omega
  unfold target clamp
  rw [proposed]
  dsimp only
  rw [if_neg (by omega), if_pos (by omega)]
  omega

end BookieSpec
end SetScaler
