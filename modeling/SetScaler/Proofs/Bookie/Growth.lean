import SetScaler.Proofs.Bookie.Plan

/-!
# When a set grows, and for how long

A set is to grow just if too few of its writable bookies are not at risk (`scaleUp_iff`). Growing as it
is told to, it lacks one bookie less with every round, and after the first round no more than were at risk
in the beginning (`Grows.lack_le`). So it has grown enough after as many rounds as there are bookies at
risk (`growth_of_planFor`).
-/

namespace SetScaler.BookieSpec

variable {spec : BookieSpec} {nodes grown : List BookieNode} {count : Nat}

/-- The number of writable bookies that are not at risk. -/
def healthy (spec : BookieSpec) (nodes : List BookieNode) : Nat :=
  nodes.countP fun node => node.writable && !node.atRisk spec.diskUsageToleranceHwm

def risky (spec : BookieSpec) (nodes : List BookieNode) : Nat :=
  nodes.countP fun node => node.atRisk spec.diskUsageToleranceHwm

def lack (spec : BookieSpec) (nodes : List BookieNode) : Nat := spec.floor - spec.healthy nodes

theorem countP_writable (spec : BookieSpec) (nodes : List BookieNode) :
    (nodes.countP fun node => node.writable) = spec.healthy nodes + spec.risky nodes := by
  unfold healthy risky
  induction nodes with
  | nil => rfl
  | cons node rest ih =>
      rw [List.countP_cons, List.countP_cons, List.countP_cons, ih]
      cases risk : node.atRisk spec.diskUsageToleranceHwm with
      | true =>
          simp [BookieNode.writable_of_atRisk risk]
          omega
      | false =>
          cases node.writable <;> simp
          omega

theorem scaleUp_iff : (∃ count, spec.planFor nodes = .scaleUp count) ↔ 0 < spec.lack nodes := by
  have counted := countP_writable spec nodes
  have covered : spec.shortage (.ofNodes nodes spec.diskUsageToleranceHwm) = 0 ↔ spec.lack nodes = 0 := by
    rw [shortage_eq_zero_iff]
    change spec.floor ≤ (nodes.countP fun node => node.writable) ∧ (spec.risky nodes = 0 ∨ spec.floor ≤
      (nodes.countP fun node => node.writable) - spec.risky nodes) ↔ spec.floor - spec.healthy nodes = 0
    omega
  constructor
  · rintro ⟨count, planned⟩
    obtain ⟨positive, short⟩ := planFor_eq_scaleUp_iff.mp planned
    omega
  · intro short
    exact ⟨_, planFor_eq_scaleUp_iff.mpr ⟨by omega, rfl⟩⟩

/-- The bookies that are missing, and a step if those at risk leave too few. -/
theorem count_of_scaleUp (planned : spec.planFor nodes = .scaleUp count) :
    count = spec.floor - (nodes.countP fun node => node.writable) ∧ spec.risky nodes = 0 ∨
      count = spec.floor - (nodes.countP fun node => node.writable) + (max spec.scaleUpBy.toInt 1).toNat := by
  have counted := countP_writable spec nodes
  have lacking := scaleUp_iff.mp ⟨count, planned⟩
  obtain ⟨-, short⟩ := planFor_eq_scaleUp_iff.mp planned
  unfold shortage at short
  unfold lack at lacking
  change (if spec.risky nodes > 0 ∧ ((nodes.countP fun node => node.writable) - spec.risky nodes) +
    (spec.floor - (nodes.countP fun node => node.writable)) < spec.floor then _ else _) = count at short
  split at short
  · exact .inr short.symm
  · exact .inl ⟨short.symm, by omega⟩

/-- One round of growth: as many bookies are added as the plan calls for, all of them writable and none
at risk, and a set that needs none stays as it is. -/
inductive Grows (spec : BookieSpec) (nodes : List BookieNode) : List BookieNode → Prop where
  | add {added : List BookieNode} : spec.planFor nodes = .scaleUp added.length →
      (∀ node ∈ added, node.writable = true ∧ node.atRisk spec.diskUsageToleranceHwm = false) →
      Grows spec nodes (nodes ++ added)
  | stay : (∀ count, spec.planFor nodes ≠ .scaleUp count) → Grows spec nodes nodes

theorem Grows.lack_le (grows : spec.Grows nodes grown) :
    spec.lack grown ≤ min (spec.risky nodes) (spec.lack nodes) - 1 := by
  cases grows with
  | stay enough =>
      have covered : ¬0 < spec.lack nodes := fun short =>
        have ⟨count, planned⟩ := scaleUp_iff.mpr short
        enough count planned
      omega
  | @add added planned fresh =>
      have counted := countP_writable spec nodes
      have lacking := scaleUp_iff.mp ⟨_, planned⟩
      have gained : spec.healthy added = added.length := by
        apply List.countP_eq_length.mpr
        intro node one
        simp [fresh node one]
      have total : spec.healthy (nodes ++ added) = spec.healthy nodes + added.length := by
        rw [← gained]
        exact List.countP_append
      unfold lack at *
      rw [total]
      rcases count_of_scaleUp planned with ⟨filled, calm⟩ | stepped
      · omega
      · omega

/-- The bookies lacking after so many rounds. -/
theorem lack_after {sets : Nat → List BookieNode} (grows : ∀ round, spec.Grows (sets round) (sets (round + 1)))
    (round : Nat) : spec.lack (sets (round + 1)) ≤ spec.risky (sets 0) - (round + 1) := by
  induction round with
  | zero =>
      have first := (grows 0).lack_le
      omega
  | succ round ih =>
      have next := (grows (round + 1)).lack_le
      omega

theorem growth_of_planFor (sound : spec.defect? = none) (nodes : List BookieNode) :
    ((∃ count, spec.planFor nodes = .scaleUp count) ↔
      (spec.healthy nodes : Int) < spec.minWritableBookies.toInt) ∧
    (∀ count, spec.planFor nodes = .scaleUp count →
      let missing := spec.minWritableBookies.toInt - (nodes.countP fun node => node.writable)
      max 1 missing ≤ count ∧ count ≤ max 0 missing + spec.scaleUpBy.toInt) ∧
    ∀ sets : Nat → List BookieNode, sets 0 = nodes →
      (∀ round, spec.Grows (sets round) (sets (round + 1))) →
      ∀ round, max 1 (spec.risky nodes) ≤ round → ∀ count, spec.planFor (sets round) ≠ .scaleUp count := by
  obtain ⟨least, -, -, step, -⟩ := defect?_eq_none_iff.mp sound
  refine ⟨?_, ?_, ?_⟩
  · rw [scaleUp_iff]
    unfold lack floor
    omega
  · intro count planned missing
    have positive := (planFor_eq_scaleUp_iff.mp planned).1
    rcases count_of_scaleUp planned with ⟨filled, -⟩ | stepped
    · unfold floor at filled
      omega
    · unfold floor at stepped
      omega
  · rintro sets rfl grows round enough count planned
    have lacking := scaleUp_iff.mp ⟨count, planned⟩
    cases round with
    | zero => omega
    | succ round =>
        have after := lack_after grows round
        omega

/-- Three full bookies, of which three have to be left: two rounds are not enough, three are. -/
theorem growth_of_three :
    let spec : BookieSpec := {}
    let full : BookieNode := ⟨"bk-0", "bk-0", true, [⟨10, 10⟩]⟩
    let fresh : BookieNode := ⟨"bk-1", "bk-1", true, [⟨10, 0⟩]⟩
    let sets (round : Nat) := List.replicate 3 full ++ List.replicate (min round 3) fresh
    (∀ round, spec.Grows (sets round) (sets (round + 1))) ∧ spec.planFor (sets 2) = .scaleUp 1 ∧
      ∀ round, 3 ≤ round → ∀ count, spec.planFor (sets round) ≠ .scaleUp count := by
  intro spec full fresh sets
  have sound : spec.defect? = none := by decide +kernel
  have good : ∀ node ∈ [fresh], node.writable = true ∧ node.atRisk spec.diskUsageToleranceHwm = false := by
    decide +kernel
  have short : ∀ round < 3, spec.planFor (sets round) = .scaleUp 1 := by decide +kernel
  have enough : spec.planFor (sets 3) = .hold := by decide +kernel
  have grows (round : Nat) : spec.Grows (sets round) (sets (round + 1)) := by
    by_cases few : round < 3
    · have next : sets (round + 1) = sets round ++ [fresh] := by
        have more : min (round + 1) 3 = min round 3 + 1 := by omega
        simp only [sets, more, List.replicate_succ', List.append_assoc]
      rw [next]
      exact .add (short round few) good
    · have next : sets (round + 1) = sets round := by
        have same : min (round + 1) 3 = min round 3 := by omega
        simp only [sets, same]
      have last : sets round = sets 3 := by
        have all : min round 3 = min 3 3 := by omega
        simp only [sets, all]
      rw [next, last]
      exact .stay fun count planned => by simp [enough] at planned
  have three : spec.risky (sets 0) = 3 := by decide +kernel
  refine ⟨grows, short 2 (by decide), fun round late => ?_⟩
  apply (growth_of_planFor sound (sets 0)).2.2 sets rfl grows
  rw [three]
  exact late

end SetScaler.BookieSpec
