import Mathlib.Data.List.Forall2
import SetScaler.Proofs.Bookie.Plan

/-!
# Fuller disks and larger sets

Where disks fill up while the same bookies stay writable, the shortage of the set does not become smaller
(`shortage_le`), and if the fuller set is to shrink, the emptier one is to shrink as far
(`Shrinks.of_fuller`). So a filling set never comes to lose more bookies, or to gain fewer
(`delta_monotone`).
-/

namespace SetScaler

section Pairs

variable {α β : Type} {related : α → β → Prop} {items : List α} {others : List β}
  (pairs : List.Forall₂ related items others)
include pairs

theorem exists_of_forall₂ {item : α} (listed : item ∈ items) : ∃ other ∈ others, related item other := by
  induction pairs with
  | nil => cases listed
  | @cons first other _ others here _ ih =>
      rcases List.mem_cons.mp listed with rfl | later
      · exact ⟨other, List.mem_cons_self, here⟩
      · obtain ⟨found, among, its⟩ := ih later
        exact ⟨found, .tail _ among, its⟩

theorem countP_le_of_forall₂ {p : α → Bool} {q : β → Bool}
    (carries : ∀ item other, related item other → p item = true → q other = true) :
    items.countP p ≤ others.countP q := by
  induction pairs with
  | nil => simp
  | @cons item other items others here _ ih =>
      have one := carries item other here
      rw [List.countP_cons, List.countP_cons]
      split
      · rename_i held
        rw [if_pos (one held)]
        omega
      · omega

end Pairs

namespace BookieSpec

variable {spec : BookieSpec} {nodes fuller : List BookieNode} {magnitude : Nat}

/-- A bookie whose disks are no emptier than another's, as far as the watermarks tell. -/
structure Fuller (spec : BookieSpec) (node fuller : BookieNode) : Prop where
  writable : fuller.writable = node.writable
  atRisk : node.atRisk spec.diskUsageToleranceHwm = true → fuller.atRisk spec.diskUsageToleranceHwm = true
  above : node.anyAbove spec.diskUsageToleranceLwm = true → fuller.anyAbove spec.diskUsageToleranceLwm = true

theorem shortage_mono {stats risky : BookieStats} (same : risky.writable = stats.writable)
    (more : stats.atRisk ≤ risky.atRisk) : spec.shortage stats ≤ spec.shortage risky := by
  unfold shortage
  dsimp only
  rw [same]
  split
  · split <;> omega
  · split <;> omega

section Fuller

variable (pairs : List.Forall₂ spec.Fuller nodes fuller)
include pairs

theorem writable_fuller :
    (fuller.countP fun node => node.writable) = nodes.countP fun node => node.writable := by
  apply Nat.le_antisymm
  · apply countP_le_of_forall₂ pairs.flip
    intro other node its writable
    rw [← its.writable]
    exact writable
  · apply countP_le_of_forall₂ pairs
    intro node other its writable
    rw [its.writable]
    exact writable

theorem shortage_le :
    spec.shortage (.ofNodes nodes spec.diskUsageToleranceHwm) ≤
      spec.shortage (.ofNodes fuller spec.diskUsageToleranceHwm) :=
  shortage_mono (writable_fuller pairs) (countP_le_of_forall₂ pairs fun _ _ its => its.atRisk)

theorem Shrinks.of_fuller
    (shrinks : spec.Shrinks fuller magnitude) : spec.Shrinks nodes magnitude where
  covered := by
    have less := shortage_le pairs
    have covered := shrinks.covered
    omega
  spare := by
    rw [← writable_fuller pairs]
    exact shrinks.spare
  below := by
    intro node listed writable
    obtain ⟨other, among, its⟩ := exists_of_forall₂ pairs listed
    have below := shrinks.below other among (its.writable.trans writable)
    cases above : node.anyAbove spec.diskUsageToleranceLwm with
    | false => rfl
    | true => exact (its.above above).symm.trans below
  step := by
    rw [← writable_fuller pairs]
    exact shrinks.step

end Fuller

/-- No set grows by more than its shortage. -/
theorem delta_le (spec : BookieSpec) (nodes : List BookieNode) (replicated : Bool) :
    ((spec.planFor nodes).decide replicated).delta ≤
      min (spec.shortage (.ofNodes nodes spec.diskUsageToleranceHwm) : Int) countMax := by
  cases planned : spec.planFor nodes with
  | scaleUp count =>
      obtain ⟨-, short⟩ := planFor_eq_scaleUp_iff.mp planned
      rw [short]
      exact Int.le_of_eq (Decision.delta_up count)
  | scaleDownIfReplicated count =>
      cases replicated with
      | true =>
          rw [BookiePlan.decide, Decision.delta_down]
          unfold countMax
          omega
      | false =>
          change (0 : Int) ≤ _
          unfold countMax
          omega
  | hold =>
      change (0 : Int) ≤ _
      unfold countMax
      omega

theorem shortage_of_hold (planned : spec.planFor nodes = .hold) :
    spec.shortage (.ofNodes nodes spec.diskUsageToleranceHwm) = 0 := by
  by_contra short
  have grows := planFor_eq_scaleUp_iff.mpr ⟨Nat.pos_of_ne_zero short, rfl⟩
  rw [planned] at grows
  cases grows

theorem delta_monotone (pairs : List.Forall₂ spec.Fuller nodes fuller) :
    (∀ replicated : Bool,
      ((spec.planFor nodes).decide replicated).delta ≤ ((spec.planFor fuller).decide replicated).delta) ∧
    ∀ nodes : List BookieNode,
      ((spec.planFor nodes).decide true).delta ≤ ((spec.planFor nodes).decide false).delta := by
  have less := shortage_le pairs
  constructor
  · intro replicated
    have most := delta_le spec nodes replicated
    cases planned : spec.planFor fuller with
    | scaleUp count =>
        obtain ⟨-, short⟩ := planFor_eq_scaleUp_iff.mp planned
        rw [BookiePlan.decide, Decision.delta_up]
        omega
    | scaleDownIfReplicated count =>
        have same := planFor_eq_scaleDown_iff.mpr ((planFor_eq_scaleDown_iff.mp planned).of_fuller pairs)
        exact Int.le_of_eq (by rw [same])
    | hold =>
        have covered := shortage_of_hold planned
        change _ ≤ (0 : Int)
        unfold countMax at most
        omega
  · intro nodes
    cases spec.planFor nodes with
    | scaleUp count => exact Int.le_refl _
    | scaleDownIfReplicated count =>
        rw [BookiePlan.decide, Decision.delta_down]
        change _ ≤ (0 : Int)
        unfold countMax
        omega
    | hold => exact Int.le_refl _

/-- A set of four with one to spare has to grow once the disks of two are full. -/
theorem delta_monotone_filling :
    let spec : BookieSpec := {}
    let node (used : UInt64) : BookieNode := ⟨"bk", "bk", true, [⟨10, used⟩]⟩
    let nodes := [node 1, node 2, node 3, node 4]
    let fuller := [node 2, node 2, node 10, node 10]
    List.Forall₂ spec.Fuller nodes fuller ∧
      ((spec.planFor nodes).decide true).delta = -1 ∧ ((spec.planFor fuller).decide true).delta = 1 ∧
      ∀ replicated : Bool,
        ((spec.planFor nodes).decide replicated).delta ≤ ((spec.planFor fuller).decide replicated).delta := by
  intro spec node nodes fuller
  have fills (used more : UInt64)
      (checked : (node used).atRisk spec.diskUsageToleranceHwm ≤ (node more).atRisk spec.diskUsageToleranceHwm ∧
        (node used).anyAbove spec.diskUsageToleranceLwm ≤ (node more).anyAbove spec.diskUsageToleranceLwm) :
      spec.Fuller (node used) (node more) :=
    ⟨rfl, checked.1, checked.2⟩
  have pairs : List.Forall₂ spec.Fuller nodes fuller :=
    .cons (fills 1 2 (by decide +kernel)) (.cons (fills 2 2 (by decide +kernel))
      (.cons (fills 3 10 (by decide +kernel)) (.cons (fills 4 10 (by decide +kernel)) .nil)))
  exact ⟨pairs, by decide +kernel, by decide +kernel, (delta_monotone pairs).1⟩

end BookieSpec
end SetScaler
