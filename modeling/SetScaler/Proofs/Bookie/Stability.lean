import SetScaler.Proofs.Bookie.Headroom
import SetScaler.Proofs.Double

/-!
# One plan does not undo another

A bookie that is at risk has a disk above the low watermark, unless the two watermarks are one number and
every disk of the bookie is exactly on it (`above_of_atRisk`). Apart from such bookies, a set that was
shrunk as planned does not call for more, and one that was grown as planned does not call for fewer
(`steady_of_planFor`). With such a bookie both can happen (`unsteady_on_brink`).
-/

namespace SetScaler

namespace BookieSpec

variable {spec : BookieSpec} {nodes : List BookieNode} {count : Nat}

/-- A writable bookie with all its disks exactly on both watermarks. -/
def OnBrink (spec : BookieSpec) (node : BookieNode) : Prop :=
  (spec.diskUsageToleranceLwm == spec.diskUsageToleranceHwm) = true ∧ node.writable = true ∧
    node.disks ≠ [] ∧ ∀ disk ∈ node.disks, (disk.ratio == spec.diskUsageToleranceHwm) = true

section Watermarks

variable (sound : spec.defect? = none) (high : spec.diskUsageToleranceHwm.isNaN = false)
  (low : spec.diskUsageToleranceLwm.isNaN = false)
include sound high low

theorem rank_low_le : Double.rank spec.diskUsageToleranceLwm ≤ Double.rank spec.diskUsageToleranceHwm := by
  obtain ⟨-, -, level, -⟩ := defect?_eq_none_iff.mp sound
  exact not_lt.mp fun inverted => level ((Double.lt_iff high low).mpr inverted)

theorem above_of_atRisk {node : BookieNode} (clear : ¬spec.OnBrink node)
    (risky : node.atRisk spec.diskUsageToleranceHwm = true) :
    node.anyAbove spec.diskUsageToleranceLwm = true := by
  simp only [BookieNode.atRisk, Bool.and_eq_true, Bool.not_eq_true', List.isEmpty_eq_false_iff,
    List.all_eq_true, decide_eq_true_eq] at risky
  obtain ⟨⟨writable, disks⟩, full⟩ := risky
  have order := rank_low_le sound high low
  by_contra calm
  have level : ∀ disk ∈ node.disks,
      disk.ratio.isNaN = false ∧ Double.rank disk.ratio = Double.rank spec.diskUsageToleranceLwm ∧
        Double.rank disk.ratio = Double.rank spec.diskUsageToleranceHwm := by
    intro disk its
    have number := (Double.numbers_of_le (full disk its)).2
    have above := (Double.le_iff high number).mp (full disk its)
    have below : Double.rank disk.ratio ≤ Double.rank spec.diskUsageToleranceLwm :=
      not_lt.mp fun beyond =>
        calm (BookieNode.anyAbove_of_mem its ((Double.lt_iff low number).mpr beyond))
    exact ⟨number, le_antisymm below (order.trans above), le_antisymm (below.trans order) above⟩
  obtain ⟨disk, its⟩ := List.exists_mem_of_ne_nil _ disks
  obtain ⟨-, onLow, onHigh⟩ := level disk its
  refine clear ⟨(Double.beq_iff low high).mpr (onLow.symm.trans onHigh), writable, disks, ?_⟩
  intro disk its
  obtain ⟨number, -, onHigh⟩ := level disk its
  exact (Double.beq_iff number high).mpr onHigh

/-- No bookie of a set that is to shrink is at risk. -/
theorem Shrinks.none_atRisk (shrinks : spec.Shrinks nodes count) {part : List BookieNode}
    (among : ∀ node ∈ part, node ∈ nodes) (clear : ∀ node ∈ part, ¬spec.OnBrink node) :
    (part.countP fun node => node.atRisk spec.diskUsageToleranceHwm) = 0 := by
  refine List.countP_eq_zero.mpr fun node one risky => ?_
  have writable := BookieNode.writable_of_atRisk risky
  have above := above_of_atRisk sound high low (clear node one) risky
  rw [shrinks.below node (among node one) writable] at above
  cases above

theorem not_scaleUp_of_shrinks (clear : ∀ node ∈ nodes, ¬spec.OnBrink node)
    (shrinks : spec.Shrinks nodes count) {dropped : Nat} (part : dropped ≤ count) (more : Nat) :
    spec.planFor (nodes.rdrop dropped) ≠ .scaleUp more := by
  intro planned
  obtain ⟨positive, short⟩ := planFor_eq_scaleUp_iff.mp planned
  have stay : ∀ node ∈ nodes.rdrop dropped, node ∈ nodes := fun node => List.mem_of_mem_take
  have calm := shrinks.none_atRisk sound high low stay fun node one => clear node (stay node one)
  have covered : spec.shortage (.ofNodes (nodes.rdrop dropped) spec.diskUsageToleranceHwm) = 0 :=
    shortage_eq_zero_iff.mpr ⟨shrinks.floor_le part, .inl calm⟩
  omega

theorem not_scaleDown_of_grown (clear : ∀ node ∈ nodes, ¬spec.OnBrink node)
    (planned : spec.planFor nodes = .scaleUp count) {added : List BookieNode}
    (size : added.length = count) (writable : ∀ node ∈ added, node.writable = true) (fewer : Nat) :
    spec.planFor (nodes ++ added) ≠ .scaleDownIfReplicated fewer := by
  intro shrunk
  have shrinks := planFor_eq_scaleDown_iff.mp shrunk
  obtain ⟨positive, short⟩ := planFor_eq_scaleUp_iff.mp planned
  have calm := shrinks.none_atRisk sound high low (fun node => List.mem_append_left added) clear
  -- nobody was at risk before, so the set was grown up to its floor and no further
  have filled : spec.floor = (nodes.countP fun node => node.writable) + count := by
    unfold shortage at short
    simp only [BookieStats.ofNodes, calm] at short
    rw [if_neg (by omega)] at short
    omega
  have all : (added.countP fun node => node.writable) = count := by
    rw [← size]
    exact List.countP_eq_length.mpr writable
  have spare := shrinks.spare
  rw [List.countP_append] at spare
  omega

end Watermarks

theorem steady_of_planFor (sound : spec.defect? = none) (high : spec.diskUsageToleranceHwm.isNaN = false)
    (low : spec.diskUsageToleranceLwm.isNaN = false) (clear : ∀ node ∈ nodes, ¬spec.OnBrink node) :
    (spec.planFor nodes = .scaleDownIfReplicated count →
      ∀ dropped ≤ count, ∀ more, spec.planFor (nodes.rdrop dropped) ≠ .scaleUp more) ∧
    (spec.planFor nodes = .scaleUp count →
      ∀ added : List BookieNode, added.length = count → (∀ node ∈ added, node.writable = true) →
        ∀ fewer, spec.planFor (nodes ++ added) ≠ .scaleDownIfReplicated fewer) :=
  ⟨fun planned _ part => not_scaleUp_of_shrinks sound high low clear (planFor_eq_scaleDown_iff.mp planned) part,
    fun planned _ size => not_scaleDown_of_grown sound high low clear planned size⟩

/-- A set of three with room on its disks is shrunk by one, a set of two with a full one is grown by one. -/
theorem steady_of_four :
    let spec : BookieSpec := { minWritableBookies := 2 }
    let nodes : List BookieNode :=
      [⟨"bk-0", "bk-0", true, [⟨10, 1⟩]⟩, ⟨"bk-1", "bk-1", true, [⟨10, 7⟩]⟩, ⟨"bk-2", "bk-2", true, [⟨10, 2⟩]⟩]
    let full : List BookieNode := [⟨"bk-0", "bk-0", true, [⟨10, 1⟩]⟩, ⟨"bk-1", "bk-1", true, [⟨10, 10⟩]⟩]
    spec.planFor nodes = .scaleDownIfReplicated 1 ∧ spec.planFor full = .scaleUp 1 ∧
      (∀ more, spec.planFor (nodes.rdrop 1) ≠ .scaleUp more) ∧
      ∀ fewer, spec.planFor (full ++ [⟨"bk-2", "bk-2", true, [⟨10, 0⟩]⟩]) ≠ .scaleDownIfReplicated fewer := by
  intro spec nodes full
  have sound : spec.defect? = none := by decide +kernel
  have apart : ∀ node, ¬spec.OnBrink node := fun node brink =>
    absurd brink.1 (by decide +kernel : ¬(spec.diskUsageToleranceLwm == spec.diskUsageToleranceHwm) = true)
  have shrunk : spec.planFor nodes = .scaleDownIfReplicated 1 := by decide +kernel
  have grown : spec.planFor full = .scaleUp 1 := by decide +kernel
  have high : spec.diskUsageToleranceHwm.isNaN = false := by decide +kernel
  have low : spec.diskUsageToleranceLwm.isNaN = false := by decide +kernel
  refine ⟨shrunk, grown, ?_, ?_⟩
  · exact (steady_of_planFor sound high low fun node _ => apart node).1 shrunk 1 (by omega)
  · refine (steady_of_planFor sound high low fun node _ => apart node).2 grown _ rfl ?_
    simp

/-- Where both watermarks are one half, a set of two bookies, of which the first is half full, is shrunk to
the first, which is grown to two again. -/
theorem unsteady_on_brink :
    let spec : BookieSpec :=
      { diskUsageToleranceHwm := 0.5, diskUsageToleranceLwm := 0.5, minWritableBookies := 1 }
    let half : BookieNode := ⟨"bk-0", "bk-0", true, [⟨10, 5⟩]⟩
    let other : BookieNode := ⟨"bk-1", "bk-1", true, [⟨10, 1⟩]⟩
    spec.defect? = none ∧ other.atRisk spec.diskUsageToleranceHwm = false ∧
      other.anyAbove spec.diskUsageToleranceLwm = false ∧
      spec.planFor [half, other] = .scaleDownIfReplicated 1 ∧
      spec.planFor ([half, other].rdrop 1) = .scaleUp 1 ∧
      spec.planFor ([half] ++ [other]) = .scaleDownIfReplicated 1 := by
  decide +kernel

end BookieSpec
end SetScaler
