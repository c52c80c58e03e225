import Mathlib.Data.List.DropRight
import SetScaler.Proofs.Bookie.Plan
import SetScaler.Removal.Candidate

/-!
# The headroom of a downscale

A plan to remove bookies takes them from the end of the set, whether they are writable or not, and the
removal may stop after any number of them. Whatever part of them goes, enough writable bookies with room
on their disks stay (`headroom_of_planFor`), as no bookie lowers the number of the writable ones by more
than one (`countP_le_rdrop`).
-/

namespace SetScaler

theorem countP_le_rdrop {α : Type} (p : α → Bool) (entries : List α) (dropped : Nat) :
    entries.countP p ≤ (entries.rdrop dropped).countP p + dropped := by
  have split : entries.countP p = (entries.rdrop dropped).countP p + (entries.rtake dropped).countP p := by
    rw [← List.countP_append, List.rdrop, List.rtake, List.take_append_drop]
  have counted : (entries.rtake dropped).countP p ≤ (entries.rtake dropped).length := List.countP_le_length
  have taken : (entries.rtake dropped).length ≤ dropped := by
    rw [List.rtake, List.length_drop]
    omega
  omega

theorem Removal.candidates_last {nodes : List BookieNode} {count : Nat} (within : count ≤ nodes.length) :
    nodes.rdrop count ++ candidates nodes count = nodes ∧ (candidates nodes count).length = count := by
  constructor
  · exact List.take_append_drop _ nodes
  · rw [candidates, List.length_drop]
    omega

theorem BookieNode.anyAbove_of_mem {node : BookieNode} {threshold : Float} {disk : Disk}
    (its : disk ∈ node.disks) (above : threshold < disk.ratio) : node.anyAbove threshold = true :=
  List.any_eq_true.mpr ⟨disk, its, decide_eq_true above⟩

namespace BookieSpec

variable {spec : BookieSpec} {nodes : List BookieNode} {count : Nat}

theorem Shrinks.floor_le (shrinks : spec.Shrinks nodes count) {dropped : Nat} (part : dropped ≤ count) :
    spec.floor ≤ (nodes.rdrop dropped).countP fun node => node.writable := by
  have spare := shrinks.spare
  have step := shrinks.step
  have kept := countP_le_rdrop (fun node : BookieNode => node.writable) nodes dropped
  omega

theorem Shrinks.rdrop_below (shrinks : spec.Shrinks nodes count) (dropped : Nat) {node : BookieNode}
    (stays : node ∈ nodes.rdrop dropped) (writable : node.writable = true) :
    node.anyAbove spec.diskUsageToleranceLwm = false :=
  shrinks.below node (List.mem_of_mem_take stays) writable

theorem headroom_of_planFor (sound : spec.defect? = none)
    (planned : spec.planFor nodes = .scaleDownIfReplicated count) :
    1 ≤ count ∧ (count : Int) ≤ min spec.scaleDownBy.toInt nodes.length ∧
      (nodes.rdrop count ++ Removal.candidates nodes count = nodes ∧
        (Removal.candidates nodes count).length = count) ∧
      ∀ dropped ≤ count,
        spec.minWritableBookies.toInt ≤ ((nodes.rdrop dropped).filter fun node => node.writable).length ∧
        ∀ node ∈ nodes.rdrop dropped, node.writable = true →
          ∀ disk ∈ node.disks, ¬disk.ratio > spec.diskUsageToleranceLwm := by
  have shrinks := planFor_eq_scaleDown_iff.mp planned
  obtain ⟨positive, within⟩ := shrinking_of_planFor planned
  obtain ⟨-, -, -, -, least⟩ := defect?_eq_none_iff.mp sound
  have stepped : (count : Int) ≤ spec.scaleDownBy.toInt := by
    have step := shrinks.step
    omega
  refine ⟨positive, by omega, Removal.candidates_last (by omega), fun dropped part => ⟨?_, ?_⟩⟩
  · have enough := shrinks.floor_le part
    rw [← List.countP_eq_length_filter]
    unfold floor at enough
    omega
  · intro node stays writable disk its above
    have below := shrinks.rdrop_below dropped stays writable
    rw [BookieNode.anyAbove_of_mem its above] at below
    cases below

/-- Three bookies of which the last but one is read-only, where one has to stay writable. -/
theorem headroom_of_mixed :
    let spec : BookieSpec := { minWritableBookies := 1, scaleDownBy := 2 }
    let nodes : List BookieNode :=
      [⟨"bk-0", "bk-0", true, [⟨10, 1⟩]⟩, ⟨"bk-1", "bk-1", false, [⟨10, 9⟩]⟩,
       ⟨"bk-2", "bk-2", true, [⟨10, 2⟩, ⟨10, 3⟩]⟩]
    spec.planFor nodes = .scaleDownIfReplicated 1 ∧
      ∀ node ∈ nodes.rdrop 1, node.writable = true → ∀ disk ∈ node.disks,
        ¬disk.ratio > spec.diskUsageToleranceLwm := by
  intro spec nodes
  have sound : spec.defect? = none := by decide +kernel
  have planned : spec.planFor nodes = .scaleDownIfReplicated 1 := by decide +kernel
  obtain ⟨-, -, -, parts⟩ := headroom_of_planFor sound planned
  exact ⟨planned, (parts 1 (by omega)).2⟩

end BookieSpec
end SetScaler
