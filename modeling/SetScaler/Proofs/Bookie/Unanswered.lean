import SetScaler.Proofs.Bookie.Plan
import SetScaler.Proofs.Bookie.Snapshot

/-!
# A plan after a failed query

A bookie that is not writable plays no part in a plan, so one of which a query failed counts as little as one
that is not listed (`planFor_unanswered`). With the bookie its disks go out of sight: of a set that is not to
shrink, a failed query makes one that is just if the bookie was writable, with the only disks that were above
the low watermark (`shrinks_by_failure`), and that does happen (`shrinks_by_silence`).
-/

namespace SetScaler

namespace BookieSpec

variable {spec : BookieSpec} {nodes : List BookieNode} {keep : BookieNode → Bool} {magnitude : Nat}

theorem planFor_writable (spec : BookieSpec) (nodes : List BookieNode) :
    spec.planFor (nodes.filter fun node => node.writable) = spec.planFor nodes := by
  have risky (node : BookieNode) :
      (node.atRisk spec.diskUsageToleranceHwm && node.writable) = node.atRisk spec.diskUsageToleranceHwm := by
    cases risky : node.atRisk spec.diskUsageToleranceHwm with
    | false => rfl
    | true => exact BookieNode.writable_of_atRisk risky
  have counted : (nodes.filter fun node => node.writable).countP (fun node => node.writable) =
      nodes.countP fun node => node.writable := by
    simp only [List.countP_filter, Bool.and_self]
  have weighed : (nodes.filter fun node => node.writable).countP
      (fun node => node.atRisk spec.diskUsageToleranceHwm) =
      nodes.countP fun node => node.atRisk spec.diskUsageToleranceHwm := by
    simp only [List.countP_filter, risky]
  have seen : ((nodes.filter fun node => node.writable).filter fun node => node.writable) =
      nodes.filter fun node => node.writable := by
    simp only [List.filter_filter, Bool.and_self]
  unfold planFor plan shortage BookieStats.ofNodes
  rw [counted, weighed, seen]

/-- If part of a set is to shrink, the whole set has no shortage. -/
theorem covered_of_part (shrinks : spec.Shrinks (nodes.filter keep) magnitude) :
    spec.shortage (.ofNodes nodes spec.diskUsageToleranceHwm) = 0 := by
  obtain ⟨covered, spare, -, -⟩ := shrinks
  obtain ⟨-, healthy⟩ := shortage_eq_zero_iff.mp covered
  -- those left out add as many writable bookies as they add bookies at risk, or more
  have less : ((nodes.filter fun node => !keep node).countP fun node => node.atRisk spec.diskUsageToleranceHwm) ≤
      (nodes.filter fun node => !keep node).countP fun node => node.writable :=
    List.countP_mono_left fun _ _ => BookieNode.writable_of_atRisk
  have writable := List.countP_eq_countP_filter_add nodes (fun node => node.writable) keep
  have risky := List.countP_eq_countP_filter_add nodes
    (fun node => node.atRisk spec.diskUsageToleranceHwm) keep
  refine shortage_eq_zero_iff.mpr ⟨?_, ?_⟩
  · simp only [BookieStats.ofNodes]
    omega
  · simp only [BookieStats.ofNodes] at healthy ⊢
    omega

/-- If part of a set is to shrink, the whole set is to be left as it is or to shrink as well; the latter just
if the low watermark holds for those left out too. -/
theorem planFor_of_part (shrinks : spec.Shrinks (nodes.filter keep) magnitude) :
    (spec.planFor nodes = .hold ↔ ∃ node ∈ nodes, keep node = false ∧ node.writable = true ∧
      node.anyAbove spec.diskUsageToleranceLwm = true) ∧
    (spec.planFor nodes ≠ .hold → ∃ count, spec.planFor nodes = .scaleDownIfReplicated count) := by
  have covered := covered_of_part shrinks
  have spare : spec.floor < nodes.countP fun node => node.writable :=
    Nat.lt_of_lt_of_le shrinks.spare List.filter_sublist.countP_le
  by_cases calm : ∀ node ∈ nodes, node.writable = true → node.anyAbove spec.diskUsageToleranceLwm = false
  · have planned := planFor_eq_scaleDown_iff.mpr ⟨covered, spare, calm, rfl⟩
    refine ⟨⟨fun held => ?_, fun above => ?_⟩, fun _ => ⟨_, planned⟩⟩
    · rw [planned] at held
      cases held
    · obtain ⟨node, listed, -, writable, above⟩ := above
      rw [calm node listed writable] at above
      cases above
  · have planned : spec.planFor nodes = .hold := by
      cases planned : spec.planFor nodes with
      | hold => rfl
      | scaleUp count =>
          obtain ⟨positive, short⟩ := planFor_eq_scaleUp_iff.mp planned
          omega
      | scaleDownIfReplicated count => exact absurd (planFor_eq_scaleDown_iff.mp planned).below calm
    refine ⟨⟨fun _ => ?_, fun _ => planned⟩, fun acts => absurd planned acts⟩
    simp only [Classical.not_forall, Bool.not_eq_false] at calm
    obtain ⟨node, listed, writable, above⟩ := calm
    refine ⟨node, listed, Bool.eq_false_iff.mpr fun kept => ?_, writable, above⟩
    rw [shrinks.below node (List.mem_filter.mpr ⟨listed, kept⟩) writable] at above
    cases above

section Survey

open Survey

variable {ns pod : String} {bookieId : String → String} {answer silent : BookieCommand → Output}

/-- The same answers with a query of one pod failed. -/
structure Silenced (ns pod : String) (answer silent : BookieCommand → Output) : Prop where
  others : ∀ command, command.pod ≠ pod → silent command = answer command
  failed : ∀ state space, ¬Answered ns silent pod state space

theorem Silenced.picture_same (silenced : Silenced ns pod answer silent) {other : String} (apart : other ≠ pod) :
    pictureOf ns bookieId silent other = pictureOf ns bookieId answer other := by
  unfold pictureOf
  rw [silenced.others ⟨ns, other, .state⟩ apart, silenced.others ⟨ns, other, .info⟩ apart]

theorem Silenced.writable_rest (silenced : Silenced ns pod answer silent) (names : List String) :
    ((names.map (pictureOf ns bookieId silent)).filter fun node => node.writable) =
      ((names.map (pictureOf ns bookieId answer)).filter fun node => node.pod != pod).filter
        fun node => node.writable := by
  induction names with
  | nil => rfl
  | cons name rest ih =>
      rw [List.map_cons, List.map_cons]
      by_cases same : name = pod
      · rw [same, List.filter_cons_of_neg, List.filter_cons_of_neg, ih]
        · simp [pictureOf_pod]
        · simp [pictureOf_unanswered silenced.failed]
      · have stays : ((pictureOf ns bookieId answer name).pod != pod) = true := by
          simpa [pictureOf_pod] using same
        rw [silenced.picture_same same, List.filter_cons_of_pos (p := fun node : BookieNode => node.pod != pod) stays,
          List.filter_cons, List.filter_cons, ih]

/-- A bookie of which a query failed counts as little as one that is not listed. -/
theorem planFor_unanswered (spec : BookieSpec) (silenced : Silenced ns pod answer silent) (names : List String) :
    spec.planFor (names.map (pictureOf ns bookieId silent)) =
      spec.planFor ((names.map (pictureOf ns bookieId answer)).filter fun node => node.pod != pod) := by
  rw [← planFor_writable, silenced.writable_rest names, planFor_writable]

end Survey

end BookieSpec

namespace Survey

variable {σ : Type} {backend : Backend σ} {key : SetKey} {pods : List Pod} {bookieId : String → String}
  {answer : BookieCommand → Output} {delay : BookieCommand → Nat} {cancellation : Cancellation} {time : Nat}
  {state listed : σ} {nodes : List BookieNode}

/-- A survey that was made shows each named pod as its answers do. -/
theorem pictures_of_surveyed (answering : backend.Answers delay answer)
    (replied : backend.reply (.pods key.ns key.selector) time state = (.ok pods, listed))
    (surveyed : ((bookieNodes key bookieId).run backend cancellation time state).result = .ok nodes) :
    nodes = (namesOf pods).map (pictureOf key.ns bookieId answer) := by
  by_cases interrupted : ∃ pod ∈ namesOf pods, Interrupted key.ns delay answer cancellation time pod
  · rw [bookieNodes_interrupted answering replied interrupted] at surveyed
    cases surveyed
  · rw [bookieNodes_answered answering replied fun pod among cut => interrupted ⟨pod, among, cut⟩] at surveyed
    exact (Except.ok.inj surveyed).symm

end Survey

namespace BookieSpec

open Survey

theorem shrinks_by_failure {σ τ : Type} {backend : Backend σ} {failing : Backend τ} {spec : BookieSpec}
    {key : SetKey} {bookieId : String → String} {pods : List Pod} {answer silent : BookieCommand → Output}
    {delay delay' : BookieCommand → Nat} {cancellation cancellation' : Cancellation} {time time' : Nat}
    {state listed : σ} {state' listed' : τ} {nodes left : List BookieNode} {pod : String}
    (answering : backend.Answers delay answer) (answering' : failing.Answers delay' silent)
    (replied : backend.reply (.pods key.ns key.selector) time state = (.ok pods, listed))
    (replied' : failing.reply (.pods key.ns key.selector) time' state' = (.ok pods, listed'))
    (surveyed : ((bookieNodes key bookieId).run backend cancellation time state).result = .ok nodes)
    (surveyed' : ((bookieNodes key bookieId).run failing cancellation' time' state').result = .ok left)
    (silenced : Silenced key.ns pod answer silent)
    (stays : ∀ count, spec.planFor nodes ≠ .scaleDownIfReplicated count) (magnitude : Nat) :
    spec.planFor left = .scaleDownIfReplicated magnitude ↔
      spec.planFor nodes = .hold ∧
        (∃ state space, pod ∈ pods.filterMap Pod.name ∧ Answered key.ns answer pod state space ∧
          state.writable = true ∧ space.disk.ratio > spec.diskUsageToleranceLwm) ∧
        spec.planFor (nodes.filter fun node => node.pod != pod) = .scaleDownIfReplicated magnitude := by
  obtain rfl := pictures_of_surveyed answering replied surveyed
  obtain rfl := pictures_of_surveyed answering' replied' surveyed'
  rw [planFor_unanswered spec silenced]
  refine ⟨fun planned => ?_, fun held => held.2.2⟩
  obtain ⟨held_iff, others⟩ := planFor_of_part (planFor_eq_scaleDown_iff.mp planned)
  have held : spec.planFor ((namesOf pods).map (pictureOf key.ns bookieId answer)) = .hold := by
    refine Classical.byContradiction fun acts => ?_
    obtain ⟨count, planned⟩ := others acts
    exact stays count planned
  obtain ⟨node, among, dropped, writable, above⟩ := held_iff.mp held
  obtain ⟨name, named, rfl⟩ := List.mem_map.mp among
  obtain rfl : name = pod := by simpa [pictureOf_pod] using dropped
  refine ⟨held, ?_, planned⟩
  by_cases found : ∃ state space, Answered key.ns answer name state space
  · obtain ⟨state, space, answered⟩ := found
    rw [pictureOf_answered answered] at writable above
    refine ⟨state, space, (sortByOrdinal_perm id _).mem_iff.mp named, answered, writable, ?_⟩
    simpa [BookieNode.anyAbove] using above
  · rw [pictureOf_unanswered fun state space answered => found ⟨state, space, answered⟩] at writable
    cases writable

def trioPods : List Pod := [{ name := some "bk-0" }, { name := some "bk-1" }, { name := some "bk-2" }]

/-- Three bookies that answer at once. -/
def trio (answer : BookieCommand → Output) : Backend Unit where
  reply request _ _ :=
    (match request with
      | .pods .. => .ok trioPods
      | .readyReplicas .. | .currentReplicas .. => .ok none
      | .cpuUsage .. | .volumes .. => .ok []
      | .deleteVolume .. | .patchReplicas .. => .ok (), ())
  output command _ _ := ((0, answer command), ())

/-- The first of the three has little room left. -/
def trioAnswer (command : BookieCommand) : Output :=
  if command.action = .state then .ok "\x7b\"running\":true\x7d"
  else if command.pod = "bk-0" then .ok "\x7b\"freeSpace\":20,\"totalSpace\":100\x7d"
  else .ok "\x7b\"freeSpace\":90,\"totalSpace\":100\x7d"

/-- The query for the disks of the first fails. -/
def trioSilent (command : BookieCommand) : Output :=
  if command = ⟨"ns", "bk-0", .info⟩ then .error (.exec "bk-0" "connection refused") else trioAnswer command

def trioKey : SetKey := ⟨"ns", "bk", .bookkeeper, "default"⟩

def trioSpec : BookieSpec where
  minWritableBookies := 1

theorem trioSilent_silenced : Silenced "ns" "bk-0" trioAnswer trioSilent where
  others command apart := by
    refine if_neg fun same => apart ?_
    rw [same]
  failed := by
    rintro state space ⟨-, second, -, measured, -⟩
    cases measured

theorem trio_answers (answer : BookieCommand → Output) : (trio answer).Answers (fun _ => 0) answer :=
  fun _ _ _ => rfl

theorem trio_lists (answer : BookieCommand → Output) :
    (trio answer).reply (.pods trioKey.ns trioKey.selector) 0 () = (.ok trioPods, ()) := rfl

theorem trio_surveyed {answer : BookieCommand → Output}
    (uncancelled : ∀ command, answer command ≠ .error .cancelled) :
    ((bookieNodes trioKey id).run (trio answer) none 0 ()).result =
      .ok (["bk-0", "bk-1", "bk-2"].map (pictureOf "ns" id answer)) := by
  have sorted : namesOf trioPods = ["bk-0", "bk-1", "bk-2"] :=
    List.mergeSort_of_pairwise (by decide +kernel)
  rw [← sorted]
  apply bookieNodes_answered (trio_answers answer) (trio_lists answer)
  rintro pod - (fired | cancelled | cancelled)
  · cases fired
  · exact uncancelled _ cancelled
  · exact uncancelled _ cancelled

theorem trioAnswer_ne (command : BookieCommand) : trioAnswer command ≠ .error .cancelled := by
  unfold trioAnswer
  split
  · nofun
  · split <;> nofun

theorem trioSilent_ne (command : BookieCommand) : trioSilent command ≠ .error .cancelled := by
  unfold trioSilent
  split
  · nofun
  · exact trioAnswer_ne command

theorem shrinks_by_failure_trio :
    let survey (answer : BookieCommand → Output) := ((bookieNodes trioKey id).run (trio answer) none 0 ()).result
    ∃ nodes left, survey trioAnswer = .ok nodes ∧ survey trioSilent = .ok left ∧
      (∀ count, trioSpec.planFor nodes ≠ .scaleDownIfReplicated count) ∧
      trioSpec.planFor left = .scaleDownIfReplicated 1 := by
  intro survey
  have surveyed := trio_surveyed trioAnswer_ne
  have surveyed' := trio_surveyed trioSilent_ne
  have held : trioSpec.planFor (["bk-0", "bk-1", "bk-2"].map (pictureOf "ns" id trioAnswer)) = .hold := by
    decide +kernel
  have stays : ∀ count, trioSpec.planFor (["bk-0", "bk-1", "bk-2"].map (pictureOf "ns" id trioAnswer)) ≠
      .scaleDownIfReplicated count := by
    rw [held]
    nofun
  have full : Answered "ns" trioAnswer "bk-0" ⟨true, false, false⟩ ⟨20, 100⟩ :=
    ⟨_, _, rfl, rfl, by decide +kernel, by decide +kernel⟩
  refine ⟨_, _, surveyed, surveyed', stays, ?_⟩
  refine (shrinks_by_failure (trio_answers _) (trio_answers _) (trio_lists _) (trio_lists _) surveyed surveyed'
    trioSilent_silenced stays 1).mpr ⟨held, ?_, by decide +kernel⟩
  exact ⟨_, _, by decide +kernel, full, rfl, by decide +kernel⟩

/-- A set that is left alone, since one of its bookies has little room left, is to shrink as soon as that
bookie does not tell. -/
theorem shrinks_by_silence :
    let survey (answer : BookieCommand → Output) := ((bookieNodes trioKey id).run (trio answer) none 0 ()).result
    trioSpec.defect? = none ∧ Silenced "ns" "bk-0" trioAnswer trioSilent ∧
      ∃ nodes left, survey trioAnswer = .ok nodes ∧ survey trioSilent = .ok left ∧
        trioSpec.planFor nodes = .hold ∧ trioSpec.planFor left = .scaleDownIfReplicated 1 :=
  ⟨by decide +kernel, trioSilent_silenced, _, _, trio_surveyed trioAnswer_ne, trio_surveyed trioSilent_ne,
    by decide +kernel, by decide +kernel⟩

end BookieSpec
end SetScaler
