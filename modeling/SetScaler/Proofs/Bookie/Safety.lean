import SetScaler.Proofs.Bookie.Course
import SetScaler.Proofs.Bookie.Snapshot
import SetScaler.Proofs.Readiness

/-!
# Before an evaluation deletes a cookie

Whenever an evaluation sends the deletion of a cookie, every look and every step that makes it safe is
already behind it in the same run (`deletion_guarded`).
-/

namespace SetScaler

theorem BookieAction.touches_of_isDeletion {action : BookieAction}
    (deletes : action.isDeletion = true) : action.touches = true := by
  cases action <;> first | rfl | cases deletes

namespace BookieTask

/-- All that an evaluation has behind it when it is about to send a deletion: it has surveyed its
bookies and planned to remove some, the first one has found replication healthy, and then the
removal has passed its barriers. -/
inductive Guarded {σ : Type} (backend : Backend σ) (cancellation : Cancellation) (key : SetKey)
    (spec : BookieSpec) (settings : ScalingSettings) (told : BookieCommand) :
    Trace → (time : Nat) → Prop where
  | intro {opening look removing : Trace} {current : Int} {first node : BookieNode}
      {rest lower upper : List BookieNode} {magnitude asked start time : Nat} :
      Surveyed backend cancellation key spec settings opening current (first :: rest) asked →
      (∀ event ∈ opening, event.Spares) →
      spec.planFor (first :: rest) = .scaleDownIfReplicated magnitude →
      Asks id Admin.saysHealthy asked [(removal key settings first.pod).surveying] look start →
      Removal.candidates (first :: rest) magnitude = lower ++ node :: upper →
      -- no candidate of a higher ordinal is among the lower ones
      (∀ other ∈ lower ++ node :: upper, MemberName.compare node.pod other.pod = .lt →
        other ∈ upper) →
      told = (removal key settings first.pod).deleting node →
      Removal.Cleared (removal key settings first.pod) cancellation lower node upper start removing
        time →
      Guarded backend cancellation key spec settings told (opening ++ look ++ removing) time

theorem Patched.not_sent {key : SetKey} {current target : Int} {patches : Trace} {time : Nat}
    {told : BookieCommand} (patched : Patched key current target patches) :
    .sent time told ∉ patches := by
  cases patched with
  | same => simp
  | asked => simp

/-- The bookies of a survey come in the order of members. -/
theorem Surveyed.pairwise {σ : Type} {backend : Backend σ} {cancellation : Cancellation} {key : SetKey}
    {spec : BookieSpec} {settings : ScalingSettings} {trace : Trace} {current : Int}
    {nodes : List BookieNode} {finish : Nat}
    (surveyed : Surveyed backend cancellation key spec settings trace current nodes finish) :
    nodes.Pairwise fun a b => MemberName.le a.pod b.pod = true := by
  cases surveyed with
  | intro _ _ _ ran =>
      obtain ⟨pods, time, -, listed⟩ := Survey.bookieNodes_found ran
      have ordered := Survey.namesOf_pairwise pods
      rw [← listed] at ordered
      exact List.pairwise_map.mp ordered

theorem upper_of_lt {lower upper : List BookieNode} {node other : BookieNode}
    (ordered : (lower ++ node :: upper).Pairwise fun a b => MemberName.le a.pod b.pod = true)
    (mem : other ∈ lower ++ node :: upper) (higher : MemberName.compare node.pod other.pod = .lt) :
    other ∈ upper := by
  have above : MemberName.le other.pod node.pod = false := MemberName.not_le_of_lt higher
  rcases List.mem_append.mp mem with below | mem
  · have early := (List.pairwise_append.mp ordered).2.2 other below node List.mem_cons_self
    rw [early] at above
    cases above
  · rcases List.mem_cons.mp mem with rfl | after
    · have same : MemberName.compare other.pod other.pod = .eq := Std.ReflCmp.compare_self
      rw [same] at higher
      cases higher
    · exact after

section Course

variable {σ : Type} {backend : Backend σ} {cancellation : Cancellation} {key : SetKey}
  {spec : BookieSpec} {settings : ScalingSettings} {trace before after : Trace} {time : Nat}
  {told : BookieCommand}

theorem not_sent_of_spares (spares : ∀ event ∈ trace, event.Spares)
    (deletes : told.action.isDeletion = true) : .sent time told ∉ trace := by
  intro mem
  have spared : told.action.touches = false := spares _ mem
  rw [BookieAction.touches_of_isDeletion deletes] at spared
  cases spared

theorem Course.guarded (course : Course backend cancellation key spec settings trace)
    (deletes : told.action.isDeletion = true) (sent : trace = before ++ .sent time told :: after) :
    Guarded backend cancellation key spec settings told before time := by
  have seen : .sent time told ∈ trace := by simp [sent]
  cases course with
  | spared spares => exact absurd seen (not_sent_of_spares spares deletes)
  | grown surveyed _ patched =>
      rcases List.mem_append.mp seen with mem | mem
      · exact absurd mem (not_sent_of_spares surveyed.spares deletes)
      · exact absurd mem patched.not_sent
  | @shrunk opening look shrinking current first rest magnitude asked start health surveyed planned
      looked healthy shrunk =>
      cases shrunk with
      | @intro removed clears patches attempts reason cleared middle finish advance clearing _ patched =>
          have unsent : .sent time told ∉ opening ++ look := by
            intro mem
            rcases List.mem_append.mp mem with mem | mem
            · exact not_sent_of_spares surveyed.spares deletes mem
            · refine looked.no_deletion (fun answer mem => ?_) deletes mem
              cases List.mem_singleton.mp mem
              rfl
          obtain ⟨removing, rfl, tail⟩ := Trace.cut_after unsent sent
          rw [List.append_assoc] at tail
          rcases Trace.cut_append tail with ⟨between, split⟩ | ⟨late, -, split⟩
          · obtain ⟨lower, node, upper, chosen, same, passed⟩ := advance.cleared deletes split
            have ordered : (lower ++ node :: upper).Pairwise fun a b =>
                MemberName.le a.pod b.pod = true := by
              rw [← chosen]
              exact surveyed.pairwise.sublist (List.drop_sublist _ _)
            exact .intro surveyed surveyed.spares planned
              ⟨[(_, health)], rfl, by simpa using healthy, looked⟩ chosen
              (fun other mem higher => upper_of_lt ordered mem higher) same passed
          · have late_sent : .sent time told ∈ clears ++ patches := by simp [split]
            rcases List.mem_append.mp late_sent with mem | mem
            · exact absurd mem (clearing.no_deletion (fun _ _ => rfl) deletes)
            · exact absurd mem patched.not_sent

end Course

/-- Whenever an evaluation sends the deletion of a cookie, it has all of its safeguards behind it. -/
theorem deletion_guarded {σ : Type} (backend : Backend σ) (cancellation : Cancellation) (key : SetKey)
    (spec : BookieSpec) (settings : ScalingSettings) (time : Nat) (state : σ) {before after : Trace}
    {instant : Nat} {ns pod bookieId : String}
    (sent : ((run key spec settings).run backend cancellation time state).trace =
      before ++ .sent instant ⟨ns, pod, .deleteCookie bookieId⟩ :: after) :
    Guarded backend cancellation key spec settings ⟨ns, pod, .deleteCookie bookieId⟩ before instant :=
  (run_course backend cancellation key spec settings time state).guarded rfl sent

/-- The implicit bookie set of a cluster. -/
def loneKey : SetKey := ⟨"ns", "bk", .bookkeeper, "default"⟩

/-- A spec under which the last bookie may go. -/
def loneSpec : BookieSpec where
  stabilizationWindowMs := 0
  minWritableBookies := 0
  cleanUpPvcs := false

/-- A cluster of one bookie with little on its disk, which does all that it is asked for at once. -/
def loneBackend : Backend Unit where
  reply request _ _ :=
    (match request with
      | .readyReplicas .. => .ok (some 1)
      | .pods .. => .ok [⟨some "bk-bookkeeper-0", none, some ⟨some [⟨"bookkeeper", true⟩], some 0⟩⟩]
      | .cpuUsage .. => .ok []
      | .volumes .. => .ok []
      | .deleteVolume .. => .ok ()
      | .currentReplicas _ => .ok (some 1)
      | .patchReplicas .. => .ok (), ())
  output command _ _ :=
    ((0, .ok (match command.action with
      | .state => "\x7b\"running\":true\x7d"
      | .info => "\x7b\"freeSpace\":80,\"totalSpace\":100\x7d"
      | .setReadOnly _ => "\x7b\"readOnly\":true\x7d"
      | .listUnderReplicated => Admin.healthyMarker
      | .recover _ => Admin.recoveredMarker
      | .deleteCookie _ => "Deleted cookie"
      | .retireMarkers => Admin.retiredMarker
      | .listLedgers _ | .triggerAudit => "")), ())

/-- The pods of so many bookies, the last one listed first. -/
def crewPods (count : Nat) : List Pod :=
  (members loneKey.statefulSet count).reverse.map fun name =>
    ⟨some name, none, some ⟨some [⟨"bookkeeper", true⟩], some 0⟩⟩

/-- A spec under which all bookies but the first one may go, two at a time. -/
def crewSpec : BookieSpec := { loneSpec with minWritableBookies := 1, scaleDownBy := 2 }

/-- What bookies answer that do all that they are asked for. But among three the cookie of the second one cannot
be deleted. -/
def crewAnswer (count : Nat) (command : BookieCommand) : Output :=
  if command.action.isDeletion = true ∧ command.pod = "bk-bookkeeper-1" ∧ count = 3 then .ok ""
  else (loneBackend.output command 0 ()).1.2

/-- A set of bookies with little on their disks. -/
def crew (recorded present : Nat) : Backend Unit where
  reply request time _ :=
    match request with
    | .currentReplicas _ => (.ok (some recorded), ())
    | .readyReplicas .. => (.ok (some present), ())
    | .pods .. => (.ok (crewPods present), ())
    | other => loneBackend.reply other time ()
  output command _ _ := ((0, crewAnswer present command), ())

section Crew

variable (count : Nat) {cancellation : Cancellation} {time : Nat}

theorem crewPods_perm :
    ((crewPods count).filterMap fun pod => pod.name).Perm (members loneKey.statefulSet count) := by
  have named : ((crewPods count).filterMap fun pod => pod.name) = (members loneKey.statefulSet count).reverse := by
    rw [crewPods, List.filterMap_map]
    exact List.filterMap_some
  rw [named]
  exact List.reverse_perm _

theorem crew_settled : Readiness.podsSettled "bookkeeper" 0 count (crewPods count) = true := by
  have each (pod : Pod) (listed : pod ∈ crewPods count) : Readiness.podSettled "bookkeeper" 0 pod = true := by
    obtain ⟨name, -, rfl⟩ := List.mem_map.mp listed
    rfl
  rw [Readiness.podsSettled, Bool.and_eq_true, beq_iff_eq]
  exact ⟨by simp [crewPods], List.all_eq_true.mpr each⟩

theorem crew_answered (pod : String) :
    Survey.Answered "ns" (crewAnswer count) pod ⟨true, false, false⟩ ⟨80, 100⟩ := by
  have stated : BookieState.ofOutput? "\x7b\"running\":true\x7d" = some ⟨true, false, false⟩ := by decide +kernel
  have measured : BookieInfo.ofOutput? "\x7b\"freeSpace\":80,\"totalSpace\":100\x7d" = some ⟨80, 100⟩ := by
    decide +kernel
  exact ⟨_, _, rfl, rfl, stated, measured⟩

def crewNodes : List BookieNode :=
  (members loneKey.statefulSet count).map fun pod => ⟨pod, bookieId loneKey {} pod, true, [⟨100, 20⟩]⟩

/-- The queries of a crew. -/
def crewQueries (cancellation : Cancellation) (time : Nat) : Ended Unit (List Row) :=
  Survey.queried (crew count count) cancellation loneKey.ns (members loneKey.statefulSet count) time ()

theorem crew_found (small : count ≤ UInt32.size) (unfired : cancellation.firedBy time = false) :
    (Survey.bookieNodes loneKey (bookieId loneKey {})).run (crew count count) cancellation time () =
      ⟨.ok (crewNodes count), .called time (.pods loneKey.ns loneKey.selector) (.ok (crewPods count)) ::
        (crewQueries count cancellation time).trace, (crewQueries count cancellation time).time,
        (crewQueries count cancellation time).state⟩ := by
  have named : Survey.namesOf (crewPods count) = members loneKey.statefulSet count :=
    sortByOrdinal_members loneKey.statefulSet small (crewPods_perm count)
  have pictured : (members loneKey.statefulSet count).map
      (Survey.pictureOf loneKey.ns (bookieId loneKey {}) (crewAnswer count)) = crewNodes count :=
    List.map_congr_left fun pod _ => Survey.pictureOf_answered (crew_answered count pod)
  have answering : (crew count count).Answers (fun _ => 0) (crewAnswer count) := fun _ _ _ => rfl
  have listed : (crew count count).reply (.pods loneKey.ns loneKey.selector) time () = (.ok (crewPods count), ()) :=
    rfl
  refine (Survey.bookieNodes_run_answered answering listed ?_).trans ?_
  · intro pod _ interrupted
    obtain ⟨_, _, state, info, -, -⟩ := crew_answered count pod
    rcases interrupted with fired | cancelled | cancelled
    · cases unfired.symm.trans fired
    · cases state.symm.trans cancelled
    · cases info.symm.trans cancelled
  · dsimp only
    rw [named, pictured]
    rfl

theorem crew_trace (small : count ≤ UInt32.size) (unfired : cancellation.firedBy time = false) :
    ((run loneKey crewSpec {}).run (crew count count) cancellation time ()).trace =
      .called time (.currentReplicas loneKey) (.ok (some (count : Int))) ::
        ([.called time (.readyReplicas loneKey.ns loneKey.statefulSet) (.ok (some (count : Int))),
          .called time (.pods loneKey.ns loneKey.selector) (.ok (crewPods count))] ++
          (.called time (.pods loneKey.ns loneKey.selector) (.ok (crewPods count)) ::
            (crewQueries count cancellation time).trace ++
            ((carryOut loneKey crewSpec {} count (crewNodes count) (crewSpec.planFor (crewNodes count))).run
              (crew count count) cancellation (crewQueries count cancellation time).time
              (crewQueries count cancellation time).state).trace)) :=
  run_surveyed (crew count count) cancellation loneKey crewSpec {} (by decide +kernel) rfl rfl
    (Readiness.isReady_settled rfl rfl (crew_settled count)) (crew_found count small unfired)

end Crew

theorem deletion_guarded_crew :
    let trace := ((run loneKey crewSpec {}).run (crew 3 3) none 0 ()).trace
    let deleting (pod : String) : BookieCommand := ⟨"ns", pod, .deleteCookie (bookieId loneKey {} pod)⟩
    (∃ before after, trace = before ++ .sent 10000 (deleting "bk-bookkeeper-2") :: after ∧
        Guarded (crew 3 3) none loneKey crewSpec {} (deleting "bk-bookkeeper-2") before 10000) ∧
      (∃ before after, trace = before ++ .sent 10000 (deleting "bk-bookkeeper-1") :: after ∧
        Guarded (crew 3 3) none loneKey crewSpec {} (deleting "bk-bookkeeper-1") before 10000) ∧
      trace.confirmed = [deleting "bk-bookkeeper-2"] := by
  intro trace deleting
  have opened : trace = _ := crew_trace 3 (by decide) rfl
  have asked : (10000, deleting "bk-bookkeeper-2") ∈ trace.commands ∧
      (10000, deleting "bk-bookkeeper-1") ∈ trace.commands ∧
      trace.confirmed = [deleting "bk-bookkeeper-2"] := by
    rw [opened]
    decide +kernel
  obtain ⟨higher, lower, confirmed⟩ := asked
  refine ⟨?_, ?_, confirmed⟩
  · obtain ⟨before, after, sent⟩ := List.append_of_mem (Trace.sent_of_mem_commands higher)
    exact ⟨before, after, sent, deletion_guarded (crew 3 3) none loneKey crewSpec {} 0 () sent⟩
  · obtain ⟨before, after, sent⟩ := List.append_of_mem (Trace.sent_of_mem_commands lower)
    exact ⟨before, after, sent, deletion_guarded (crew 3 3) none loneKey crewSpec {} 0 () sent⟩

end BookieTask
end SetScaler
