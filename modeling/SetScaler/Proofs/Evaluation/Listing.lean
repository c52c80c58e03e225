import Mathlib.Data.List.Nodup
import SetScaler.Proofs.Bookie.Safety
import SetScaler.Proofs.Evaluation.Stages
import SetScaler.Proofs.Run.Listing
import SetScaler.Proofs.Sorting
import SetScaler.Proofs.Survey

/-!
# The order in which pods are listed

An evaluation makes nothing of the order in which the pods of its set are listed: the gate counts and
tests them, surveys sort them by name, and the cleanup only asks which volumes they mount. So it is blind to
that order (`AutoscalerSpec.run_blind`), and it goes the same way on backends that relist each other's pods
(`run_relisted`).
-/

namespace SetScaler

section Listings

variable {pods others : List Pod} (listed : pods.Perm others)
include listed

theorem Readiness.podsSettled_perm (container : String) (windowMs : Nat) (expected : Int) :
    podsSettled container windowMs expected pods = podsSettled container windowMs expected others := by
  unfold podsSettled
  rw [listed.length_eq, listed.all_eq]

theorem Survey.namesOf_perm : namesOf pods = namesOf others :=
  sortByOrdinal_eq ((listed.filterMap _).trans (sortByOrdinal_perm id _).symm) (namesOf_pairwise others)

theorem Cleanup.orphans_perm (count : Int) (volumes : List (Option String)) :
    orphans count volumes pods = orphans count volumes others := by
  have mounted : isOrphan count (pods.flatMap Pod.claims) = isOrphan count (others.flatMap Pod.claims) := by
    funext name
    have same : (pods.flatMap Pod.claims).contains name = (others.flatMap Pod.claims).contains name :=
      (listed.flatMap_right Pod.claims).contains_eq
    unfold isOrphan
    rw [same]
  unfold orphans
  rw [mounted]

end Listings

namespace Survey

theorem name_of_brokerNode {usage : List (String × Float)} {pod : Pod} {node : BrokerNode}
    (found : brokerNode? usage pod = some node) : pod.name = some node.pod := by
  simp only [brokerNode?, Option.bind_eq_bind, Option.bind_eq_some_iff] at found
  obtain ⟨name, named, used, -, requested, -, same⟩ := found
  cases same
  exact named

theorem brokerNodesOf_perm {pods others : List Pod} (listed : pods.Perm others)
    (distinct : (pods.filterMap fun pod => pod.name).Nodup) (usage : List (String × Float)) :
    brokerNodesOf pods usage = brokerNodesOf others usage := by
  have named : ((pods.filterMap (brokerNode? usage)).map BrokerNode.pod).Nodup := by
    refine List.pairwise_map.mpr (List.pairwise_filterMap.mpr ?_)
    refine (List.pairwise_filterMap.mp distinct).imp fun apart node found other found' => ?_
    exact apart _ (name_of_brokerNode found) _ (name_of_brokerNode found')
  exact sortByOrdinal_perm_eq (listed.filterMap _) named

end Survey

section Blind

open Program

variable (key : SetKey)

theorem Readiness.isReady_blind (container : String) (expected : Int) (windowMs : Nat) :
    (isReady key container expected windowMs).Blind := by
  refine blind_asking (fun _ _ same => by cases same) fun reply => ?_
  match reply with
  | .error _ => trivial
  | .ok none => trivial
  | .ok (some ready) =>
      change Blind (if ready ≠ expected then _ else _)
      split
      · trivial
      · refine blind_listing (fun pods others listed _ => ?_) fun reply => ?_
        · exact congrArg (fun settled => done (Except.ok settled))
            (podsSettled_perm listed container windowMs expected)
        · cases reply <;> trivial

theorem Survey.podNames_blind : (podNames key).Blind := by
  refine blind_listing (fun pods others listed _ => ?_) fun reply => ?_
  · exact congrArg (fun names => done (Except.ok names)) (namesOf_perm listed)
  · cases reply <;> trivial

theorem Survey.brokerNodes_blind : (brokerNodes key).Blind := by
  refine blind_listing (fun pods others listed distinct => ?_) fun reply => ?_
  · refine congrArg (call (.cpuUsage key.ns key.selector)) (funext fun usage => ?_)
    cases usage with
    | error => rfl
    | ok usage =>
        exact congrArg (fun nodes => done (Except.ok nodes)) (brokerNodesOf_perm listed distinct usage)
  · cases reply with
    | error => trivial
    | ok pods =>
        refine blind_asking (fun _ _ same => by cases same) fun usage => ?_
        cases usage <;> trivial

theorem Survey.bookieNodes_blind (bookieId : String → String) : (bookieNodes key bookieId).Blind := by
  refine (podNames_blind key).bind fun names => ?_
  cases names with
  | error => trivial
  | ok => exact fun _ => trivial

theorem Cleanup.deleteEach_blind (ns : String) (names : List String) : (deleteEach ns names).Blind := by
  induction names with
  | nil => trivial
  | cons name rest ih =>
      exact blind_asking (fun _ _ same => by cases same) fun _ => ih.bind fun _ => trivial

theorem Cleanup.sweep_blind (count : Int) : (sweep key count).Blind := by
  refine blind_asking (fun _ _ same => by cases same) fun volumes => ?_
  match volumes with
  | .error _ => trivial
  | .ok [] => trivial
  | .ok (volume :: volumes) =>
      refine blind_listing (fun pods others listed _ => ?_) fun reply => ?_
      · exact congrArg (deleteEach key.ns) (orphans_perm listed count (volume :: volumes))
      · cases reply with
        | error => trivial
        | ok => exact deleteEach_blind key.ns _

theorem Cleanup.run_blind (count : Int) : (run key count).Blind := by
  refine (sweep_blind key count).bind fun deleted => ?_
  split
  · trivial
  · refine (Survey.podNames_blind key).bind fun names => ?_
    match names with
    | .error _ => trivial
    | .ok [] => trivial
    | .ok (pod :: _) =>
        refine fun cancelled => ?_
        cases cancelled with
        | true => trivial
        | false => exact fun output => by cases output <;> trivial

end Blind

namespace BookieTask

variable (key : SetKey) (spec : BookieSpec) (settings : ScalingSettings) (current : Int)

theorem patch_blind (target : Int) : (patch key current target).Blind := by
  by_cases same : target = current
  · have kept : patch key current target = .done (.ok ()) := if_pos same
    rw [kept]
    trivial
  · have recorded : patch key current target = Program.ask (.patchReplicas key target) := if_neg same
    rw [recorded]
    exact Program.blind_asking (fun _ _ same => by cases same) fun _ => trivial

theorem shrink_blind (nodes : List BookieNode) (queryPod : String) (magnitude : Nat) :
    (shrink key spec settings current nodes queryPod magnitude).Blind := by
  refine (Removal.Protocol.run_heeds _ _).uses.blind.bind fun summary => ?_
  split
  · trivial
  · exact patch_blind key current _

theorem carryOut_blind (nodes : List BookieNode) (plan : BookiePlan) :
    (carryOut key spec settings current nodes plan).Blind := by
  match plan, nodes with
  | .hold, _ => trivial
  | .scaleUp _, _ => exact patch_blind key current _
  | .scaleDownIfReplicated _, [] => trivial
  | .scaleDownIfReplicated count, first :: rest =>
      refine fun health => ?_
      change Program.Blind (if Admin.saysHealthy health = true then _ else _)
      split
      · exact shrink_blind key spec settings current _ first.pod count
      · trivial

end BookieTask

namespace AutoscalerSpec

variable (spec : AutoscalerSpec) (key : SetKey) (settings : ScalingSettings)

theorem cleaning_blind (current : Int) : (spec.cleaning key current).Blind := by
  cases spec with
  | broker => trivial
  | bookkeeper spec =>
      change (BookieTask.cleanUp key spec current).Blind
      unfold BookieTask.cleanUp
      split
      · exact Cleanup.run_blind key current
      · trivial

theorem survey_blind : (spec.survey key settings).Blind := by
  cases spec with
  | broker => exact Survey.brokerNodes_blind key
  | bookkeeper => exact Survey.bookieNodes_blind key _

theorem act_blind (current : Int) (nodes : spec.Nodes) : (spec.act key settings current nodes).Blind := by
  cases spec with
  | broker => exact BookieTask.patch_blind key current _
  | bookkeeper spec => exact BookieTask.carryOut_blind key spec settings current nodes _

theorem gated_blind (current : Int) (ready : Except Failure Bool) :
    (spec.gated key settings current ready).Blind := by
  match ready with
  | .error _ => trivial
  | .ok false => trivial
  | .ok true => exact (survey_blind spec key settings).bind fun _ => trivial

theorem stages_blind : (spec.stages key settings).Blind := by
  unfold stages
  split
  · trivial
  · refine Program.blind_asking (fun _ _ same => by cases same) fun reply => ?_
    match reply with
    | .error _ => trivial
    | .ok none => trivial
    | .ok (some current) =>
        refine (cleaning_blind spec key current).bind fun _ => ?_
        exact (Readiness.isReady_blind key _ current _).bind (gated_blind spec key settings current)

theorem run_blind : (spec.run key settings).Blind := by
  rw [run_eq]
  refine (stages_blind spec key settings).bind fun standing => ?_
  cases standing with
  | closed => trivial
  | surveyed current nodes => exact act_blind spec key settings current nodes

/-- The run makes the same requests and sends the same commands at the same times, and it ends at the same
time with the same result. On the way it has found the same when it comes to act, and wherever it is asked
the gate gives the same verdict. -/
theorem run_relisted {σ τ : Type} {backend : Backend σ} {other : Backend τ} {alike : σ → τ → Prop}
    (relists : Relists backend other alike) (cancellation : Cancellation) (time : Nat) {state : σ}
    {state' : τ} (start : alike state state') :
    let ended := (spec.run key settings).run backend cancellation time state
    let relisted := (spec.run key settings).run other cancellation time state'
    ended.result = relisted.result ∧ ended.time = relisted.time ∧
      ended.trace.requests = relisted.trace.requests ∧ ended.trace.commands = relisted.trace.commands ∧
      List.Forall₂ Event.Alike ended.trace relisted.trace ∧
      ((spec.stages key settings).run backend cancellation time state).result =
        ((spec.stages key settings).run other cancellation time state').result ∧
      ∀ expected instant first second, alike first second →
        ((Readiness.isReady key (spec.container settings) expected spec.stabilizationMs).run backend
          cancellation instant first).result =
        ((Readiness.isReady key (spec.container settings) expected spec.stabilizationMs).run other
          cancellation instant second).result := by
  intro ended relisted
  have agrees : ended.Agrees alike relisted :=
    (run_blind spec key settings).agrees relists cancellation time start
  have found := (stages_blind spec key settings).agrees relists cancellation time start
  refine ⟨agrees.result, agrees.time, agrees.requests, agrees.commands, agrees.events, found.result, ?_⟩
  intro expected instant first second now
  exact ((Readiness.isReady_blind key _ expected _).agrees relists cancellation instant now).result

end AutoscalerSpec

/-- The cluster of one bookie with a pod that has no name listed in front of it. -/
def BookieTask.namelessBackend : Backend Unit where
  reply request time state :=
    match request with
    | .readyReplicas .. | .currentReplicas _ => (.ok (some 2), ())
    | .pods .. => (.ok ([none, some "bk-bookkeeper-0"].map fun name =>
        ⟨name, none, some ⟨some [⟨"bookkeeper", true⟩], some 0⟩⟩), ())
    | request => loneBackend.reply request time state
  output := loneBackend.output

open BookieTask in
theorem AutoscalerSpec.run_relisted_nameless :
    let spec : AutoscalerSpec := .bookkeeper loneSpec
    let ended := (spec.run loneKey {}).run namelessBackend none 0 ()
    let relisted := (spec.run loneKey {}).run (namelessBackend.relisting fun _ _ => List.reverse) none 0 ()
    ended.result = relisted.result ∧
    (10000, ⟨"ns", "bk-bookkeeper-0", .deleteCookie
      "bk-bookkeeper-0.bk-bookkeeper.ns.svc.cluster.local:3181"⟩) ∈ relisted.trace.commands ∧
    (10000, .patchReplicas loneKey 1) ∈ relisted.trace.requests := by
  intro spec ended relisted
  have relists : Relists namelessBackend (namelessBackend.relisting fun _ _ => List.reverse) (· = ·) := by
    refine relists_relisting (fun _ _ pods => pods.reverse_perm) fun _ _ _ _ pods listed => ?_
    cases listed
    decide
  obtain ⟨result, -, requests, commands, -⟩ := run_relisted spec loneKey {} relists none 0 rfl
  rw [← requests, ← commands]
  exact ⟨result, by decide +kernel, by decide +kernel⟩

end SetScaler
