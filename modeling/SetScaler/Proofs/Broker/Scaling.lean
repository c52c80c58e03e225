import SetScaler.Proofs.Bookie.Downscale
import SetScaler.Proofs.Broker.Votes
import SetScaler.Run.Task

/-!
# When a set of brokers is scaled

An evaluation of a broker set that has passed its gate records a count just if some pod takes part in the
votes and all that do are overloaded, or all idle, and the count then changes the way they want
(`run_scales`). A listing or a reading of metrics that fails leaves no pod to vote.
-/

namespace SetScaler

namespace BrokerSpec

/-- A count within the range of counts, raised to one and to the floor of the spec, then cut at its
ceiling. -/
def limited (spec : BrokerSpec) (count : Int) : Int :=
  let raised := max (saturate count) (max 1 spec.minReplicas.toInt)
  match spec.maxReplicas with
  | none => raised
  | some ceiling => min raised ceiling.toInt

/-- The pods that vote, by their use of CPU and their request, want a set of so many replicas to have
another number. -/
structure Scales (spec : BrokerSpec) (voters : Float → Float → Prop) (current target : Int) : Prop where
  voted : ∃ used requested, voters used requested
  agreed : (∀ used requested, voters used requested → used / requested > spec.higherCpuThreshold) ∧
      target = spec.limited (current + spec.scaleUpBy.toInt) ∧ target > current ∨
    (∀ used requested, voters used requested → used / requested < spec.lowerCpuThreshold) ∧
      target = spec.limited (current - spec.scaleDownBy.toInt) ∧ target < current

variable {spec : BrokerSpec} {current target : Int}

theorem limited_eq (spec : BrokerSpec) (count : Int) :
    spec.limited count = spec.bounded (saturate count) := by
  unfold limited bounded
  rw [Int.max_assoc]
  cases spec.maxReplicas with
  | none => rfl
  | some ceiling => rfl

theorem target_above (sound : spec.defect? = none) (current : Int) :
    spec.target current (spec.step .above) =
      max (spec.limited (current + spec.scaleUpBy.toInt)) current := by
  obtain ⟨-, least, -⟩ := thresholds_of_sound sound
  have most := spec.scaleUpBy.toInt_lt
  have way : (spec.step .above).direction = .up := by
    rw [step, Decision.up, if_neg (by omega)]
  have delta : (spec.step .above).delta = spec.scaleUpBy.toInt := by
    rw [step, Decision.delta_up]
    unfold countMax
    omega
  simp only [target, way, delta, limited_eq]

theorem target_below (sound : spec.defect? = none) (current : Int) :
    spec.target current (spec.step .below) =
      min (spec.limited (current - spec.scaleDownBy.toInt)) current := by
  obtain ⟨-, -, least⟩ := thresholds_of_sound sound
  have most := spec.scaleDownBy.toInt_lt
  have way : (spec.step .below).direction = .down := by
    rw [step, Decision.down, if_neg (by omega)]
  have delta : (spec.step .below).delta = -spec.scaleDownBy.toInt := by
    rw [step, Decision.delta_down]
    unfold countMax
    omega
  simp only [target, way, delta, limited_eq, Int.sub_eq_add_neg]

theorem scales_iff (sound : spec.defect? = none) (pods : List Pod) (usage : List (String × Float)) :
    spec.Scales (Survey.Voter pods usage) current target ↔
      spec.target current (spec.decide (Survey.brokerNodesOf pods usage)) ≠ current ∧
        target = spec.target current (spec.decide (Survey.brokerNodesOf pods usage)) := by
  have above : spec.Unanimous (Survey.brokerNodesOf pods usage) .above ↔ _ :=
    unanimous_iff_voter (· > spec.higherCpuThreshold) fun _ => vote_eq_above sound
  have below : spec.Unanimous (Survey.brokerNodesOf pods usage) .below ↔ _ :=
    unanimous_iff_voter (· < spec.lowerCpuThreshold) fun _ => vote_eq_below
  by_cases up : spec.Unanimous (Survey.brokerNodesOf pods usage) .above
  · rw [decide_of_unanimous up, target_above sound]
    obtain ⟨voted, agreed⟩ := above.mp up
    constructor
    · rintro ⟨-, ⟨-, rfl, more⟩ | ⟨others, -⟩⟩
      · omega
      · cases up.unique (below.mpr ⟨voted, others⟩)
    · rintro ⟨changed, rfl⟩
      exact ⟨voted, .inl ⟨agreed, by omega⟩⟩
  · by_cases down : spec.Unanimous (Survey.brokerNodesOf pods usage) .below
    · rw [decide_of_unanimous down, target_below sound]
      obtain ⟨voted, agreed⟩ := below.mp down
      constructor
      · rintro ⟨-, ⟨others, -⟩ | ⟨-, rfl, fewer⟩⟩
        · exact absurd (above.mpr ⟨voted, others⟩) up
        · omega
      · rintro ⟨changed, rfl⟩
        exact ⟨voted, .inr ⟨agreed, by omega⟩⟩
    · have kept : spec.decide (Survey.brokerNodesOf pods usage) = .hold := by
        by_cases level : spec.Unanimous (Survey.brokerNodesOf pods usage) .inBand
        · exact decide_of_unanimous level
        · exact decide_of_not_unanimous fun vote => by cases vote <;> assumption
      have unchanged : spec.target current .hold = current := rfl
      rw [kept, unchanged]
      constructor
      · rintro ⟨voted, ⟨others, -⟩ | ⟨others, -⟩⟩
        · exact absurd (above.mpr ⟨voted, others⟩) up
        · exact absurd (below.mpr ⟨voted, others⟩) down
      · rintro ⟨changed, -⟩
        exact absurd rfl changed

end BrokerSpec

namespace BrokerTask

variable {σ : Type} {backend : Backend σ} {cancellation : Cancellation} {key : SetKey} {spec : BrokerSpec}
  {settings : ScalingSettings} {current : Int}

theorem apply_patches (nodes : List BrokerNode) (time : Nat) (state : σ) :
    ((apply key spec current nodes).run backend cancellation time state).trace.patches =
      if spec.target current (spec.decide nodes) = current then []
      else [(key, spec.target current (spec.decide nodes))] := by
  by_cases same : spec.target current (spec.decide nodes) = current
  · simp only [apply, same, if_true]
    rfl
  · simp only [apply, same, if_false]
    rfl

variable {time instant : Nat} {state counted gated listed after : σ} {looked : Trace}
  {pods : Except Failure (List Pod)} {usage : Except Failure (List (String × Float))}

section Gated

variable (sound : spec.defect? = none)
  (recorded : backend.reply (.currentReplicas key) time state = (.ok (some current), counted))
  (gate : (Readiness.isReady key settings.brokerContainer current
    spec.stabilizationWindowMs.toNat).run backend cancellation time counted = ⟨.ok true, looked, instant, gated⟩)
  (listing : backend.reply (.pods key.ns key.selector) instant gated = (pods, listed))
  (metered : backend.reply (.cpuUsage key.ns key.selector) instant listed = (usage, after))
include sound recorded gate listing metered

/-- Past the gate a run records what the samples call for. -/
theorem run_patches :
    ((run key spec settings).run backend cancellation time state).trace.patches =
      match pods, usage with
      | .ok pods, .ok usage =>
        let target := spec.target current (spec.decide (Survey.brokerNodesOf pods usage))
        if target = current then [] else [(key, target)]
      | _, _ => [] := by
  have idle : looked.patches = [] := by
    have looks := Program.events_of_uses backend cancellation (Readiness.isReady_idles key
      settings.brokerContainer current spec.stabilizationWindowMs.toNat).idles time counted
    rw [gate] at looks
    exact Trace.patches_eq_nil _ looks
  have read : Trace.patches [.called time (.currentReplicas key) (.ok (some current))] = [] := rfl
  simp only [run, sound, Program.bind_eq, Program.ask, Program.bind, Program.run, recorded, Program.run_bind,
    gate, Ended.after_trace, Trace.patches_append, idle, read, List.nil_append]
  cases pods with
  | error failure =>
      simp only [Survey.brokerNodes, Program.bind_eq, Program.ask, Program.bind, Program.run, listing]
      rfl
  | ok pods =>
      cases usage with
      | error failure =>
          simp only [Survey.brokerNodes, Program.bind_eq, Program.ask, Program.bind, Program.run, listing,
            metered]
          rfl
      | ok usage =>
          simp only [Survey.brokerNodes, Program.bind_eq, Program.ask, Program.bind, Program.run, listing,
            metered]
          exact apply_patches _ _ _

/-- Past the gate a run records a new count just if the pods that vote agree on one. It does so once. -/
theorem run_scales :
    let patches := ((run key spec settings).run backend cancellation time state).trace.patches
    (∀ own target, (own, target) ∈ patches ↔
      own = key ∧ spec.Scales (Survey.Voting pods usage) current target) ∧ patches.length ≤ 1 := by
  intro patches
  have all := run_patches sound recorded gate listing metered
  change patches = _ at all
  have unheard (silent : ∀ listed metrics, pods = .ok listed → usage ≠ .ok metrics) (target : Int) :
      ¬spec.Scales (Survey.Voting pods usage) current target := by
    intro scales
    obtain ⟨_, _, listed, metrics, heard, measured, -⟩ := scales.voted
    exact silent listed metrics heard measured
  cases pods with
  | error failure =>
      rw [all]
      simp [unheard]
  | ok pods =>
      cases usage with
      | error failure =>
          rw [all]
          simp [unheard]
      | ok usage =>
          have same : Survey.Voting (.ok pods) (.ok usage) = Survey.Voter pods usage := by
            funext used requested
            simp [Survey.Voting]
          simp only [all, same, BrokerSpec.scales_iff sound]
          split <;> simp [*]

end Gated

/-- Two brokers, of which only the first is going to have a sample. -/
def busyPods : List Pod :=
  [⟨some "bk-broker-0", some ⟨[⟨"broker", some "500m"⟩, ⟨"sidecar", none⟩], []⟩,
    some ⟨some [⟨"broker", true⟩], some 0⟩⟩,
  ⟨some "bk-broker-1", some ⟨[⟨"broker", some "500m"⟩], []⟩, some ⟨some [⟨"broker", true⟩], some 0⟩⟩]

/-- A cluster of these brokers, the first one busy. -/
def busyBackend : Backend Unit where
  reply request _ _ :=
    (match request with
      | .readyReplicas .. => .ok (some 2)
      | .pods .. => .ok busyPods
      | .cpuUsage .. => .ok [("bk-broker-0", 0.45)]
      | .volumes .. => .ok []
      | .deleteVolume .. => .ok ()
      | .currentReplicas _ => .ok (some 2)
      | .patchReplicas .. => .ok (), ())
  output _ _ _ := ((0, .ok ""), ())

theorem run_scales_busy :
    let key : SetKey := ⟨"ns", "bk", .broker, "default"⟩
    let spec : BrokerSpec := { stabilizationWindowMs := 0, scaleUpBy := 2 }
    spec.Scales (Survey.Voting (.ok busyPods) (.ok [("bk-broker-0", 0.45)])) 2 4 ∧
      ((run key spec {}).run busyBackend none 0 ()).trace.patches = [(key, 4)] := by
  intro key spec
  have sound : spec.defect? = none := by decide +kernel
  have patches : ((run key spec {}).run busyBackend none 0 ()).trace.patches = [(key, 4)] := by decide +kernel
  have recorded : busyBackend.reply (.currentReplicas key) 0 () = (.ok (some 2), ()) := rfl
  have gate : (Readiness.isReady key ({} : ScalingSettings).brokerContainer 2
      spec.stabilizationWindowMs.toNat).run busyBackend none 0 () = ⟨.ok true, _, 0, ()⟩ := rfl
  have ran := run_scales sound recorded gate rfl rfl
  have called := (ran.1 key 4).mp (patches ▸ List.mem_cons_self)
  exact ⟨called.2, patches⟩

end BrokerTask
end SetScaler
