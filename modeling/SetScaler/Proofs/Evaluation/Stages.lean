import SetScaler.Proofs.Bookie.Looking
import SetScaler.Proofs.Readiness
import SetScaler.Run.Task

/-!
# The stages of an evaluation

An evaluation of a set of either component reads the recorded count, passes the gate and surveys the
set before it acts (`run_eq`). Up to the survey it idles, and it comes to the survey only by way of the
gate (`stages_run`).
-/

namespace SetScaler

/-- Where an evaluation stands before it acts: it is closed, or it has surveyed its set. -/
inductive Standing (ν : Type) where
  | closed (result : Except Failure Unit)
  | surveyed (current : Int) (nodes : ν)

def Standing.ofSurvey {ν : Type} (current : Int) : Except Failure ν → Standing ν
  | .error failure => closed (.error failure)
  | .ok nodes => surveyed current nodes

namespace AutoscalerSpec

/-- What a survey of a set finds. -/
def Nodes : AutoscalerSpec → Type
  | broker _ => List BrokerNode
  | bookkeeper _ => List BookieNode

def defect? : AutoscalerSpec → Option Defect
  | broker spec => spec.defect?
  | bookkeeper spec => spec.defect?

/-- The container by which the pods of a set are judged. -/
def container (settings : ScalingSettings) : AutoscalerSpec → String
  | broker _ => settings.brokerContainer
  | bookkeeper _ => settings.bookieContainer

variable (spec : AutoscalerSpec) (key : SetKey) (settings : ScalingSettings)

/-- What is done about volumes before the gate. -/
def cleaning (current : Int) : Program Unit :=
  match spec with
  | broker _ => .done ()
  | bookkeeper spec => BookieTask.cleanUp key spec current

def survey : Program (Except Failure spec.Nodes) :=
  match spec with
  | broker _ => Survey.brokerNodes key
  | bookkeeper _ => Survey.bookieNodes key (BookieTask.bookieId key settings)

/-- Decides by what was found, and carries the decision out. -/
def act (current : Int) (nodes : spec.Nodes) : Program (Except Failure Unit) :=
  match spec, nodes with
  | broker spec, nodes => BrokerTask.apply key spec current nodes
  | bookkeeper spec, nodes => BookieTask.carryOut key spec settings current nodes (spec.planFor nodes)

/-- Surveys a set that has passed the gate. -/
def gated (current : Int) : Except Failure Bool → Program (Standing spec.Nodes)
  | .error failure => .done (.closed (.error failure))
  | .ok false => .done (.closed (.ok ()))
  | .ok true => (spec.survey key settings).bind fun found => .done (.ofSurvey current found)

/-- Goes on from the recorded count up to the survey. -/
def counted : Except Failure (Option Int) → Program (Standing spec.Nodes)
  | .error failure => .done (.closed (.error failure))
  | .ok none => .done (.closed (.ok ()))
  | .ok (some current) => (spec.cleaning key current).bind fun _ =>
    (Readiness.isReady key (spec.container settings) current spec.stabilizationMs).bind
      (spec.gated key settings current)

/-- An evaluation up to the point where it acts. -/
def stages : Program (Standing spec.Nodes) :=
  match spec.defect? with
  | some defect => .done (.closed (.error (.invalidSpec defect)))
  | none => .call (.currentReplicas key) (spec.counted key settings)

/-- An evaluation from the point where it acts. -/
def conclude : Standing spec.Nodes → Program (Except Failure Unit)
  | .closed result => .done result
  | .surveyed current nodes => spec.act key settings current nodes

/-- What follows a survey, as each component's evaluation has it. -/
theorem gated_conclude {rest : Except Failure spec.Nodes → Program (Except Failure Unit)}
    (current : Int) (failed : ∀ failure, rest (.error failure) = .done (.error failure))
    (found : ∀ nodes, rest (.ok nodes) = spec.act key settings current nodes) :
    (spec.gated key settings current (.ok true)).bind (spec.conclude key settings) =
      (spec.survey key settings).bind rest := by
  simp only [gated, Program.bind_assoc]
  refine congrArg (Program.bind _) (funext fun result => ?_)
  cases result with
  | error failure => exact (failed failure).symm
  | ok nodes => exact (found nodes).symm

theorem run_eq :
    spec.run key settings = (spec.stages key settings).bind (spec.conclude key settings) := by
  cases spec with
  | broker spec =>
      simp only [run, BrokerTask.run, stages, defect?]
      cases spec.defect? with
      | some defect => rfl
      | none =>
          refine congrArg (Program.call (.currentReplicas key)) (funext fun reply => ?_)
          rcases reply with failure | none | current
          · rfl
          · rfl
          · simp only [counted, cleaning, Program.done_bind, Program.bind_assoc]
            refine congrArg (Program.bind (Readiness.isReady key settings.brokerContainer current
              spec.stabilizationWindowMs.toNat)) (funext fun ready => ?_)
            rcases ready with failure | _ | _
            · rfl
            · rfl
            · exact (gated_conclude (.broker spec) key settings current (fun _ => rfl) fun _ => rfl).symm
  | bookkeeper spec =>
      simp only [run, BookieTask.run, stages, defect?]
      cases spec.defect? with
      | some defect => rfl
      | none =>
          refine congrArg (Program.call (.currentReplicas key)) (funext fun reply => ?_)
          rcases reply with failure | none | current
          · rfl
          · rfl
          · simp only [counted, Program.bind_assoc]
            refine congrArg (Program.bind (BookieTask.cleanUp key spec current)) (funext fun _ => ?_)
            refine congrArg (Program.bind (Readiness.isReady key settings.bookieContainer current
              spec.stabilizationWindowMs.toNat)) (funext fun ready => ?_)
            rcases ready with failure | _ | _
            · rfl
            · rfl
            · exact (gated_conclude (.bookkeeper spec) key settings current (fun _ => rfl) fun _ => rfl).symm

theorem cleaning_idles (current : Int) : (spec.cleaning key current).Idles := by
  cases spec with
  | broker => trivial
  | bookkeeper spec => exact BookieTask.cleanUp_idles key spec current

theorem survey_looks : (spec.survey key settings).Looks := by
  cases spec with
  | broker => exact (Survey.brokerNodes_idles key).looks
  | bookkeeper => exact Survey.bookieNodes_looks key _

end AutoscalerSpec

/-- The events of an evaluation up to and including a gate that its set has passed. -/
inductive Opened (key : SetKey) (container : String) (windowMs : Nat) (current : Int) : Trace → Prop where
  | intro {time : Nat} {cleanup gate : Trace} : (∀ event ∈ cleanup, event.Idles) →
      Readiness.Passed key container current windowMs gate →
      Opened key container windowMs current
        (.called time (.currentReplicas key) (.ok (some current)) :: cleanup ++ gate)

/-- The ways of an evaluation up to the point where it acts. -/
inductive Staged {σ : Type} (backend : Backend σ) (cancellation : Cancellation) (spec : AutoscalerSpec)
    (key : SetKey) (settings : ScalingSettings) : Trace → Standing spec.Nodes → Prop where
  | refused {defect : Defect} : spec.defect? = some defect →
      Staged backend cancellation spec key settings [] (.closed (.error (.invalidSpec defect)))
  | closed {trace : Trace} {result : Except Failure Unit} : spec.defect? = none →
      (∀ event ∈ trace, event.Idles) → Staged backend cancellation spec key settings trace (.closed result)
  | passed {opening surveyed : Trace} {current : Int} {found : Except Failure spec.Nodes}
      {start finish : Nat} {state state' : σ} : spec.defect? = none →
      Opened key (spec.container settings) spec.stabilizationMs current opening →
      (spec.survey key settings).run backend cancellation start state =
        ⟨found, surveyed, finish, state'⟩ →
      Staged backend cancellation spec key settings (opening ++ surveyed) (.ofSurvey current found)

namespace AutoscalerSpec

variable {σ : Type} (backend : Backend σ) (cancellation : Cancellation) (spec : AutoscalerSpec)
  (key : SetKey) (settings : ScalingSettings) (time : Nat) (state : σ)

theorem counted_run (sound : spec.defect? = none) (instant : Nat)
    (reply : Except Failure (Option Int)) :
    Staged backend cancellation spec key settings
      (.called instant (.currentReplicas key) reply ::
        ((spec.counted key settings reply).run backend cancellation time state).trace)
      ((spec.counted key settings reply).run backend cancellation time state).result := by
  have read : ∀ event ∈ [Event.called instant (.currentReplicas key) reply], event.Idles :=
    List.forall_mem_singleton.mpr rfl
  match reply with
  | .error failure => exact .closed sound read
  | .ok none => exact .closed sound read
  | .ok (some current) =>
      simp only [counted, Program.run_bind]
      have cleaning := Program.events_of_uses backend cancellation
        (cleaning_idles spec key current).idles time state
      rcases cleaned : (spec.cleaning key current).run backend cancellation time state with
        ⟨⟨⟩, cleanup, middle, between⟩
      rw [cleaned] at cleaning
      have looking := Program.events_of_uses backend cancellation (Readiness.isReady_idles key
        (spec.container settings) current spec.stabilizationMs).idles middle between
      rcases gate : (Readiness.isReady key (spec.container settings) current spec.stabilizationMs).run
        backend cancellation middle between with ⟨ready, looked, start, last⟩
      rw [gate] at looking
      have idles := List.forall_mem_append.mpr ⟨List.forall_mem_append.mpr ⟨read, cleaning⟩, looking⟩
      match ready with
      | .error failure => exact .closed sound (by simpa [gated] using idles)
      | .ok false => exact .closed sound (by simpa [gated] using idles)
      | .ok true =>
          have opened : Opened key (spec.container settings) spec.stabilizationMs current
              (.called instant (.currentReplicas key) (.ok (some current)) :: cleanup ++ looked) :=
            .intro cleaning (Readiness.isReady_passed gate)
          rcases ran : (spec.survey key settings).run backend cancellation start last with
            ⟨found, surveyed, finish, after⟩
          simp only [gated, Program.run_bind, ran, Ended.after_trace, Ended.after_result,
            Program.run_done, List.append_nil]
          have staged := Staged.passed sound opened ran
          rw [List.cons_append, List.cons_append, List.append_assoc] at staged
          exact staged

theorem stages_run :
    Staged backend cancellation spec key settings
      ((spec.stages key settings).run backend cancellation time state).trace
      ((spec.stages key settings).run backend cancellation time state).result := by
  unfold stages
  cases sound : spec.defect? with
  | some defect => exact .refused sound
  | none => exact counted_run backend cancellation spec key settings _ _ sound time _

end AutoscalerSpec
end SetScaler
