import SetScaler.Proofs.Bookie.Looking
import SetScaler.Proofs.Removal.Safety

/-!
# The course of an evaluation of a bookie set

An evaluation leaves bookies and count alone, or raises the count, or removes bookies (`Course`).
-/

namespace SetScaler

namespace BookieTask

/-- The removal that an evaluation carries out. -/
def removal (key : SetKey) (settings : ScalingSettings) (queryPod : String) : Removal.Protocol :=
  ⟨key.ns, queryPod, settings.settleDelayMs.toNat, settings.cookieDeleteAttempts.toNat⟩

/-- The events of recording a count that is to replace another. -/
inductive Patched (key : SetKey) (current target : Int) : Trace → Prop where
  | same : target = current → Patched key current target []
  | asked {time : Nat} {reply : (Request.patchReplicas key target).Result} :
      target ≠ current → Patched key current target [.called time (.patchReplicas key target) reply]

/-- The part of an evaluation up to its plan: its events, the recorded count, and the bookies that it
found. -/
inductive Surveyed {σ : Type} (backend : Backend σ) (cancellation : Cancellation) (key : SetKey)
    (spec : BookieSpec) (settings : ScalingSettings) :
    Trace → (current : Int) → List BookieNode → (finish : Nat) → Prop where
  | intro {opening surveyed : Trace} {current : Int} {nodes : List BookieNode}
      {time start finish : Nat} {state state' : σ} :
      spec.defect? = none → .called time (.currentReplicas key) (.ok (some current)) ∈ opening →
      (∀ event ∈ opening, event.Spares) →
      (Survey.bookieNodes key (bookieId key settings)).run backend cancellation start state =
        ⟨.ok nodes, surveyed, finish, state'⟩ →
      Surveyed backend cancellation key spec settings (opening ++ surveyed) current nodes finish

/-- The part of an evaluation that removes candidates, and then lowers the count by as many as are
gone. -/
inductive Shrunk (protocol : Removal.Protocol) (cancellation : Cancellation) (key : SetKey)
    (spec : BookieSpec) (current : Int) (nodes : List BookieNode) (start : Nat) : Trace → Prop where
  | intro {removed clears patches : Trace} {attempts : List Removal.Attempt}
      {reason : Option Removal.Reason} {cleared : List (BookieNode × Output)} {middle finish : Nat} :
      Removal.Advance protocol cancellation nodes start removed attempts reason middle →
      Asked protocol.clearing middle cleared clears finish →
      cleared.map Prod.fst = ((Removal.Protocol.concluded attempts reason).filter fun attempt =>
        attempt.progress.needsRollback).map Removal.Attempt.node →
      Patched key current (spec.target current (Removal.Summary.ofAttempts
        (Removal.Protocol.concluded attempts reason) reason).delta) patches →
      Shrunk protocol cancellation key spec current nodes start (removed ++ clears ++ patches)

/-- The ways of an evaluation: it leaves bookies and count alone, or it is to raise the count, or it
finds replication healthy and removes bookies. -/
inductive Course {σ : Type} (backend : Backend σ) (cancellation : Cancellation) (key : SetKey)
    (spec : BookieSpec) (settings : ScalingSettings) : Trace → Prop where
  | spared {trace : Trace} : (∀ event ∈ trace, event.Spares) →
      Course backend cancellation key spec settings trace
  | grown {opening patches : Trace} {current : Int} {nodes : List BookieNode} {count finish : Nat} :
      Surveyed backend cancellation key spec settings opening current nodes finish →
      spec.planFor nodes = .scaleUp count →
      Patched key current (spec.target current (Decision.up count).delta) patches →
      Course backend cancellation key spec settings (opening ++ patches)
  | shrunk {opening look shrinking : Trace} {current : Int} {first : BookieNode}
      {rest : List BookieNode} {magnitude asked start : Nat} {health : Output} :
      Surveyed backend cancellation key spec settings opening current (first :: rest) asked →
      spec.planFor (first :: rest) = .scaleDownIfReplicated magnitude →
      Asked id asked [((removal key settings first.pod).surveying, health)] look start →
      Admin.saysHealthy health = true →
      Shrunk (removal key settings first.pod) cancellation key spec current
        (Removal.candidates (first :: rest) magnitude) start shrinking →
      Course backend cancellation key spec settings (opening ++ look ++ shrinking)

theorem Surveyed.spares {σ : Type} {backend : Backend σ} {cancellation : Cancellation} {key : SetKey}
    {spec : BookieSpec} {settings : ScalingSettings} {trace : Trace} {current : Int}
    {nodes : List BookieNode} {finish : Nat}
    (surveyed : Surveyed backend cancellation key spec settings trace current nodes finish) :
    ∀ event ∈ trace, event.Spares := by
  cases surveyed with
  | @intro opening surveyed current nodes time start finish state state' _ _ spares ran =>
      have queries := Program.events_of_uses backend cancellation
        (Survey.bookieNodes_looks key (bookieId key settings)).spares start state
      rw [ran] at queries
      exact List.forall_mem_append.mpr ⟨spares, queries⟩

variable {σ : Type} (backend : Backend σ) (cancellation : Cancellation) (key : SetKey)
  (spec : BookieSpec) (settings : ScalingSettings)

theorem patch_run (current target : Int) (time : Nat) (state : σ) :
    Patched key current target ((patch key current target).run backend cancellation time state).trace := by
  by_cases same : target = current
  · have kept : patch key current target = .done (.ok ()) := if_pos same
    rw [kept]
    exact .same same
  · have recorded : patch key current target = Program.ask (.patchReplicas key target) := if_neg same
    rw [recorded]
    exact .asked same

theorem shrink_run (current : Int) (nodes : List BookieNode) (queryPod : String) (magnitude : Nat)
    (time : Nat) (state : σ) :
    Shrunk (removal key settings queryPod) cancellation key spec current
      (Removal.candidates nodes magnitude) time
      ((shrink key spec settings current nodes queryPod magnitude).run backend cancellation time
        state).trace := by
  obtain ⟨removed, attempts, reason, middle, cleared, clears, finish, between, advance, listed, asked,
    ran⟩ := (removal key settings queryPod).run_course backend cancellation
      (Removal.candidates nodes magnitude) time state
  let summary := Removal.Summary.ofAttempts (Removal.Protocol.concluded attempts reason) reason
  have opened : ((shrink key spec settings current nodes queryPod magnitude).run backend cancellation
      time state).trace = removed ++ clears ++ (Program.run backend cancellation
        (if summary.delta = 0 then .done (.ok ())
        else patch key current (spec.target current summary.delta)) finish between).trace := by
    have first : shrink key spec settings current nodes queryPod magnitude =
        ((removal key settings queryPod).run (Removal.candidates nodes magnitude)).bind fun summary =>
          if summary.delta = 0 then .done (.ok ())
          else patch key current (spec.target current summary.delta) := rfl
    rw [first, Program.run_bind, ran]
    rfl
  rw [opened]
  refine .intro advance asked listed ?_
  by_cases none : summary.delta = 0
  · rw [if_pos none]
    have kept : spec.target current summary.delta = current := by simp [none, BookieSpec.target]
    exact .same kept
  · rw [if_neg none]
    exact patch_run backend cancellation key current _ finish between

/-- What a plan leads to, given how the evaluation came to it. -/
theorem carryOut_run {opening : Trace} {current : Int} {nodes : List BookieNode} {time : Nat}
    (surveyed : Surveyed backend cancellation key spec settings opening current nodes time)
    (state : σ) :
    Course backend cancellation key spec settings (opening ++
      ((carryOut key spec settings current nodes (spec.planFor nodes)).run backend cancellation time
        state).trace) := by
  cases planned : spec.planFor nodes with
  | hold => exact .spared (by simpa [carryOut] using surveyed.spares)
  | scaleUp count =>
      exact .grown surveyed planned (patch_run backend cancellation key current _ time state)
  | scaleDownIfReplicated count =>
      cases nodes with
      | nil => exact .spared (by simpa [carryOut] using surveyed.spares)
      | cons first rest =>
          obtain ⟨health, start, between, later, ran⟩ := Program.run_execute_bind backend cancellation
            (removal key settings first.pod).surveying
            (fun health => if Admin.saysHealthy health then
                shrink key spec settings current (first :: rest) first.pod count
              else .done (.ok ())) time state
          have looked : Asked id time [((removal key settings first.pod).surveying, health)] _ start :=
            .cons later (.nil start)
          have opened : carryOut key spec settings current (first :: rest)
              (.scaleDownIfReplicated count) =
            (Program.execute (removal key settings first.pod).surveying).bind fun health =>
              if Admin.saysHealthy health then
                shrink key spec settings current (first :: rest) first.pod count
              else .done (.ok ()) := rfl
          rw [opened, ran, Ended.after_trace, ← List.append_assoc]
          cases healthy : Admin.saysHealthy health with
          | true =>
              exact .shrunk surveyed planned looked healthy
                (shrink_run backend cancellation key spec settings current _ first.pod count start between)
          | false =>
              have look : ∀ event ∈ [Event.sent time (removal key settings first.pod).surveying,
                  .answered start (removal key settings first.pod).surveying health], event.Spares := by
                simp [Event.Within, BookieAction.touches, Removal.Protocol.surveying]
              exact .spared (by simpa using List.forall_mem_append.mpr ⟨surveyed.spares, look⟩)

theorem evaluate_run (sound : spec.defect? = none) {opening : Trace} {current : Int} {asked : Nat}
    (recorded : .called asked (.currentReplicas key) (.ok (some current)) ∈ opening)
    (spares : ∀ event ∈ opening, event.Spares) (time : Nat) (state : σ) :
    Course backend cancellation key spec settings
      (opening ++ ((evaluate key spec settings current).run backend cancellation time state).trace) := by
  unfold evaluate
  rw [Program.bind_eq, Program.run_bind, Ended.after_trace, ← List.append_assoc]
  have gate := Program.events_of_uses backend cancellation (Readiness.isReady_idles key
    settings.bookieContainer current spec.stabilizationWindowMs.toNat).looks.spares time state
  rcases ran : (Readiness.isReady key settings.bookieContainer current
    spec.stabilizationWindowMs.toNat).run backend cancellation time state with
    ⟨ready, looked, middle, between⟩
  rw [ran] at gate
  have past : ∀ event ∈ opening ++ looked, event.Spares := List.forall_mem_append.mpr ⟨spares, gate⟩
  match ready with
  | .error failure => exact .spared (by simpa using past)
  | .ok false => exact .spared (by simpa using past)
  | .ok true =>
      dsimp only
      rw [Program.bind_eq, Program.run_bind, Ended.after_trace, ← List.append_assoc]
      have queries := Program.events_of_uses backend cancellation
        (Survey.bookieNodes_looks key (bookieId key settings)).spares middle between
      rcases found : (Survey.bookieNodes key (bookieId key settings)).run backend cancellation middle
        between with ⟨nodes, surveyed, finish, last⟩
      rw [found] at queries
      cases nodes with
      | error failure =>
          exact .spared (by simpa using List.forall_mem_append.mpr ⟨past, queries⟩)
      | ok nodes =>
          have survey : Surveyed backend cancellation key spec settings (opening ++ looked ++ surveyed)
              current nodes finish :=
            .intro sound (List.mem_append_left _ recorded) past found
          exact carryOut_run backend cancellation key spec settings survey last

/-- What an evaluation does once it has asked for the recorded count. -/
def counted : Except Failure (Option Int) → Program (Except Failure Unit)
  | .error failure => .done (.error failure)
  | .ok none => .done (.ok ())
  | .ok (some current) =>
    (cleanUp key spec current).bind fun _ => evaluate key spec settings current

theorem run_eq (sound : spec.defect? = none) :
    run key spec settings = .call (.currentReplicas key) (counted key spec settings) := by
  unfold run
  rw [sound]
  refine congrArg (Program.call (.currentReplicas key)) (funext fun reply => ?_)
  rcases reply with failure | none | current <;> rfl

/-- What an evaluation does that finds its set settled, and has no volumes to clean up. -/
theorem run_surveyed {time middle finish : Nat} {state first second third : σ} {current : Int}
    {looked surveyed : Trace} {nodes : List BookieNode}
    (sound : spec.defect? = none) (keeps : spec.cleanUpPvcs = false)
    (recorded : backend.reply (.currentReplicas key) time state = (.ok (some current), first))
    (ready : (Readiness.isReady key settings.bookieContainer current spec.stabilizationWindowMs.toNat).run backend
      cancellation time first = ⟨.ok true, looked, middle, second⟩)
    (found : (Survey.bookieNodes key (bookieId key settings)).run backend cancellation middle second =
      ⟨.ok nodes, surveyed, finish, third⟩) :
    ((run key spec settings).run backend cancellation time state).trace =
      .called time (.currentReplicas key) (.ok (some current)) :: (looked ++ (surveyed ++
        ((carryOut key spec settings current nodes (spec.planFor nodes)).run backend cancellation finish
          third).trace)) := by
  have unswept : cleanUp key spec current = .done () := by
    unfold cleanUp
    rw [keeps]
    rfl
  rw [run_eq key spec settings sound]
  refine (congrArg Ended.trace (Program.run_call backend cancellation recorded)).trans ?_
  simp only [counted, unswept, Program.done_bind, evaluate, Program.bind_eq, Program.run_bind, ready, found,
    Ended.after_trace, List.singleton_append]

theorem counted_run (sound : spec.defect? = none) (reply : Except Failure (Option Int)) (time : Nat)
    (state : σ) :
    Course backend cancellation key spec settings (.called time (.currentReplicas key) reply ::
      ((counted key spec settings reply).run backend cancellation time state).trace) := by
  have called : ∀ event ∈ [Event.called time (.currentReplicas key) reply], event.Spares :=
    List.forall_mem_singleton.mpr rfl
  match reply with
  | .error failure => exact .spared called
  | .ok none => exact .spared called
  | .ok (some current) =>
      have cleaning := Program.events_of_uses backend cancellation
        (cleanUp_idles key spec current).looks.spares time state
      rcases cleaned : (cleanUp key spec current).run backend cancellation time state with
        ⟨⟨⟩, cleanup, middle, between⟩
      rw [cleaned] at cleaning
      have opened := evaluate_run backend cancellation key spec settings sound
        (List.mem_append_left cleanup (List.mem_singleton_self (Event.called time
          (.currentReplicas key) (.ok (some current)))))
        (List.forall_mem_append.mpr ⟨called, cleaning⟩) middle between
      have tail : ((counted key spec settings (.ok (some current))).run backend cancellation time
          state).trace =
          cleanup ++ ((evaluate key spec settings current).run backend cancellation middle
            between).trace := by
        simp only [counted, Program.run_bind, cleaned, Ended.after_trace]
      rw [tail]
      exact opened

/-- Every evaluation goes one of the ways. -/
theorem run_course (time : Nat) (state : σ) :
    Course backend cancellation key spec settings
      ((run key spec settings).run backend cancellation time state).trace := by
  cases sound : spec.defect? with
  | some defect => exact .spared (by simp [run, sound])
  | none =>
      rw [run_eq key spec settings sound]
      exact counted_run backend cancellation key spec settings sound _ time _

end BookieTask
end SetScaler
