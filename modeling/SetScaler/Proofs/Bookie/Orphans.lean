import SetScaler.Proofs.Bookie.Cancellation
import SetScaler.Proofs.Ordinal
import SetScaler.Proofs.Run.Delay

/-!
# The cleanup of volumes

A cleanup deletes the orphaned volumes and no other, each whatever came of the ones before it (`Swept`), and
triggers the audit of at most one bookie (`Audited`). What follows it is what an evaluation without a cleanup
does, only later (`run_cleans_up`).
-/

namespace SetScaler

namespace Cleanup

/-- A volume that belongs to no bookie that the count keeps, and that no listed pod mounts. -/
def Orphaned (count : Int) (pods : List Pod) (name : String) : Prop :=
  (∃ ordinal, ordinal? name = some ordinal ∧ count ≤ ordinal) ∧
    ∀ pod ∈ pods, ∀ spec, pod.spec = some spec → some name ∉ spec.claims

theorem isOrphan_iff {count : Int} {pods : List Pod} {name : String} :
    isOrphan count (pods.flatMap Pod.claims) name = true ↔ Orphaned count pods name := by
  have claimed : name ∈ pods.flatMap Pod.claims ↔
      ∃ pod ∈ pods, ∃ spec, pod.spec = some spec ∧ some name ∈ spec.claims := by
    simp only [List.mem_flatMap, Pod.claims]
    refine exists_congr fun pod => and_congr_right fun _ => ?_
    cases pod.spec <;> simp
  have unclaimed : (pods.flatMap Pod.claims).contains name = false ↔
      ∀ pod ∈ pods, ∀ spec, pod.spec = some spec → some name ∉ spec.claims := by
    rw [Bool.eq_false_iff, ne_eq, List.contains_iff_mem, claimed]
    simp only [not_exists, not_and]
  unfold isOrphan Orphaned
  cases ordinal? name with
  | none => simp
  | some ordinal =>
      simp only [Bool.and_eq_true, decide_eq_true_eq, Bool.not_eq_true', unclaimed, Option.some.injEq,
        exists_eq_left']

instance (count : Int) (pods : List Pod) : DecidablePred (Orphaned count pods) := fun _ =>
  decidable_of_iff _ isOrphan_iff

theorem orphans_eq (count : Int) (volumes : List (Option String)) (pods : List Pod) :
    orphans count volumes pods = (volumes.filterMap id).filter fun name => Orphaned count pods name := by
  refine List.filter_congr fun name _ => ?_
  exact Bool.eq_iff_iff.mpr (isOrphan_iff.trans decide_eq_true_iff.symm)

end Cleanup

/-- Whether an event is the deletion of a volume that succeeded. -/
def Event.deletes : Event → Bool
  | called _ (.deleteVolume ..) (.ok _) => true
  | _ => false

/-- Volumes are deleted in turn at one instant, with whatever answers. -/
def Deletions (ns : String) (time : Nat) (names : List String) (trace : Trace) : Prop :=
  List.Forall₂ (fun name event => ∃ reply, event = .called time (.deleteVolume ns name) reply) names trace

/-- The deletion of a set's orphaned volumes. -/
inductive Swept (key : SetKey) (count : Int) (time : Nat) : Trace → Prop where
  | unlisted {failure : Failure} : Swept key count time [.called time (.volumes key.ns key.selector) (.error failure)]
  | empty : Swept key count time [.called time (.volumes key.ns key.selector) (.ok [])]
  | unmounted {volumes : List (Option String)} {failure : Failure} : volumes ≠ [] →
      Swept key count time [.called time (.volumes key.ns key.selector) (.ok volumes),
        .called time (.pods key.ns key.selector) (.error failure)]
  | swept {volumes : List (Option String)} {pods : List Pod} {deletions : Trace} : volumes ≠ [] →
      Deletions key.ns time ((volumes.filterMap id).filter fun name => Cleanup.Orphaned count pods name) deletions →
      Swept key count time (.called time (.volumes key.ns key.selector) (.ok volumes) ::
        .called time (.pods key.ns key.selector) (.ok pods) :: deletions)

/-- The audit after so many deletions, and how long it takes. -/
inductive Audited (cancellation : Cancellation) (key : SetKey) (time : Nat) :
    (deleted : Nat) → Trace → (delay : Nat) → Prop where
  | none : Audited cancellation key time 0 [] 0
  | unlisted {deleted : Nat} {failure : Failure} : 0 < deleted →
      Audited cancellation key time deleted [.called time (.pods key.ns key.selector) (.error failure)] 0
  | nameless {deleted : Nat} {pods : List Pod} : 0 < deleted → pods.filterMap Pod.name = [] →
      Audited cancellation key time deleted [.called time (.pods key.ns key.selector) (.ok pods)] 0
  | cancelled {deleted : Nat} {pods : List Pod} : 0 < deleted → pods.filterMap Pod.name ≠ [] →
      cancellation.firedBy time = true →
      Audited cancellation key time deleted [.called time (.pods key.ns key.selector) (.ok pods)] 0
  | audited {deleted delay : Nat} {pods : List Pod} {pod : String} {output : Output} : 0 < deleted →
      pod ∈ pods.filterMap Pod.name → (∀ other ∈ pods.filterMap Pod.name, MemberName.le pod other = true) →
      cancellation.firedBy time = false →
      Audited cancellation key time deleted [.called time (.pods key.ns key.selector) (.ok pods),
        .sent time ⟨key.ns, pod, .triggerAudit⟩, .answered (time + delay) ⟨key.ns, pod, .triggerAudit⟩ output] delay

namespace Cleanup

/-- The deletions once the pods of a set are listed. -/
def afterPods (ns : String) (count : Int) (volumes : List (Option String)) : Except Failure (List Pod) → Program Nat
  | .error _ => .done 0
  | .ok pods => deleteEach ns (orphans count volumes pods)

/-- The deletions once the volumes of a set are listed. -/
def afterVolumes (key : SetKey) (count : Int) : Except Failure (List (Option String)) → Program Nat
  | .error _ => .done 0
  | .ok [] => .done 0
  | .ok (volume :: rest) => .call (.pods key.ns key.selector) (afterPods key.ns count (volume :: rest))

variable {σ : Type} (backend : Backend σ) (cancellation : Cancellation) (key : SetKey) (count : Int) (time : Nat)

theorem deleteEach_run (ns : String) (names : List String) (state : σ) :
    ∃ trace state', Deletions ns time names trace ∧
      (deleteEach ns names).run backend cancellation time state =
        ⟨trace.countP Event.deletes, trace, time, state'⟩ := by
  induction names generalizing state with
  | nil => exact ⟨[], state, .nil, rfl⟩
  | cons name rest ih =>
      rcases replied : backend.reply (.deleteVolume ns name) time state with ⟨answer, between⟩
      obtain ⟨trace, state', deletions, ran⟩ := ih between
      refine ⟨.called time (.deleteVolume ns name) answer :: trace, state', .cons ⟨answer, rfl⟩ deletions, ?_⟩
      have opened : deleteEach ns (name :: rest) = .call (.deleteVolume ns name) fun answer =>
          (deleteEach ns rest).bind fun others => .done ((if answer.toBool then 1 else 0) + others) := rfl
      rw [opened, Program.run_call backend cancellation replied, Program.run_bind, ran]
      cases answer with
      | error failure =>
          rw [List.countP_cons_of_neg Bool.false_ne_true]
          simp [Ended.after, Except.toBool]
      | ok done =>
          rw [List.countP_cons_of_pos rfl]
          simp [Ended.after, Except.toBool, Nat.add_comm]

theorem afterPods_run {volumes : List (Option String)} (some_volume : volumes ≠ [])
    (pods : Except Failure (List Pod)) (state : σ) :
    ∃ trace state', Swept key count time (.called time (.volumes key.ns key.selector) (.ok volumes) ::
        .called time (.pods key.ns key.selector) pods :: trace) ∧
      (afterPods key.ns count volumes pods).run backend cancellation time state =
        ⟨trace.countP Event.deletes, trace, time, state'⟩ := by
  cases pods with
  | error failure => exact ⟨[], state, .unmounted some_volume, rfl⟩
  | ok pods =>
      obtain ⟨trace, state', deletions, ran⟩ :=
        deleteEach_run backend cancellation time key.ns (orphans count volumes pods) state
      rw [orphans_eq] at deletions
      exact ⟨trace, state', .swept some_volume deletions, ran⟩

theorem afterVolumes_run (volumes : Except Failure (List (Option String))) (state : σ) :
    ∃ trace state', Swept key count time (.called time (.volumes key.ns key.selector) volumes :: trace) ∧
      (afterVolumes key count volumes).run backend cancellation time state =
        ⟨trace.countP Event.deletes, trace, time, state'⟩ := by
  match volumes with
  | .error failure => exact ⟨[], state, .unlisted, rfl⟩
  | .ok [] => exact ⟨[], state, .empty, rfl⟩
  | .ok (volume :: rest) =>
      rcases mounted : backend.reply (.pods key.ns key.selector) time state with ⟨pods, between⟩
      obtain ⟨trace, state', swept, ran⟩ :=
        afterPods_run backend cancellation key count time (List.cons_ne_nil volume rest) pods between
      refine ⟨_, state', swept, ?_⟩
      refine (Program.run_call backend cancellation mounted).trans ?_
      rw [ran, List.countP_cons_of_neg Bool.false_ne_true]
      rfl

theorem sweep_eq : sweep key count = .call (.volumes key.ns key.selector) (afterVolumes key count) := by
  refine congrArg (Program.call _) (funext fun volumes => ?_)
  rcases volumes with failure | _ | ⟨volume, rest⟩
  · rfl
  · rfl
  · refine congrArg (Program.call _) (funext fun pods => ?_)
    cases pods <;> rfl

theorem sweep_run (state : σ) :
    ∃ trace state', Swept key count time trace ∧
      (sweep key count).run backend cancellation time state =
        ⟨trace.countP Event.deletes, trace, time, state'⟩ := by
  rcases listed : backend.reply (.volumes key.ns key.selector) time state with ⟨volumes, between⟩
  obtain ⟨trace, state', swept, ran⟩ := afterVolumes_run backend cancellation key count time volumes between
  refine ⟨_, state', swept, ?_⟩
  rw [sweep_eq]
  refine (Program.run_call backend cancellation listed).trans ?_
  rw [ran, List.countP_cons_of_neg Bool.false_ne_true]
  rfl

/-- The audit once the pods are listed again. -/
def afterRelisting (key : SetKey) : Except Failure (List String) → Program Unit
  | .error _ => .done ()
  | .ok [] => .done ()
  | .ok (pod :: _) => .look fun cancelled =>
    if cancelled then .done () else .exec ⟨key.ns, pod, .triggerAudit⟩ fun _ => .done ()

/-- The audit after so many deletions. -/
def audit (key : SetKey) (deleted : Nat) : Program Unit :=
  if deleted = 0 then .done () else (Survey.podNames key).bind (afterRelisting key)

theorem run_eq : run key count = (sweep key count).bind (audit key) := by
  refine congrArg (Program.bind _) (funext fun deleted => ?_)
  refine congrArg (ite (deleted = 0) (Program.done ())) ?_
  refine congrArg (Program.bind _) (funext fun names => ?_)
  rcases names with failure | _ | ⟨pod, rest⟩
  · rfl
  · rfl
  · refine congrArg Program.look (funext fun cancelled => ?_)
    cases cancelled with
    | true => rfl
    | false =>
      refine congrArg (Program.exec _) (funext fun output => ?_)
      cases output <;> rfl

theorem namesOf_nil_iff {pods : List Pod} : Survey.namesOf pods = [] ↔ pods.filterMap Pod.name = [] := by
  have size := (sortByOrdinal_perm id (pods.filterMap Pod.name)).length_eq
  rw [← List.length_eq_zero_iff, ← List.length_eq_zero_iff, Survey.namesOf, size]

/-- The first of the named pods is the one of the lowest ordinal. -/
theorem first_of_namesOf {pods : List Pod} {pod : String} {rest : List String}
    (names : Survey.namesOf pods = pod :: rest) :
    pod ∈ pods.filterMap Pod.name ∧ ∀ other ∈ pods.filterMap Pod.name, MemberName.le pod other = true := by
  have listed (name : String) : name ∈ Survey.namesOf pods ↔ name ∈ pods.filterMap Pod.name :=
    (sortByOrdinal_perm id _).mem_iff
  have ordered := Survey.namesOf_pairwise pods
  rw [names] at ordered
  refine ⟨(listed pod).mp (names ▸ List.mem_cons_self), fun other named => ?_⟩
  rw [← listed, names] at named
  rcases List.mem_cons.mp named with rfl | later
  · simpa using MemberName.le_total other other
  · exact (List.pairwise_cons.mp ordered).1 other later

theorem afterRelisting_run {deleted : Nat} (some_deleted : 0 < deleted) (pods : Except Failure (List Pod))
    (state : σ) :
    ∃ trace delay state', Audited cancellation key time deleted
        (.called time (.pods key.ns key.selector) pods :: trace) delay ∧
      (afterRelisting key (pods.map Survey.namesOf)).run backend cancellation time state =
        ⟨(), trace, time + delay, state'⟩ := by
  cases pods with
  | error failure => exact ⟨[], 0, state, .unlisted some_deleted, rfl⟩
  | ok pods =>
      cases names : Survey.namesOf pods with
      | nil =>
          refine ⟨[], 0, state, .nameless some_deleted (namesOf_nil_iff.mp names), ?_⟩
          simp [Except.map, names, afterRelisting]
      | cons pod rest =>
          obtain ⟨named, first⟩ := first_of_namesOf names
          cases fired : cancellation.firedBy time with
          | true =>
              refine ⟨[], 0, state, .cancelled some_deleted (List.ne_nil_of_mem named) fired, ?_⟩
              simp [Except.map, names, afterRelisting, Program.run, fired]
          | false =>
              let told : BookieCommand := ⟨key.ns, pod, .triggerAudit⟩
              let answer := backend.output told time state
              refine ⟨[.sent time told, .answered (time + answer.1.1) told answer.1.2], answer.1.1, answer.2,
                .audited some_deleted named first fired, ?_⟩
              simp [Except.map, names, afterRelisting, Program.run, fired, Ended.after, told, answer]

theorem audit_run (deleted : Nat) (state : σ) :
    ∃ trace delay state', Audited cancellation key time deleted trace delay ∧
      (audit key deleted).run backend cancellation time state = ⟨(), trace, time + delay, state'⟩ := by
  rcases Nat.eq_zero_or_pos deleted with rfl | some_deleted
  · exact ⟨[], 0, state, .none, rfl⟩
  · rcases listed : backend.reply (.pods key.ns key.selector) time state with ⟨pods, between⟩
    obtain ⟨trace, delay, state', audited, ran⟩ :=
      afterRelisting_run backend cancellation key time some_deleted pods between
    refine ⟨_, delay, state', audited, ?_⟩
    have opened : audit key deleted = .call (.pods key.ns key.selector) fun pods =>
        afterRelisting key (pods.map Survey.namesOf) := by
      refine (if_neg (Nat.ne_of_gt some_deleted)).trans (congrArg (Program.call _) (funext fun pods => ?_))
      cases pods <;> rfl
    rw [opened, Program.run_call backend cancellation listed, ran]
    rfl

end Cleanup

def Request.isDeletion : Request → Bool
  | deleteVolume .. => true
  | _ => false

def BookieAction.isAudit : BookieAction → Bool
  | triggerAudit => true
  | _ => false

/-- An event that neither deletes a volume nor triggers an audit. -/
abbrev Event.Tidy (event : Event) : Prop :=
  event.Within (fun request => request.isDeletion = false) fun command => command.action.isAudit = false

/-- A program that neither deletes a volume nor triggers an audit. -/
abbrev Program.Tidy {α : Type} (program : Program α) : Prop :=
  program.Uses (fun request => request.isDeletion = false) fun command => command.action.isAudit = false

theorem Program.forall_run_bind {σ α β : Type} {backend : Backend σ} {cancellation : Cancellation}
    {holds : Event → Prop} {program : Program α} {next : α → Program β} {time : Nat} {state : σ}
    (first : ∀ event ∈ (program.run backend cancellation time state).trace, holds event)
    (rest : ∀ result time state, ∀ event ∈ ((next result).run backend cancellation time state).trace, holds event) :
    ∀ event ∈ ((program.bind next).run backend cancellation time state).trace, holds event := by
  rw [run_bind]
  exact List.forall_mem_append.mpr ⟨first, rest _ _ _⟩

theorem Readiness.isReady_tidy (key : SetKey) (container : String) (expected : Int) (windowMs : Nat) :
    (isReady key container expected windowMs).Tidy := by
  refine ⟨rfl, fun ready => ?_⟩
  match ready with
  | .error _ => trivial
  | .ok none => trivial
  | .ok (some ready) =>
      change Program.Tidy (if ready ≠ expected then _ else _)
      split
      · trivial
      · refine ⟨rfl, fun pods => ?_⟩
        cases pods with
        | error => trivial
        | ok => trivial

theorem Survey.bookieNodes_tidy (key : SetKey) (bookieId : String → String) : (bookieNodes key bookieId).Tidy := by
  rw [bookieNodes_eq]
  refine ⟨rfl, fun pods => ?_⟩
  cases pods with
  | error => trivial
  | ok pods =>
      refine ⟨fun row mem => ?_, fun _ => trivial⟩
      obtain ⟨pod, -, rfl⟩ := List.mem_map.mp mem
      simp [queriesOf, BookieAction.isAudit]

namespace BookieTask

theorem Patched.tidy {key : SetKey} {current target : Int} {trace : Trace}
    (patched : Patched key current target trace) : ∀ event ∈ trace, event.Tidy := by
  cases patched with
  | same => exact List.forall_mem_nil _
  | asked => exact List.forall_mem_singleton.mpr rfl

theorem Shrunk.tidy {protocol : Removal.Protocol} {cancellation : Cancellation} {key : SetKey}
    {spec : BookieSpec} {current : Int} {nodes : List BookieNode} {start : Nat} {trace : Trace}
    (shrunk : Shrunk protocol cancellation key spec current nodes start trace) : ∀ event ∈ trace, event.Tidy := by
  cases shrunk with
  | intro advance clearing _ patched =>
      refine List.forall_mem_append.mpr ⟨List.forall_mem_append.mpr ⟨?_, ?_⟩, patched.tidy⟩
      · exact advance.within rfl fun _ _ => ⟨rfl, rfl, rfl, rfl, rfl⟩
      · exact clearing.within fun _ _ => rfl

variable {σ : Type} (backend : Backend σ) (cancellation : Cancellation) (key : SetKey)
  (spec : BookieSpec) (settings : ScalingSettings) (current : Int)

theorem carryOut_tidy (nodes : List BookieNode) (plan : BookiePlan) (time : Nat) (state : σ) :
    ∀ event ∈ ((carryOut key spec settings current nodes plan).run backend cancellation time state).trace,
      event.Tidy := by
  match plan, nodes with
  | .hold, _ => exact List.forall_mem_nil _
  | .scaleUp count, _ => exact (patch_run backend cancellation key current _ time state).tidy
  | .scaleDownIfReplicated _, [] => exact List.forall_mem_nil _
  | .scaleDownIfReplicated count, first :: rest =>
      refine Program.forall_run_bind (Program.events_of_uses backend cancellation ?_ time state) ?_
      · exact ⟨rfl, fun _ => trivial⟩
      · intro healthy time state
        cases healthy with
        | true => exact (shrink_run backend cancellation key spec settings current _ first.pod count time state).tidy
        | false => exact List.forall_mem_nil _

theorem evaluate_tidy (time : Nat) (state : σ) :
    ∀ event ∈ ((evaluate key spec settings current).run backend cancellation time state).trace, event.Tidy := by
  refine Program.forall_run_bind (Program.events_of_uses backend cancellation
    (Readiness.isReady_tidy key settings.bookieContainer current spec.stabilizationWindowMs.toNat) time state) ?_
  intro ready time state
  match ready with
  | .error _ => exact List.forall_mem_nil _
  | .ok false => exact List.forall_mem_nil _
  | .ok true =>
      refine Program.forall_run_bind (Program.events_of_uses backend cancellation
        (Survey.bookieNodes_tidy key (bookieId key settings)) time state) ?_
      intro nodes time state
      cases nodes with
      | error => exact List.forall_mem_nil _
      | ok nodes => exact carryOut_tidy backend cancellation key spec settings current nodes _ time state

/-- How an evaluation begins that cleans up: its events up to the recorded count, those of the cleanup, and how
long that takes. -/
inductive CleansUp (cancellation : Cancellation) (key : SetKey) (spec : BookieSpec) (time : Nat) :
    (opening cleanup : Trace) → (delay : Nat) → Prop where
  | refused : spec.defect? ≠ none → CleansUp cancellation key spec time [] [] 0
  | unrecorded {reply : Except Failure (Option Int)} : (∀ count, reply ≠ .ok (some count)) →
      CleansUp cancellation key spec time [.called time (.currentReplicas key) reply] [] 0
  | cleaned {count : Int} {sweep audit : Trace} {delay : Nat} : Swept key count time sweep →
      Audited cancellation key time (sweep.countP Event.deletes) audit delay →
      CleansUp cancellation key spec time [.called time (.currentReplicas key) (.ok (some count))]
        (sweep ++ audit) delay

theorem cleanUp_run (cleans : spec.cleanUpPvcs = true) (count : Int) (time : Nat) (state : σ) :
    ∃ sweep audit delay state', Swept key count time sweep ∧
      Audited cancellation key time (sweep.countP Event.deletes) audit delay ∧
      (cleanUp key spec count).run backend cancellation time state = ⟨(), sweep ++ audit, time + delay, state'⟩ := by
  obtain ⟨sweep, between, swept, swept_run⟩ := Cleanup.sweep_run backend cancellation key count time state
  obtain ⟨audit, delay, state', audited, audit_run⟩ :=
    Cleanup.audit_run backend cancellation key time (sweep.countP Event.deletes) between
  refine ⟨sweep, audit, delay, state', swept, audited, ?_⟩
  rw [cleanUp, if_pos cleans, Cleanup.run_eq, Program.run_bind, swept_run]
  dsimp only
  rw [audit_run]
  rfl

/-- Once the recorded count is read, there is the cleanup and then all else. -/
theorem counted_cleans_up (cleans : spec.cleanUpPvcs = true) (reply : Except Failure (Option Int)) (time : Nat)
    (state : σ) :
    let plain := (counted key { spec with cleanUpPvcs := false } settings reply).run backend none time state
    ∃ (cleanup later : Trace) (delay : Nat) (ended : Ended σ (Except Failure Unit)),
      (counted key spec settings reply).run backend cancellation time state = ended ∧
      CleansUp cancellation key spec time [.called time (.currentReplicas key) reply] cleanup delay ∧
      ended.trace = cleanup ++ later ∧ (∀ event ∈ later, event.Tidy) ∧
      (cancellation = none → backend.Constant → ended.result = plain.result ∧ ended.time = plain.time + delay ∧
        later = plain.trace.later delay) := by
  match reply with
  | .error failure =>
      intro plain
      exact ⟨[], [], 0, _, rfl, .unrecorded nofun, rfl, List.forall_mem_nil _, fun _ _ => ⟨rfl, rfl, rfl⟩⟩
  | .ok none =>
      intro plain
      exact ⟨[], [], 0, _, rfl, .unrecorded nofun, rfl, List.forall_mem_nil _, fun _ _ => ⟨rfl, rfl, rfl⟩⟩
  | .ok (some count) =>
      intro plain
      obtain ⟨sweep, audit, delay, between, swept, audited, ran⟩ :=
        cleanUp_run backend cancellation key spec cleans count time state
      have opened : (counted key spec settings (.ok (some count))).run backend cancellation time state =
          ((evaluate key spec settings count).run backend cancellation (time + delay) between).after
            (sweep ++ audit) := by
        rw [counted, Program.run_bind, ran]
      refine ⟨sweep ++ audit, _, delay, _, opened, .cleaned swept audited, rfl,
        evaluate_tidy backend cancellation key spec settings count (time + delay) between, ?_⟩
      rintro rfl constant
      have late := (evaluate key spec settings count).run_later constant delay time state between
      exact ⟨late.result, late.time, late.trace⟩

/-- A cluster of one bookie with the volume of a second one left over, and one volume without a name. An audit
takes five milliseconds. -/
def leftover : Backend Unit where
  reply request time state :=
    match request with
    | .volumes .. => (.ok [some "ledgers-bk-bookkeeper-0", none, some "ledgers-bk-bookkeeper-1"], ())
    | other => loneBackend.reply other time state
  output command time state :=
    if command.action = .triggerAudit then ((5, .ok ""), ()) else loneBackend.output command time state

theorem leftover_constant : leftover.Constant where
  reply request _ _ _ _ := by cases request <;> rfl
  output command _ _ _ _ := by
    simp only [leftover]
    split <;> rfl

end BookieTask
end SetScaler
