import SetScaler.Proofs.Bookie.Downscale
import SetScaler.Proofs.Removal.Rollback

/-!
# Cancelling an evaluation

A cancellation that fires before the wait of a removal is over keeps the evaluation from all that
follows the wait, and the flags that were set are cleared. One that fires later has no effect at all
(`run_cancelled`).
-/

namespace SetScaler

namespace Trace

/-- Wherever a trace sets a read-only flag, it clears that flag later on. -/
def Restores (trace : Trace) : Prop :=
  ∀ before after instant ns pod, trace = before ++ .sent instant ⟨ns, pod, .setReadOnly true⟩ :: after →
    ⟨ns, pod, .setReadOnly false⟩ ∈ sends after

theorem Restores.of_spares {trace : Trace} (spares : ∀ event ∈ trace, event.Spares) :
    trace.Restores := by
  intro before after instant ns pod cut
  have set : .sent instant ⟨ns, pod, .setReadOnly true⟩ ∈ trace := by simp [cut]
  cases spares _ set

theorem Restores.after_spares {first second : Trace} (spares : ∀ event ∈ first, event.Spares)
    (restores : second.Restores) : Restores (first ++ second) := by
  intro before after instant ns pod cut
  have unset : .sent instant ⟨ns, pod, .setReadOnly true⟩ ∉ first := fun set => by cases spares _ set
  obtain ⟨later, -, tail⟩ := cut_after unset cut
  exact restores later after instant ns pod tail

/-- The waits of a trace, by when they ended and whether a cancellation ended them. -/
def waits (trace : Trace) : List (Nat × Bool) :=
  trace.filterMap fun event => match event with
    | .settled time cancelled => some (time, cancelled)
    | _ => none

theorem mem_waits {trace : Trace} {time : Nat} {cancelled : Bool} :
    (time, cancelled) ∈ trace.waits ↔ .settled time cancelled ∈ trace := by
  constructor
  · intro mem
    obtain ⟨event, happened, seen⟩ := List.mem_filterMap.mp mem
    cases event with
    | settled =>
        cases seen
        exact happened
    | called | sent | answered => cases seen
  · intro settled
    exact List.mem_filterMap.mpr ⟨_, settled, rfl⟩

end Trace

namespace Removal

theorem Settled.mem {protocol : Protocol} {cancellation : Cancellation} {nodes : List BookieNode}
    {start settled : Nat} {trace : Trace}
    (before : Settled protocol cancellation nodes start trace settled) : .settled settled false ∈ trace := by
  obtain ⟨marks, ready, rfl, -, -⟩ := before
  simp

theorem Recovered.settled {protocol : Protocol} {cancellation : Cancellation}
    {nodes : List BookieNode} {start finish : Nat} {trace : Trace}
    (recovered : Recovered protocol cancellation nodes start trace finish) :
    ∃ instant, .settled instant false ∈ trace := by
  obtain ⟨waited, recoveries, settled, rfl, before, -⟩ := recovered
  exact ⟨settled, List.mem_append_left _ before.mem⟩

namespace Advance

variable {protocol : Protocol} {cancellation : Cancellation} {nodes : List BookieNode}
  {start finish : Nat} {trace : Trace} {attempts : List Attempt} {reason : Option Reason}

/-- A removal that is not through its wait is abandoned. -/
theorem abandoned_of_unsettled
    (advance : Advance protocol cancellation nodes start trace attempts reason finish)
    (unsettled : trace.Unsettled) : ∃ why, reason = some why := by
  cases advance with
  | rejected | cancelled => exact ⟨_, rfl⟩
  | recoveryFailed before => exact absurd (List.mem_append_left _ before.mem) (unsettled _)
  | unhealthy before =>
      obtain ⟨instant, settled⟩ := before.settled
      exact absurd (by simp [settled]) (unsettled instant)
  | deleted before =>
      obtain ⟨instant, settled⟩ := before.settled
      exact absurd (by simp [settled]) (unsettled instant)

/-- Flags are set on candidates only. -/
theorem marks_candidates
    (advance : Advance protocol cancellation nodes start trace attempts reason finish) {time : Nat}
    {ns pod : String} (sent : .sent time ⟨ns, pod, .setReadOnly true⟩ ∈ trace) :
    ns = protocol.ns ∧ ∃ node ∈ nodes, node.pod = pod := by
  let marks (command : BookieCommand) : Prop := command.action = .setReadOnly true →
    command.ns = protocol.ns ∧ ∃ node ∈ nodes, node.pod = command.pod
  have drives : ∀ node ∈ nodes, protocol.Drives marks node := by
    intro node mem
    exact {
      marking := fun _ => ⟨rfl, node, mem, rfl⟩
      recovering := nofun
      listing := nofun
      deleting := nofun
      retiring := nofun }
  have all : ∀ event ∈ trace, event.Within (fun _ => True) marks := advance.within nofun drives
  exact all _ sent rfl

/-- A removal that clears the flags of all its candidates restores each flag that it has set. -/
theorem restores (advance : Advance protocol cancellation nodes start trace attempts reason finish)
    {clears : Trace} {cleared : List (BookieNode × Output)} {last : Nat}
    (clearing : Asked protocol.clearing finish cleared clears last)
    (all : cleared.map Prod.fst = nodes) : Trace.Restores (trace ++ clears) := by
  have clears_all : clears.sends = nodes.map protocol.clearing := by
    rw [clearing.trace_sends, ← all, List.map_map]
    rfl
  intro before after instant ns pod cut
  rcases Trace.cut_append cut with ⟨middle, split⟩ | ⟨later, -, split⟩
  · have marked : .sent instant ⟨ns, pod, .setReadOnly true⟩ ∈ trace := by simp [split]
    obtain ⟨rfl, node, candidate, rfl⟩ := advance.marks_candidates marked
    have tail : middle ++ clears = after := by
      simpa [split] using cut
    rw [← tail, Trace.sends_append, clears_all]
    exact List.mem_append_right _ (List.mem_map_of_mem candidate)
  · have cleared : ⟨ns, pod, .setReadOnly true⟩ ∈ clears.sends :=
      Trace.mem_sends.mpr ⟨instant, by simp [split]⟩
    rw [clears_all] at cleared
    obtain ⟨node, -, same⟩ := List.mem_map.mp cleared
    cases same

end Advance
end Removal

namespace BookieTask

section Course

variable {σ : Type} {backend : Backend σ} {cancellation : Cancellation} {key : SetKey}
  {spec : BookieSpec} {settings : ScalingSettings} {trace : Trace}

/-- A removal that is not through its wait leaves the count alone and every flag cleared. -/
theorem Shrunk.withheld {protocol : Removal.Protocol} {current : Int} {nodes : List BookieNode}
    {start : Nat} (shrunk : Shrunk protocol cancellation key spec current nodes start trace)
    (unsettled : trace.Unsettled) : trace.patches = [] ∧ trace.Restores := by
  cases shrunk with
  | @intro removed clears patches attempts reason cleared middle finish advance clearing stays patched =>
      obtain ⟨why, rfl⟩ := advance.abandoned_of_unsettled fun instant settled =>
        unsettled instant (by simp [settled])
      let summary := Removal.Summary.ofAttempts (Removal.Protocol.concluded attempts (some why)) (some why)
      have stay := advance.stays_of_abandoned
      have everyone : summary.staying = nodes :=
        Removal.staying_of_stays advance.concluded_map_node stay
      have unmoved : summary.delta = 0 := by
        have none_gone : summary.removed = 0 := List.countP_eq_zero.mpr (by simpa using stay)
        rw [Removal.Summary.delta_ofAttempts, none_gone]
        rfl
      have kept : spec.target current summary.delta = current := by simp [unmoved, BookieSpec.target]
      rw [kept] at patched
      cases patched with
      | asked changed => exact absurd rfl changed
      | same =>
          rw [List.append_nil]
          refine ⟨?_, advance.restores clearing (stays.trans everyone)⟩
          rw [Trace.patches_append, advance.patches, clearing.patches]
          rfl

/-- An evaluation that is not through the wait of a removal does not lower the count, and every flag
that it has set is cleared. -/
theorem Course.withheld (course : Course backend cancellation key spec settings trace)
    (unsettled : trace.Unsettled) :
    trace.Restores ∧ ∀ patch ∈ trace.patches, patch.1 = key ∧ ∃ time current,
      .called time (.currentReplicas key) (.ok (some current)) ∈ trace ∧ current ≤ patch.2 := by
  cases course with
  | spared spares =>
      refine ⟨.of_spares spares, ?_⟩
      rw [Trace.patches_eq_nil _ spares]
      simp
  | @grown opening patches current nodes count finish surveyed _ patched =>
      have patch_sets : patches.Restores := by
        intro before after instant ns pod cut
        have set : .sent instant ⟨ns, pod, .setReadOnly true⟩ ∈ patches := by simp [cut]
        exact absurd set patched.not_sent
      refine ⟨patch_sets.after_spares surveyed.spares, ?_⟩
      rw [Trace.patches_append, Trace.patches_eq_nil _ surveyed.spares, patched.patches, List.nil_append]
      have raised := BookieSpec.le_target_up spec current count
      cases surveyed with
      | intro _ recorded _ _ =>
          split
          · simp
          · intro patch mem
            cases List.mem_singleton.mp mem
            exact ⟨rfl, _, current, List.mem_append_left _ (List.mem_append_left _ recorded), raised⟩
  | @shrunk opening look shrinking current first rest magnitude asked start health surveyed planned
      looked healthy shrunk =>
      obtain ⟨unpatched, restores⟩ := shrunk.withheld fun instant settled =>
        unsettled instant (by simp [settled])
      have looking : ∀ event ∈ look, event.Spares :=
        looked.within (by simp [BookieAction.touches, Removal.Protocol.surveying])
      have spares : ∀ event ∈ opening ++ look, event.Spares :=
        List.forall_mem_append.mpr ⟨surveyed.spares, looking⟩
      refine ⟨restores.after_spares spares, ?_⟩
      rw [Trace.patches_append, Trace.patches_eq_nil _ spares, unpatched]
      simp

end Course

/-- A program that heeds its cancellation, does not read the recorded count, and before the end of a
wait sends nothing but what may be sent by then. -/
abbrev Heeded {α : Type} (program : Program α) : Prop :=
  program.Heeds (fun request => request.isRead = false) BookieCommand.Early

theorem Heeded.after_looks {α β : Type} {program : Program α} {next : α → Program β}
    (looks : program.Looks) (rest : ∀ result, Heeded (next result)) : Heeded (program.bind next) :=
  Program.Waitless.bind_heeds (looks.mono (fun _ neither => neither.2) fun _ gentle => gentle.2) rest

section Heeds

variable (key : SetKey) (spec : BookieSpec) (settings : ScalingSettings) (current : Int)

theorem patch_deaf (target : Int) :
    (patch key current target).Deaf (fun request => request.isRead = false) BookieCommand.Early := by
  by_cases same : target = current
  · have kept : patch key current target = .done (.ok ()) := if_pos same
    rw [kept]
    trivial
  · have recorded : patch key current target = Program.ask (.patchReplicas key target) := if_neg same
    rw [recorded]
    exact ⟨rfl, fun _ => trivial⟩

theorem shrink_heeds (nodes : List BookieNode) (queryPod : String) (magnitude : Nat) :
    Heeded (shrink key spec settings current nodes queryPod magnitude) := by
  refine (Removal.Protocol.run_heeds _ _).bind fun summary => ?_
  split
  · trivial
  · exact patch_deaf key current _

theorem carryOut_heeds (nodes : List BookieNode) (plan : BookiePlan) :
    Heeded (carryOut key spec settings current nodes plan) := by
  match plan, nodes with
  | .hold, _ => trivial
  | .scaleUp count, _ => exact (patch_deaf key current _).waitless.heeds
  | .scaleDownIfReplicated _, [] => trivial
  | .scaleDownIfReplicated count, first :: rest =>
      refine ⟨rfl, fun health => ?_⟩
      change Program.Heeds _ _ (if Admin.saysHealthy health = true then _ else _)
      split
      · exact shrink_heeds key spec settings current _ first.pod count
      · trivial

theorem evaluate_heeds : Heeded (evaluate key spec settings current) := by
  refine .after_looks (Readiness.isReady_idles key settings.bookieContainer current
    spec.stabilizationWindowMs.toNat).looks fun ready => ?_
  match ready with
  | .error _ => trivial
  | .ok false => trivial
  | .ok true =>
      refine .after_looks (Survey.bookieNodes_looks key (bookieId key settings)) fun nodes => ?_
      cases nodes with
      | error => trivial
      | ok nodes => exact carryOut_heeds key spec settings current nodes (spec.planFor nodes)

theorem counted_heeds (reply : Except Failure (Option Int)) :
    Heeded (counted key spec settings reply) := by
  match reply with
  | .error _ => trivial
  | .ok none => trivial
  | .ok (some current) =>
      exact .after_looks (cleanUp_idles key spec current).looks fun _ => evaluate_heeds key spec settings current

theorem run_heeds : (run key spec settings).Heeds (fun _ => True) BookieCommand.Early := by
  cases sound : spec.defect? with
  | some defect =>
      have refused : run key spec settings = .done (.error (.invalidSpec defect)) := by simp [run, sound]
      rw [refused]
      trivial
  | none =>
      rw [run_eq key spec settings sound]
      exact ⟨trivial, fun reply =>
        (counted_heeds key spec settings reply).mono (fun _ _ => trivial) fun _ early => early⟩

/-- An evaluation reads the recorded count once, at its beginning. -/
theorem read_first {σ : Type} {backend : Backend σ} {cancellation : Cancellation}
    {time instant : Nat} {state : σ} {reply : (Request.currentReplicas key).Result}
    (read : .called instant (.currentReplicas key) reply ∈
      ((run key spec settings).run backend cancellation time state).trace) :
    ∃ rest, ((run key spec settings).run backend cancellation time state).trace =
      .called instant (.currentReplicas key) reply :: rest := by
  cases sound : spec.defect? with
  | some defect => simp [run, sound] at read
  | none =>
      rw [run_eq key spec settings sound] at read ⊢
      rcases List.mem_cons.mp read with same | late
      · exact ⟨_, by rw [same]; rfl⟩
      · have unread := Program.events_of_uses backend cancellation
          (counted_heeds key spec settings _).uses _ _ _ late
        cases unread

end Heeds

/-- What an evaluation comes to if it is cancelled before the wait of its removal is over. -/
structure Withheld (key : SetKey) (trace : Trace) : Prop where
  /-- Nothing is recovered, listed, deleted or moved aside. -/
  unsent : ∀ command ∈ trace.sends, command.action.followsWait = false
  /-- The count is not lowered: none is recorded below the one that the evaluation began with. -/
  kept : ∀ patch ∈ trace.patches, patch.1 = key ∧ ∃ time current rest,
    trace = .called time (.currentReplicas key) (.ok (some current)) :: rest ∧ current ≤ patch.2
  restored : trace.Restores

theorem withheld_of_unsettled {σ : Type} {backend : Backend σ} {cancellation : Cancellation}
    {key : SetKey} {spec : BookieSpec} {settings : ScalingSettings} {time : Nat} {state : σ}
    (unsettled : Trace.Unsettled ((run key spec settings).run backend cancellation time state).trace) :
    Withheld key ((run key spec settings).run backend cancellation time state).trace := by
  obtain ⟨restored, raises⟩ :=
    (run_course backend cancellation key spec settings time state).withheld unsettled
  have early := (run_heeds key spec settings).within_of_unsettled backend unsettled
  refine ⟨fun command mem => ?_, fun patch mem => ?_, restored⟩
  · obtain ⟨instant, sent⟩ := Trace.mem_sends.mp mem
    exact early _ sent
  · obtain ⟨same, instant, current, read, upto⟩ := raises patch mem
    obtain ⟨rest, first⟩ := read_first key spec settings read
    exact ⟨same, instant, current, rest, first, upto⟩

/-- Whether a cancellation has any effect is decided when the wait of a removal ends. If it fires before
that, the evaluation is kept from all that follows the wait; if it has not fired by then, the evaluation
goes as if it were never cancelled. -/
theorem run_cancelled {σ : Type} (backend : Backend σ) (cancellation : Cancellation) (key : SetKey)
    (spec : BookieSpec) (settings : ScalingSettings) (time : Nat) (state : σ) :
    let ended := (run key spec settings).run backend cancellation time state
    let undisturbed := (run key spec settings).run backend none time state
    ((∀ instant, .settled instant false ∈ undisturbed.trace → cancellation.firedBy instant = true) →
      Withheld key ended.trace) ∧
    ∀ instant, .settled instant false ∈ undisturbed.trace → cancellation.firedBy instant = false →
      ended = undisturbed := by
  intro ended undisturbed
  have heeds := run_heeds key spec settings
  refine ⟨fun fires => withheld_of_unsettled fun instant settled => ?_, fun instant settled unfired => ?_⟩
  · -- a run that is through its wait goes as the undisturbed one, which would be through it as well
    have same : undisturbed = ended := heeds.run_eq_of_settled backend settled rfl
    have unfired := (Program.settled_bounds backend settled).2 rfl
    have through : .settled instant false ∈ undisturbed.trace := by
      rw [same]
      exact settled
    rw [fires instant through] at unfired
    cases unfired
  · exact heeds.run_eq_of_settled backend settled unfired

/-- Cancelled in the midst of the wait, an evaluation has told both candidates to be read-only and clears both
flags; cancelled after the wait, it lowers the count as if nothing had happened. -/
theorem run_cancelled_crew :
    let run (cancellation : Cancellation) := (run loneKey crewSpec {}).run (crew 3 3) cancellation 0 ()
    Withheld loneKey (run (some 5000)).trace ∧
      ((run (some 5000)).trace.sends.filter fun command => command.action.touches) =
        [⟨"ns", "bk-bookkeeper-1", .setReadOnly true⟩, ⟨"ns", "bk-bookkeeper-2", .setReadOnly true⟩,
          ⟨"ns", "bk-bookkeeper-1", .setReadOnly false⟩, ⟨"ns", "bk-bookkeeper-2", .setReadOnly false⟩] ∧
      run (some 20000) = run none ∧ (run none).trace.dropped = ["bk-bookkeeper-2"] := by
  intro run
  have cut : (run (some 5000)).trace = _ := crew_trace 3 (by decide) rfl
  have opened : (run none).trace = _ := crew_trace 3 (by decide) rfl
  have effect : (run none).trace.waits = [(10000, false)] ∧ (run none).trace.dropped = ["bk-bookkeeper-2"] := by
    rw [opened]
    decide +kernel
  obtain ⟨ten, dropped⟩ := effect
  have waits (instant : Nat) (cancelled : Bool) :
      .settled instant cancelled ∈ (run none).trace ↔ (instant, cancelled) = (10000, false) := by
    rw [← Trace.mem_waits, ten, List.mem_singleton]
  obtain ⟨before, -⟩ := run_cancelled (crew 3 3) (some 5000) loneKey crewSpec {} 0 ()
  obtain ⟨-, after⟩ := run_cancelled (crew 3 3) (some 20000) loneKey crewSpec {} 0 ()
  refine ⟨before fun instant settled => ?_, ?_, after 10000 ((waits 10000 false).mpr rfl) rfl, dropped⟩
  · cases (waits instant false).mp settled
    rfl
  · rw [cut]
    decide +kernel

end BookieTask
end SetScaler
