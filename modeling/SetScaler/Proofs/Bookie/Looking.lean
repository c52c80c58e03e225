import SetScaler.Bookie.Task
import SetScaler.Proofs.Removal.Wait

/-!
# What only looks

The steps of an evaluation up to its plan, and the volume cleanup before them, wait for nothing but
answers, and they change neither the recorded count nor any bookie (`Program.Looks`). Up to the gate no
bookie is even asked for anything (`Program.Idles`).
-/

namespace SetScaler

def Request.isPatch : Request → Bool
  | patchReplicas .. => true
  | _ => false

def Request.isRead : Request → Bool
  | currentReplicas _ => true
  | _ => false

/-- Whether an action changes the bookie that it is run in. -/
def BookieAction.touches : BookieAction → Bool
  | setReadOnly _ | recover _ | deleteCookie _ | retireMarkers => true
  | state | info | listUnderReplicated | listLedgers _ | triggerAudit => false

/-- A program that changes neither the count nor any bookie. -/
abbrev Program.Spares {α : Type} (program : Program α) : Prop :=
  program.Uses (fun request => request.isPatch = false) fun command => command.action.touches = false

/-- An event that changes neither the count nor any bookie. -/
abbrev Event.Spares (event : Event) : Prop :=
  event.Within (fun request => request.isPatch = false) fun command => command.action.touches = false

/-- A program that waits for nothing but answers, has nothing to do with the recorded count, changes no
bookie, and leaves alone what a removal does after its wait. -/
abbrev Program.Looks {α : Type} (program : Program α) : Prop :=
  program.Waitless (fun request => request.isPatch = false ∧ request.isRead = false) fun command =>
    command.action.touches = false ∧ command.Early

theorem Program.Waitless.spares {α : Type} {program : Program α} (looks : program.Looks) :
    program.Spares :=
  looks.uses.mono (fun _ neither => neither.1) fun _ gentle => gentle.1

/-- A program that waits for nothing but answers, has nothing to do with the recorded count, and has
no bookie do anything but trigger an audit. -/
abbrev Program.Idles {α : Type} (program : Program α) : Prop :=
  program.Waitless (fun request => request.isPatch = false ∧ request.isRead = false) fun command =>
    command.action = .triggerAudit

/-- An event that neither records a count nor has a bookie do anything but trigger an audit. -/
abbrev Event.Idles (event : Event) : Prop :=
  event.Within (fun request => request.isPatch = false) fun command => command.action = .triggerAudit

theorem Program.Waitless.idles {α : Type} {program : Program α} (idles : program.Idles) :
    program.Uses (fun request => request.isPatch = false) fun command => command.action = .triggerAudit :=
  idles.uses.mono (fun _ neither => neither.1) fun _ audits => audits

theorem Program.Waitless.looks {α : Type} {program : Program α} (idles : program.Idles) :
    program.Looks :=
  idles.mono (fun _ neither => neither) fun command audits => by
    simp [BookieCommand.Early, audits, BookieAction.touches, BookieAction.followsWait]

theorem Cleanup.deleteEach_idles (ns : String) (names : List String) : (deleteEach ns names).Idles := by
  induction names with
  | nil => trivial
  | cons name rest ih => exact ⟨⟨rfl, rfl⟩, fun _ => ih.bind fun _ => trivial⟩

theorem Cleanup.sweep_idles (key : SetKey) (count : Int) : (sweep key count).Idles := by
  refine ⟨⟨rfl, rfl⟩, fun volumes => ?_⟩
  match volumes with
  | .error _ => trivial
  | .ok [] => trivial
  | .ok (_ :: _) =>
      refine ⟨⟨rfl, rfl⟩, fun pods => ?_⟩
      match pods with
      | .error _ => trivial
      | .ok _ => exact deleteEach_idles _ _

theorem Survey.podNames_idles (key : SetKey) : (podNames key).Idles := by
  refine ⟨⟨rfl, rfl⟩, fun pods => ?_⟩
  cases pods with
  | error => trivial
  | ok => trivial

theorem Cleanup.run_idles (key : SetKey) (count : Int) : (run key count).Idles := by
  refine (sweep_idles key count).bind fun deleted => ?_
  split
  · trivial
  · refine (Survey.podNames_idles key).bind fun names => ?_
    match names with
    | .error _ => trivial
    | .ok [] => trivial
    | .ok (_ :: _) =>
        intro cancelled
        cases cancelled with
        | true => trivial
        | false =>
            refine ⟨rfl, fun output => ?_⟩
            cases output with
            | error => trivial
            | ok => trivial

theorem Readiness.isReady_idles (key : SetKey) (container : String) (expected : Int)
    (windowMs : Nat) : (isReady key container expected windowMs).Idles := by
  refine ⟨⟨rfl, rfl⟩, fun ready => ?_⟩
  match ready with
  | .error _ => trivial
  | .ok none => trivial
  | .ok (some ready) =>
      change Program.Idles (if ready ≠ expected then _ else _)
      split
      · trivial
      · refine ⟨⟨rfl, rfl⟩, fun pods => ?_⟩
        cases pods with
        | error => trivial
        | ok => trivial

theorem Survey.brokerNodes_idles (key : SetKey) : (brokerNodes key).Idles := by
  refine ⟨⟨rfl, rfl⟩, fun pods => ?_⟩
  cases pods with
  | error => trivial
  | ok =>
      refine ⟨⟨rfl, rfl⟩, fun usage => ?_⟩
      cases usage with
      | error => trivial
      | ok => trivial

theorem Survey.bookieNodes_looks (key : SetKey) (bookieId : String → String) :
    (bookieNodes key bookieId).Looks := by
  refine (podNames_idles key).looks.bind fun names => ?_
  cases names with
  | error => trivial
  | ok names =>
      refine ⟨fun row mem => ?_, fun _ => trivial⟩
      obtain ⟨pod, -, rfl⟩ := List.mem_map.mp mem
      simp [queriesOf, BookieAction.touches, BookieCommand.Early, BookieAction.followsWait]

namespace BookieTask

theorem cleanUp_idles (key : SetKey) (spec : BookieSpec) (current : Int) :
    (cleanUp key spec current).Idles := by
  unfold cleanUp
  split
  · exact Cleanup.run_idles key current
  · trivial

end BookieTask
end SetScaler
