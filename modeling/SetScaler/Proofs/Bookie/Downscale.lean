import SetScaler.Proofs.Bookie.Plan
import SetScaler.Proofs.Bookie.Safety

/-!
# The count follows the bookies

An evaluation lowers the recorded count by exactly as many bookies as it has removed, and those are
the ones that the lower count drops (`run_downscale`).
-/

namespace SetScaler

/-- The set and the count of a request to record one. -/
def Request.patch? : Request → Option (SetKey × Int)
  | patchReplicas key count => some (key, count)
  | _ => none

namespace Trace

/-- The counts that a trace has recorded, each with its set. -/
def patches (trace : Trace) : List (SetKey × Int) := trace.requests.filterMap fun entry => entry.2.patch?

/-- The pods of bookies whose cookie is confirmed to be gone. -/
def dropped (trace : Trace) : List String := trace.confirmed.map BookieCommand.pod

@[simp]
theorem patches_append (first second : Trace) :
    (first ++ second).patches = first.patches ++ second.patches := by
  simp [patches, requests]

theorem patches_eq_nil {trace : Trace} (kind : BookieCommand → Prop)
    (others : ∀ event ∈ trace, event.Within (fun request => request.isPatch = false) kind) :
    trace.patches = [] := by
  refine List.filterMap_eq_nil_iff.mpr fun entry mem => ?_
  obtain ⟨event, happened, seen⟩ := List.mem_filterMap.mp mem
  cases event with
  | sent | answered | settled => cases seen
  | called time request reply =>
      cases seen
      have other : request.isPatch = false := others _ happened
      cases request with
      | patchReplicas => cases other
      | readyReplicas | pods | cpuUsage | volumes | deleteVolume | currentReplicas => rfl

theorem confirmed_eq_nil {trace : Trace}
    (others : ∀ event ∈ trace,
      event.Within (fun _ => True) fun command => command.action.isDeletion = false) :
    trace.confirmed = [] := by
  have undeleted : trace.deletions = [] := by
    refine List.filter_eq_nil_iff.mpr fun answer mem => ?_
    obtain ⟨event, happened, seen⟩ := List.mem_filterMap.mp mem
    cases event with
    | called | sent | settled => cases seen
    | answered time command output =>
        cases seen
        have other : command.action.isDeletion = false := others _ happened
        simp [other]
  rw [confirmed, undeleted]
  rfl

end Trace

theorem Asked.patches {ι : Type} {command : ι → BookieCommand} {answers : List (ι × Output)}
    {trace : Trace} {start finish : Nat} (asked : Asked command start answers trace finish) :
    trace.patches = [] :=
  Trace.patches_eq_nil (fun _ => True) (asked.within fun _ _ => trivial)

theorem Removal.Advance.patches {protocol : Protocol} {cancellation : Cancellation}
    {nodes : List BookieNode} {start finish : Nat} {trace : Trace} {attempts : List Attempt}
    {reason : Option Reason}
    (advance : Advance protocol cancellation nodes start trace attempts reason finish) :
    trace.patches = [] :=
  Trace.patches_eq_nil (fun _ => True)
    (advance.within trivial fun _ _ => ⟨trivial, trivial, trivial, trivial, trivial⟩)

theorem Event.Spares.undeleting {event : Event} (spares : event.Spares) :
    event.Within (fun _ => True) fun command => command.action.isDeletion = false := by
  have gentle {command : BookieCommand} (spared : command.action.touches = false) :
      command.action.isDeletion = false := by
    cases deletes : command.action.isDeletion with
    | false => rfl
    | true =>
        rw [BookieAction.touches_of_isDeletion deletes] at spared
        cases spared
  cases event with
  | called | settled => trivial
  | sent time command => exact gentle spares
  | answered time command output => exact gentle spares

namespace BookieTask

theorem Patched.patches {key : SetKey} {current target : Int} {trace : Trace}
    (patched : Patched key current target trace) :
    trace.patches = if target = current then [] else [(key, target)] := by
  cases patched with
  | same kept => simp [kept, Trace.patches, Trace.requests]
  | asked changed => simp [changed, Trace.patches, Trace.requests, Event.request?, Request.patch?]

theorem Patched.confirmed {key : SetKey} {current target : Int} {trace : Trace}
    (patched : Patched key current target trace) : trace.confirmed = [] := by
  cases patched <;> rfl

section Shrunk

variable {protocol : Removal.Protocol} {cancellation : Cancellation} {key : SetKey}
  {spec : BookieSpec} {current : Int} {nodes : List BookieNode} {start : Nat} {trace : Trace}

/-- The candidates that are gone are the last ones, and the count is to come down by their number. -/
theorem Shrunk.effect (shrunk : Shrunk protocol cancellation key spec current nodes start trace) :
    ∃ kept gone, nodes = kept ++ gone ∧ trace.confirmed = (gone.map protocol.deleting).reverse ∧
      trace.patches = if spec.target current (-(gone.length : Int)) = current then []
        else [(key, spec.target current (-(gone.length : Int)))] := by
  cases shrunk with
  | @intro removed clears patches attempts reason cleared middle finish advance clearing _ patched =>
      obtain ⟨kept, gone, split, stay, leave⟩ := advance.removed_suffix
      have listed := advance.concluded_map_node
      rw [split, List.map_append] at listed
      have going : (kept ++ gone).filter Removal.Attempt.isRemoved = gone := by
        rw [List.filter_append, List.filter_eq_nil_iff.mpr (by simpa using stay),
          List.filter_eq_self.mpr leave, List.nil_append]
      have delta := Removal.Summary.delta_ofAttempts (Removal.Protocol.concluded attempts reason) reason
      have removals : (Removal.Protocol.concluded attempts reason).countP Removal.Attempt.isRemoved =
          gone.length := by
        rw [List.countP_eq_length_filter, split, going]
      refine ⟨kept.map Removal.Attempt.node, gone.map Removal.Attempt.node, listed.symm, ?_, ?_⟩
      · rw [Trace.confirmed_append, Trace.confirmed_append, advance.confirmed, split, going,
          patched.confirmed, Trace.confirmed_eq_nil (clearing.within fun _ _ => rfl), List.map_map]
        simp [Function.comp_def]
      · rw [Trace.patches_append, Trace.patches_append, advance.patches, clearing.patches,
          patched.patches, delta, List.length_map]
        simp only [Removal.Summary.ofAttempts, removals, List.nil_append]

theorem Shrunk.within {kind : BookieCommand → Prop} (surveys : kind protocol.surveying)
    (tells : ∀ node ∈ nodes, protocol.Tells kind node)
    (shrunk : Shrunk protocol cancellation key spec current nodes start trace) :
    ∀ event ∈ trace, event.Within (fun _ => True) kind := by
  cases shrunk with
  | @intro removed clears patches attempts reason cleared middle finish advance clearing listed patched =>
      refine List.forall_mem_append.mpr ⟨List.forall_mem_append.mpr
        ⟨advance.within surveys fun node mem => (tells node mem).toDrives,
          clearing.within fun answer mem => ?_⟩, ?_⟩
      · have stays : answer.1 ∈ cleared.map Prod.fst := List.mem_map_of_mem mem
        rw [listed] at stays
        obtain ⟨attempt, chosen, same⟩ := List.mem_map.mp stays
        have candidate : attempt.node ∈ nodes := by
          rw [← advance.concluded_map_node]
          exact List.mem_map_of_mem (List.mem_filter.mp chosen).1
        exact same ▸ (tells _ candidate).clearing
      · cases patched with
        | same => simp
        | asked => simp [Event.Within]

end Shrunk

/-- In a trace, the recorded count of a set is always the same, and every listing of its pods has
exactly the members that the count stands for, in any order. -/
structure Steady (key : SetKey) (current : Int32) (trace : Trace) : Prop where
  recorded : ∀ time count, .called time (.currentReplicas key) (.ok (some count)) ∈ trace →
    count = current.toInt
  listed : ∀ time pods, .called time (.pods key.ns key.selector) (.ok pods) ∈ trace →
    (pods.filterMap fun pod => pod.name).Perm (members key.statefulSet current.toInt.toNat)

/-- What an evaluation does to bookies, and what becomes of the count. -/
structure Consistent {σ : Type} (backend : Backend σ) (cancellation : Cancellation) (key : SetKey)
    (spec : BookieSpec) (settings : ScalingSettings) (current : Int) (trace : Trace) : Prop where
  distinct : trace.dropped.Nodup
  /-- The bookies that are gone are those that the lower count drops. -/
  dropped : ∀ pod, pod ∈ trace.dropped ↔
    ∃ ordinal : Nat, current - trace.dropped.length ≤ ordinal ∧ ordinal < current ∧
      pod = member key.statefulSet ordinal
  lowered : trace.dropped ≠ [] → trace.patches = [(key, current - trace.dropped.length)]
  kept : trace.dropped = [] → ∀ patch ∈ trace.patches, current ≤ patch.2
  /-- No bookie is touched but those that the plan would have removed. -/
  touched : ∀ time command, .sent time command ∈ trace → command.action.touches = true →
    ∃ opening nodes finish magnitude, opening <+: trace ∧
      Surveyed backend cancellation key spec settings opening current nodes finish ∧
      spec.planFor nodes = .scaleDownIfReplicated magnitude ∧ command.ns = key.ns ∧
      ∃ ordinal : Nat, current - magnitude ≤ ordinal ∧ ordinal < current ∧
        command.pod = member key.statefulSet ordinal

section Steady

variable {σ : Type} {backend : Backend σ} {cancellation : Cancellation} {key : SetKey}
  {spec : BookieSpec} {settings : ScalingSettings} {current : Int32} {trace : Trace}

theorem small_toNat (current : Int32) : current.toInt.toNat ≤ UInt32.size := by
  have bound := current.toInt_lt
  simp only [UInt32.size]
  omega

theorem Surveyed.of_steady {opening : Trace} {count : Int} {nodes : List BookieNode} {finish : Nat}
    (steady : Steady key current trace)
    (surveyed : Surveyed backend cancellation key spec settings opening count nodes finish)
    (part : opening ⊆ trace) :
    count = current.toInt ∧
      nodes.map BookieNode.pod = members key.statefulSet current.toInt.toNat := by
  cases surveyed with
  | intro _ recorded _ found =>
      obtain ⟨pods, asked, happened, named⟩ := Survey.bookieNodes_found found
      refine ⟨steady.recorded _ _ (part (List.mem_append_left _ recorded)), named.trans ?_⟩
      have listed := steady.listed _ _ (part (List.mem_append_right _ happened))
      exact sortByOrdinal_members key.statefulSet (small_toNat current) listed

/-- A set with a bookie has as many of them as were recorded. -/
theorem Surveyed.counted {opening : Trace} {count : Int} {nodes : List BookieNode} {finish : Nat}
    (steady : Steady key current trace)
    (surveyed : Surveyed backend cancellation key spec settings opening count nodes finish)
    (part : opening ⊆ trace) (some_node : 0 < nodes.length) :
    current.toInt = (nodes.length : Nat) ∧ nodes.length ≤ UInt32.size ∧
      nodes.map BookieNode.pod = members key.statefulSet nodes.length := by
  have pods := (surveyed.of_steady steady part).2
  have total : nodes.length = current.toInt.toNat := by
    rw [← List.length_map BookieNode.pod, pods, length_members]
  have small := small_toNat current
  rw [← total] at pods small
  exact ⟨by omega, small, pods⟩

/-- An evaluation that confirms no deletion, touches no bookie and does not lower the count. -/
theorem Consistent.of_untouched {count : Int}
    (spares : ∀ time command, .sent time command ∈ trace → command.action.touches = false)
    (undropped : trace.confirmed = []) (raises : ∀ patch ∈ trace.patches, count ≤ patch.2) :
    Consistent backend cancellation key spec settings count trace := by
  have none : trace.dropped = [] := by
    rw [Trace.dropped, undropped]
    rfl
  refine ⟨by simp [none], fun pod => ?_, fun some => absurd none some, fun _ => raises, ?_⟩
  · simp only [none, List.not_mem_nil, List.length_nil, false_iff]
    rintro ⟨ordinal, low, high, -⟩
    omega
  · intro time command sent touches
    rw [spares time command sent] at touches
    cases touches

/-- Candidates that are gone from the end of a set have the names of its last members. -/
theorem pods_of_gone {nodes kept gone : List BookieNode} {magnitude : Nat} {set : String}
    (pods : nodes.map BookieNode.pod = members set nodes.length)
    (split : Removal.candidates nodes magnitude = kept ++ gone) :
    gone.map BookieNode.pod = (members set nodes.length).drop (nodes.length - gone.length) := by
  have last : gone.map BookieNode.pod <:+ members set nodes.length := by
    rw [← pods]
    have part : gone <:+ nodes :=
      (List.suffix_append kept gone).trans (split ▸ List.drop_suffix _ _)
    exact part.map _
  have cut := List.suffix_iff_eq_drop.mp last
  rwa [length_members, List.length_map] at cut

/-- A removal touches no bookie but its candidates. -/
theorem Shrunk.touched {queryPod : String} {count : Int} {nodes : List BookieNode} {start time : Nat}
    {shrinking : Trace} {command : BookieCommand}
    (shrunk : Shrunk (removal key settings queryPod) cancellation key spec count nodes start shrinking)
    (sent : .sent time command ∈ shrinking) (touches : command.action.touches = true) :
    command.ns = key.ns ∧ command.pod ∈ nodes.map BookieNode.pod := by
  let chosen (command : BookieCommand) : Prop :=
    command.action.touches = true → command.ns = key.ns ∧ command.pod ∈ nodes.map BookieNode.pod
  have surveys : chosen (removal key settings queryPod).surveying := by
    intro touches
    cases touches
  have tells : ∀ node ∈ nodes, (removal key settings queryPod).Tells chosen node := by
    intro node mem
    have named : node.pod ∈ nodes.map BookieNode.pod := List.mem_map_of_mem mem
    exact {
      marking := fun _ => ⟨rfl, named⟩
      clearing := fun _ => ⟨rfl, named⟩
      recovering := fun _ => ⟨rfl, named⟩
      listing := fun _ => ⟨rfl, named⟩
      deleting := fun _ => ⟨rfl, named⟩
      retiring := fun _ => ⟨rfl, named⟩ }
  exact shrunk.within surveys tells _ sent touches

/-- The last members of a set, in whatever order they went. -/
theorem last_members {pods : List String} {set : String} {total count : Nat}
    (small : total ≤ UInt32.size) (few : count ≤ total)
    (last : pods = ((members set total).drop (total - count)).reverse) :
    pods.Nodup ∧ pods.length = count ∧ ∀ pod, pod ∈ pods ↔
      ∃ ordinal : Nat, (total : Int) - count ≤ ordinal ∧ (ordinal : Int) < total ∧
        pod = member set ordinal := by
  refine ⟨?_, ?_, fun pod => ?_⟩
  · have distinct := (members_nodup set small).sublist (List.drop_sublist (total - count) _)
    rw [last]
    exact List.pairwise_reverse.mpr (distinct.imp Ne.symm)
  · rw [last, List.length_reverse, List.length_drop, length_members]
    omega
  · rw [last, List.mem_reverse, mem_drop_members]
    constructor
    · rintro ⟨ordinal, low, high, rfl⟩
      exact ⟨ordinal, by omega, by omega, rfl⟩
    · rintro ⟨ordinal, low, high, rfl⟩
      exact ⟨ordinal, by omega, by omega, rfl⟩

theorem Consistent.of_shrunk {opening look shrinking : Trace} {count : Int} {first : BookieNode}
    {rest : List BookieNode} {magnitude asked start : Nat} {health : Output}
    (steady : Steady key current (opening ++ look ++ shrinking))
    (surveyed : Surveyed backend cancellation key spec settings opening count (first :: rest) asked)
    (planned : spec.planFor (first :: rest) = .scaleDownIfReplicated magnitude)
    (looked : Asked id asked [((removal key settings first.pod).surveying, health)] look start)
    (shrunk : Shrunk (removal key settings first.pod) cancellation key spec count
      (Removal.candidates (first :: rest) magnitude) start shrinking) :
    Consistent backend cancellation key spec settings current.toInt (opening ++ look ++ shrinking) := by
  obtain ⟨rfl, -⟩ := surveyed.of_steady steady (by simp)
  obtain ⟨whole, small, pods⟩ := surveyed.counted steady (by simp) (Nat.succ_pos _)
  have within : current.toInt ≤ countMax := by
    have bound := current.toInt_lt
    simp only [countMax]
    omega
  obtain ⟨-, enough⟩ := BookieSpec.shrinking_of_planFor planned
  obtain ⟨kept, gone, split, confirmed, patches⟩ := shrunk.effect
  have few : gone.length ≤ magnitude := by
    have lengths := congrArg List.length split
    simp only [Removal.candidates, List.length_drop, List.length_append] at lengths
    omega
  have quiet : ∀ event ∈ opening ++ look, event.Spares := by
    refine List.forall_mem_append.mpr ⟨surveyed.spares, looked.within fun answer mem => ?_⟩
    cases List.mem_singleton.mp mem
    rfl
  have unconfirmed : (opening ++ look).confirmed = [] :=
    Trace.confirmed_eq_nil fun event mem => (quiet event mem).undeleting
  have unpatched : (opening ++ look).patches = [] := Trace.patches_eq_nil _ quiet
  have dropped : (opening ++ look ++ shrinking).dropped =
      ((members key.statefulSet (first :: rest).length).drop
        ((first :: rest).length - gone.length)).reverse := by
    rw [← pods_of_gone pods split, Trace.dropped, Trace.confirmed_append, unconfirmed, confirmed,
      List.nil_append, List.map_reverse, List.map_map]
    rfl
  obtain ⟨distinct, many, named⟩ := last_members small (by omega) dropped
  refine ⟨distinct, fun pod => ?_, fun dropping => ?_, fun keeping => ?_, ?_⟩
  · rw [many, whole]
    exact named pod
  · have some_gone : 0 < gone.length := many ▸ List.length_pos_iff.mpr dropping
    -- the plan left enough bookies for the floor of the target not to matter
    have target : spec.target current.toInt (-(gone.length : Int)) = current.toInt - gone.length :=
      BookieSpec.target_removed some_gone within (by omega)
    rw [Trace.patches_append, unpatched, patches, target, if_neg (by omega), many]
    rfl
  · have none_gone : gone.length = 0 := by
      rw [← many, keeping]
      rfl
    have unchanged : spec.target current.toInt (-(gone.length : Int)) = current.toInt := by
      simp [none_gone, BookieSpec.target]
    rw [Trace.patches_append, unpatched, patches, if_pos unchanged]
    simp
  · intro time command sent touches
    rcases List.mem_append.mp sent with early | sent
    · have spared : command.action.touches = false := quiet _ early
      rw [spared] at touches
      cases touches
    · obtain ⟨place, chosen⟩ := shrunk.touched sent touches
      rw [Removal.candidates, List.map_drop, pods, mem_drop_members] at chosen
      obtain ⟨ordinal, low, high, named⟩ := chosen
      exact ⟨opening, _, asked, magnitude, by simp, surveyed, planned, place, ordinal, by omega,
        by omega, named⟩

theorem Course.consistent (course : Course backend cancellation key spec settings trace)
    (steady : Steady key current trace) :
    Consistent backend cancellation key spec settings current.toInt trace := by
  cases course with
  | spared spares =>
      refine .of_untouched (fun _ _ sent => spares _ sent)
        (Trace.confirmed_eq_nil fun event mem => (spares event mem).undeleting) ?_
      rw [Trace.patches_eq_nil _ spares]
      simp
  | @grown opening patches count nodes step finish surveyed _ patched =>
      obtain ⟨rfl, -⟩ := surveyed.of_steady steady (by simp)
      have unpatched := Trace.patches_eq_nil _ surveyed.spares
      refine .of_untouched (fun time command sent => ?_) ?_ ?_
      · rcases List.mem_append.mp sent with early | late
        · exact surveyed.spares _ early
        · exact absurd late patched.not_sent
      · rw [Trace.confirmed_append, patched.confirmed, List.append_nil]
        exact Trace.confirmed_eq_nil fun event mem => (surveyed.spares event mem).undeleting
      · rw [Trace.patches_append, unpatched, patched.patches, List.nil_append]
        have raised := BookieSpec.le_target_up spec current.toInt step
        split
        · simp
        · simpa using raised
  | shrunk surveyed planned looked _ shrunk => exact .of_shrunk steady surveyed planned looked shrunk

end Steady

/-- The bookies that an evaluation removes are those that the lower count drops, if the pods of the
set are its members and stay so. -/
theorem run_downscale {σ : Type} (backend : Backend σ) (cancellation : Cancellation) (key : SetKey)
    (spec : BookieSpec) (settings : ScalingSettings) (time : Nat) (state : σ) {current : Int32}
    (steady : Steady key current ((run key spec settings).run backend cancellation time state).trace) :
    Consistent backend cancellation key spec settings current.toInt
      ((run key spec settings).run backend cancellation time state).trace :=
  (run_course backend cancellation key spec settings time state).consistent steady

/-- Of two bookies that are to go only the last one does, and the count comes down by one. -/
theorem run_downscale_crew :
    let trace := ((run loneKey crewSpec {}).run (crew 3 3) none 0 ()).trace
    Steady loneKey 3 trace ∧ Consistent (crew 3 3) none loneKey crewSpec {} (3 : Int32).toInt trace ∧
      trace.dropped = ["bk-bookkeeper-2"] ∧ trace.patches = [(loneKey, 2)] := by
  intro trace
  have steady : Steady loneKey 3 trace := by
    refine ⟨fun time count called => ?_, fun time pods called => ?_⟩
    · obtain ⟨_, replied⟩ := Program.reply_of_called (crew 3 3) none called
      cases replied
      rfl
    · obtain ⟨_, replied⟩ := Program.reply_of_called (crew 3 3) none called
      cases replied
      exact crewPods_perm 3
  have opened : trace = _ := crew_trace 3 (by decide) rfl
  have effect : trace.dropped = ["bk-bookkeeper-2"] ∧ trace.patches = [(loneKey, 2)] := by
    rw [opened]
    decide +kernel
  exact ⟨steady, run_downscale (crew 3 3) none loneKey crewSpec {} 0 () steady, effect⟩

end BookieTask
end SetScaler
