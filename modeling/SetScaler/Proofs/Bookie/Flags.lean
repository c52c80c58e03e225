import SetScaler.Proofs.Bookie.Cancellation
import SetScaler.Proofs.Bookie.Downscale
import SetScaler.Proofs.Bookie.Snapshot
import SetScaler.Proofs.Run.Recording

/-!
# Whose read-only flag is cleared

An evaluation clears the flags of such candidates only as it has told to be read-only before, and of each of
them that stays (`run_clears_flags`). It does not look at what the flag was: a candidate that was found
writable gets its flag back, one that was read-only before is made writable (`flag_not_restored`).
-/

namespace SetScaler

namespace Survey

variable {σ : Type} {backend : Backend σ} {cancellation : Cancellation} {key : SetKey}
  {bookieId : String → String} {start finish : Nat} {state state' : σ} {trace : Trace}
  {nodes : List BookieNode} {node : BookieNode}

theorem mem_of_mapM {α β : Type} {f : α → Option β} {items : List α} {results : List β} {result : β}
    (found : items.mapM f = some results) (listed : result ∈ results) : ∃ item ∈ items, f item = some result := by
  induction items generalizing results with
  | nil =>
      cases found
      cases listed
  | cons item rest ih =>
      simp only [List.mapM_cons, Option.bind_eq_bind, Option.bind_eq_some_iff, Option.pure_def,
        Option.some.injEq] at found
      obtain ⟨first, here, others, later, rfl⟩ := found
      rcases List.mem_cons.mp listed with rfl | listed
      · exact ⟨item, List.mem_cons_self, here⟩
      · obtain ⟨other, among, its⟩ := ih later listed
        exact ⟨other, .tail _ among, its⟩

theorem reported_of_writable {pod id : String} {outputs : List Output}
    (found : bookieNode? id pod outputs = some node) (writable : node.writable = true) :
    ∃ text rest state, outputs = .ok text :: rest ∧ BookieState.ofOutput? text = some state ∧
      state.writable = true := by
  unfold bookieNode? at found
  dsimp only at found
  split at found
  · cases found
  · split at found
    · rename_i state _ stated _
      cases found
      rw [readState_eq, readWith_ok] at stated
      obtain ⟨text, first, parsed⟩ := stated
      cases outputs with
      | nil => cases first
      | cons output rest =>
          cases first
          exact ⟨text, rest, state, rfl, parsed, writable⟩
    · cases found
      cases writable

/-- A bookie that a survey found writable has reported so. -/
theorem bookieNodes_reported
    (found : (bookieNodes key bookieId).run backend cancellation start state =
      ⟨.ok nodes, trace, finish, state'⟩) (listed : node ∈ nodes) (writable : node.writable = true) :
    ∃ time text state, .answered time ⟨key.ns, node.pod, .state⟩ (.ok text) ∈ trace ∧
      BookieState.ofOutput? text = some state ∧ state.writable = true := by
  obtain ⟨pods, listing, result, rfl⟩ := bookieNodes_told found
  unfold bookieNodesOf at result
  split at result
  · cases result
  · rename_i found read
    cases result
    obtain ⟨⟨pod, outputs⟩, paired, its⟩ := mem_of_mapM read (List.mem_mergeSort.mp listed)
    obtain rfl := pod_of_bookieNode its
    obtain ⟨text, rest, state, rfl, parsed, reported⟩ := reported_of_writable its writable
    let rows := (namesOf pods).map (queriesOf key.ns)
    have recorded := runRows_recorded backend cancellation (commandCount rows + 1) start rows listing
    have shown := List.forall₂_zip (List.forall₂_map_left_iff.mp recorded) paired
    obtain ⟨past, later, split, shown⟩ := shown
    -- the first output of a bookie is that of its state
    cases shown with
    | @cons command _ past _ shows _ =>
        obtain ⟨rfl, -⟩ := List.cons.inj split
        rcases shows with cancelled | ⟨time, answered⟩
        · cases cancelled
        · exact ⟨time, text, state, .tail _ answered, parsed, reported⟩

end Survey

namespace Removal

variable {protocol : Protocol} {cancellation : Cancellation} {nodes : List BookieNode} {start finish : Nat}
  {trace : Trace} {attempts : List Attempt} {reason : Option Reason} {node : BookieNode}

theorem marked_of_asked {answers : List (BookieNode × Output)}
    (asked : Asked protocol.marking start answers trace finish) (listed : answers.map Prod.fst = nodes)
    (candidate : node ∈ nodes) : protocol.marking node ∈ trace.sends := by
  rw [← listed] at candidate
  obtain ⟨answer, among, rfl⟩ := List.mem_map.mp candidate
  rw [asked.trace_sends]
  exact List.mem_map_of_mem among

theorem Settled.marked (settled : Settled protocol cancellation nodes start trace finish)
    (candidate : node ∈ nodes) : protocol.marking node ∈ trace.sends := by
  obtain ⟨marks, ready, rfl, ⟨answers, listed, -, asked⟩, -⟩ := settled
  rw [Trace.sends_append]
  exact List.mem_append_left _ (marked_of_asked asked listed candidate)

theorem Recovered.marked (recovered : Recovered protocol cancellation nodes start trace finish)
    (candidate : node ∈ nodes) : protocol.marking node ∈ trace.sends := by
  obtain ⟨waited, recoveries, settled, rfl, before, -⟩ := recovered
  rw [Trace.sends_append]
  exact List.mem_append_left _ (before.marked candidate)

/-- Every candidate is told to be read-only. -/
theorem Advance.marked (advance : Advance protocol cancellation nodes start trace attempts reason finish)
    (candidate : node ∈ nodes) : protocol.marking node ∈ trace.sends := by
  cases advance with
  | rejected listed asked => exact marked_of_asked asked listed candidate
  | cancelled asks =>
      obtain ⟨answers, listed, -, asked⟩ := asks
      rw [Trace.sends_append]
      exact List.mem_append_left _ (marked_of_asked asked listed candidate)
  | recoveryFailed before =>
      rw [Trace.sends_append]
      exact List.mem_append_left _ (before.marked candidate)
  | unhealthy before =>
      rw [Trace.sends_append, Trace.sends_append]
      exact List.mem_append_left _ (List.mem_append_left _ (before.marked candidate))
  | deleted before =>
      rw [Trace.sends_append, Trace.sends_append, Trace.sends_append]
      exact List.mem_append_left _ (List.mem_append_left _ (List.mem_append_left _ (before.marked candidate)))

end Removal

namespace BookieTask

section Course

variable {σ : Type} {backend : Backend σ} {cancellation : Cancellation} {key : SetKey} {spec : BookieSpec}
  {settings : ScalingSettings} {trace before after : Trace} {time : Nat} {ns pod : String}

/-- What is behind a command that clears the read-only flag of a bookie. -/
inductive Clears {σ : Type} (backend : Backend σ) (cancellation : Cancellation) (key : SetKey)
    (spec : BookieSpec) (settings : ScalingSettings) (ns pod : String) (before : Trace) : Prop where
  | intro {opening : Trace} {current : Int} {nodes : List BookieNode} {finish magnitude marked : Nat}
      {node : BookieNode} :
      opening <+: before → Surveyed backend cancellation key spec settings opening current nodes finish →
      spec.planFor nodes = .scaleDownIfReplicated magnitude →
      node ∈ Removal.candidates nodes magnitude → ns = key.ns → pod = node.pod →
      .sent marked ⟨ns, pod, .setReadOnly true⟩ ∈ before →
      (node.writable = true → ∃ time text state, .answered time ⟨ns, pod, .state⟩ (.ok text) ∈ opening ∧
        BookieState.ofOutput? text = some state ∧ state.readOnly = false) →
      Clears backend cancellation key spec settings ns pod before

theorem Surveyed.reported {opening : Trace} {current : Int} {nodes : List BookieNode} {finish : Nat}
    {node : BookieNode}
    (surveyed : Surveyed backend cancellation key spec settings opening current nodes finish)
    (listed : node ∈ nodes) (writable : node.writable = true) :
    ∃ time text state, .answered time ⟨key.ns, node.pod, .state⟩ (.ok text) ∈ opening ∧
      BookieState.ofOutput? text = some state ∧ state.readOnly = false := by
  cases surveyed with
  | intro _ _ _ found =>
      obtain ⟨time, text, state, answered, parsed, reported⟩ := Survey.bookieNodes_reported found listed writable
      have open_ : state.readOnly = false := by
        simp only [BookieState.writable, Bool.and_eq_true, Bool.not_eq_true'] at reported
        exact reported.1.2
      exact ⟨time, text, state, List.mem_append_right _ answered, parsed, open_⟩

/-- A bookie is changed only by an evaluation that removes bookies, after its survey. -/
theorem Course.shrunk_of_touched {told : BookieCommand}
    (course : Course backend cancellation key spec settings trace) (touches : told.action.touches = true)
    (sent : trace = before ++ .sent time told :: after) :
    ∃ opening look earlier current nodes finish magnitude queryPod start,
      Surveyed backend cancellation key spec settings opening current nodes finish ∧
      spec.planFor nodes = .scaleDownIfReplicated magnitude ∧
      Shrunk (removal key settings queryPod) cancellation key spec current
        (Removal.candidates nodes magnitude) start (earlier ++ .sent time told :: after) ∧
      before = opening ++ look ++ earlier := by
  have unspared {part : Trace} (spares : ∀ event ∈ part, event.Spares) : .sent time told ∉ part := by
    intro mem
    have spared : told.action.touches = false := spares _ mem
    rw [touches] at spared
    cases spared
  have seen : .sent time told ∈ trace := by simp [sent]
  cases course with
  | spared spares => exact absurd seen (unspared spares)
  | grown surveyed _ patched =>
      rcases List.mem_append.mp seen with mem | mem
      · exact absurd mem (unspared surveyed.spares)
      · exact absurd mem patched.not_sent
  | @shrunk opening look shrinking current first rest magnitude asked start health surveyed planned looked _
      shrunk =>
      have quiet : ∀ event ∈ opening ++ look, event.Spares := by
        refine List.forall_mem_append.mpr ⟨surveyed.spares, looked.within fun answer mem => ?_⟩
        cases List.mem_singleton.mp mem
        rfl
      obtain ⟨earlier, rfl, rfl⟩ := Trace.cut_after (unspared quiet) sent
      exact ⟨opening, look, earlier, current, first :: rest, asked, magnitude, first.pod, start, surveyed,
        planned, shrunk, rfl⟩

section Shrunk

variable {protocol : Removal.Protocol} {current : Int} {nodes : List BookieNode} {start : Nat}

/-- A flag that is cleared is that of a candidate, which was told to be read-only before. -/
theorem Shrunk.clears
    (shrunk : Shrunk protocol cancellation key spec current nodes start
      (before ++ .sent time ⟨ns, pod, .setReadOnly false⟩ :: after)) :
    ∃ node ∈ nodes, ns = protocol.ns ∧ pod = node.pod ∧ ⟨ns, pod, .setReadOnly true⟩ ∈ before.sends := by
  generalize whole : before ++ .sent time ⟨ns, pod, .setReadOnly false⟩ :: after = trace at shrunk
  cases shrunk with
  | @intro removed clears patches attempts reason cleared middle finish advance clearing stays patched =>
      have unsent : .sent time ⟨ns, pod, .setReadOnly false⟩ ∉ removed := fun mem =>
        advance.clears_nothing _ (Trace.mem_sends.mpr ⟨time, mem⟩) rfl
      rw [List.append_assoc] at whole
      obtain ⟨earlier, rfl, tail⟩ := Trace.cut_after unsent whole.symm
      have late : .sent time ⟨ns, pod, .setReadOnly false⟩ ∈ clears ++ patches := by simp [tail]
      rcases List.mem_append.mp late with mem | mem
      · have told := Trace.mem_sends.mpr ⟨time, mem⟩
        rw [clearing.trace_sends] at told
        obtain ⟨answer, listed, same⟩ := List.mem_map.mp told
        cases same
        have chosen : answer.1 ∈ cleared.map Prod.fst := List.mem_map_of_mem listed
        rw [stays] at chosen
        obtain ⟨attempt, staying, node⟩ := List.mem_map.mp chosen
        have candidate : answer.1 ∈ nodes := by
          rw [← node, ← advance.concluded_map_node]
          exact List.mem_map_of_mem (List.mem_filter.mp staying).1
        refine ⟨answer.1, candidate, rfl, rfl, ?_⟩
        rw [Trace.sends_append]
        exact List.mem_append_left _ (advance.marked candidate)
      · exact absurd mem patched.not_sent

/-- A candidate that is told to be read-only is confirmed to be gone, or has its flag cleared later on. -/
theorem Shrunk.unmarks
    (shrunk : Shrunk protocol cancellation key spec current nodes start
      (before ++ .sent time ⟨ns, pod, .setReadOnly true⟩ :: after)) :
    pod ∈ Trace.dropped (before ++ .sent time ⟨ns, pod, .setReadOnly true⟩ :: after) ∨
      ⟨ns, pod, .setReadOnly false⟩ ∈ Trace.sends after := by
  generalize whole : before ++ .sent time ⟨ns, pod, .setReadOnly true⟩ :: after = trace at shrunk ⊢
  cases shrunk with
  | @intro removed clears patches attempts reason cleared middle finish advance clearing stays patched =>
      rw [List.append_assoc] at whole
      rcases Trace.cut_append whole.symm with ⟨between, split⟩ | ⟨late, -, split⟩
      -- the flag is set in the course of the removal, since what follows that only clears flags
      · have marked : .sent time ⟨ns, pod, .setReadOnly true⟩ ∈ removed := by simp [split]
        obtain ⟨rfl, node, candidate, rfl⟩ := advance.marks_candidates marked
        have then_cleared : after = between ++ (clears ++ patches) := by simpa [split] using whole
        rw [← advance.concluded_map_node] at candidate
        obtain ⟨attempt, among, rfl⟩ := List.mem_map.mp candidate
        cases gone : attempt.isRemoved with
        | true =>
            refine .inl (List.mem_map.mpr ⟨protocol.deleting attempt.node, ?_, rfl⟩)
            have confirmed : protocol.deleting attempt.node ∈ removed.confirmed := by
              rw [advance.confirmed, List.mem_reverse]
              exact List.mem_map.mpr ⟨attempt, List.mem_filter.mpr ⟨among, gone⟩, rfl⟩
            simp [confirmed]
        | false =>
            have staying : attempt.node ∈ cleared.map Prod.fst := by
              rw [stays]
              refine List.mem_map_of_mem (List.mem_filter.mpr ⟨among, ?_⟩)
              simpa [Removal.Progress.needsRollback, Removal.Attempt.isRemoved] using gone
            have told : protocol.clearing attempt.node ∈ clears.sends := by
              obtain ⟨answer, listed, same⟩ := List.mem_map.mp staying
              rw [clearing.trace_sends, ← same]
              exact List.mem_map_of_mem listed
            right
            rw [then_cleared, Trace.sends_append, Trace.sends_append]
            exact List.mem_append_right _ (List.mem_append_left _ told)
      · have late_sent : .sent time ⟨ns, pod, .setReadOnly true⟩ ∈ clears ++ patches := by simp [split]
        rcases List.mem_append.mp late_sent with mem | mem
        · obtain ⟨answer, -, ⟨_, same⟩ | ⟨_, same⟩⟩ := clearing.mem_cases mem
          · cases same
          · cases same
        · exact absurd mem patched.not_sent

end Shrunk

end Course

theorem run_clears_flags {σ : Type} (backend : Backend σ) (cancellation : Cancellation) (key : SetKey)
    (spec : BookieSpec) (settings : ScalingSettings) (time : Nat) (state : σ) :
    let trace := ((run key spec settings).run backend cancellation time state).trace
    (∀ before after instant ns pod, trace = before ++ .sent instant ⟨ns, pod, .setReadOnly false⟩ :: after →
      Clears backend cancellation key spec settings ns pod before) ∧
    ∀ before after instant ns pod, trace = before ++ .sent instant ⟨ns, pod, .setReadOnly true⟩ :: after →
      pod ∈ trace.dropped ∨ ⟨ns, pod, .setReadOnly false⟩ ∈ Trace.sends after := by
  intro trace
  have course := run_course backend cancellation key spec settings time state
  constructor
  · intro before after instant ns pod sent
    obtain ⟨opening, look, earlier, current, nodes, finish, magnitude, queryPod, start, surveyed, planned,
      shrunk, rfl⟩ := course.shrunk_of_touched rfl sent
    obtain ⟨node, candidate, rfl, rfl, told⟩ := shrunk.clears
    obtain ⟨marked, told⟩ := Trace.mem_sends.mp told
    refine .intro ?_ surveyed planned candidate rfl rfl (List.mem_append_right _ told) fun writable =>
      surveyed.reported (List.mem_of_mem_drop candidate) writable
    rw [List.append_assoc]
    exact List.prefix_append _ _
  · intro before after instant ns pod sent
    obtain ⟨opening, look, earlier, current, nodes, finish, magnitude, queryPod, start, -, -, shrunk,
      rfl⟩ := course.shrunk_of_touched rfl sent
    refine shrunk.unmarks.imp_left fun dropped => ?_
    rw [sent, List.append_assoc, Trace.dropped, Trace.confirmed_append, List.map_append]
    exact List.mem_append_right _ dropped

section Pair

open Survey

def pairPods : List Pod :=
  ["bk-bookkeeper-0", "bk-bookkeeper-1"].map fun name =>
    ⟨some name, none, some ⟨some [⟨"bookkeeper", true⟩], some 0⟩⟩

/-- A set of two bookies, the second of them read-only, in which no recovery comes to its end. -/
def pair : Backend Unit where
  reply request _ _ :=
    (match request with
      | .readyReplicas .. => .ok (some 2)
      | .pods .. => .ok pairPods
      | .cpuUsage .. => .ok []
      | .volumes .. => .ok []
      | .deleteVolume .. => .ok ()
      | .currentReplicas _ => .ok (some 2)
      | .patchReplicas .. => .ok (), ())
  output command _ _ :=
    ((0, match command.action with
      | .state =>
        if command.pod = "bk-bookkeeper-1" then .ok "\x7b\"running\":true,\"readOnly\":true\x7d"
        else .ok "\x7b\"running\":true\x7d"
      | .info => .ok "\x7b\"freeSpace\":80,\"totalSpace\":100\x7d"
      | .setReadOnly true => .ok "\x7b\"readOnly\":true\x7d"
      | .setReadOnly false => .ok "\x7b\"readOnly\":false\x7d"
      | .listUnderReplicated => .ok Admin.healthyMarker
      | _ => .ok ""), ())

def pairNodes : List BookieNode :=
  [⟨"bk-bookkeeper-0", bookieId loneKey {} "bk-bookkeeper-0", true, [⟨100, 20⟩]⟩,
   ⟨"bk-bookkeeper-1", bookieId loneKey {} "bk-bookkeeper-1", false, [⟨100, 20⟩]⟩]

theorem pair_ready : (Readiness.isReady loneKey "bookkeeper" 2 0).run pair none 0 () =
    ⟨.ok true, [.called 0 (.readyReplicas "ns" loneKey.statefulSet) (.ok (some 2)),
      .called 0 (.pods "ns" loneKey.selector) (.ok pairPods)], 0, ()⟩ := rfl

theorem namesOf_pairPods : namesOf pairPods = ["bk-bookkeeper-0", "bk-bookkeeper-1"] :=
  List.mergeSort_of_pairwise (by decide +kernel)

def pairQueries : Ended Unit (List Row) :=
  queried pair none "ns" ["bk-bookkeeper-0", "bk-bookkeeper-1"] 0 ()

theorem pair_found : (bookieNodes loneKey (bookieId loneKey {})).run pair none 0 () =
    ⟨.ok pairNodes, .called 0 (.pods "ns" loneKey.selector) (.ok pairPods) :: pairQueries.trace,
      pairQueries.time, pairQueries.state⟩ := by
  refine bookieNodes_read rfl namesOf_pairPods ?_
  decide +kernel

theorem pair_trace : ((run loneKey loneSpec {}).run pair none 0 ()).trace =
    .called 0 (.currentReplicas loneKey) (.ok (some 2)) ::
      ([.called 0 (.readyReplicas "ns" loneKey.statefulSet) (.ok (some 2)),
        .called 0 (.pods "ns" loneKey.selector) (.ok pairPods)] ++
        (.called 0 (.pods "ns" loneKey.selector) (.ok pairPods) :: pairQueries.trace ++
          ((carryOut loneKey loneSpec {} 2 pairNodes (loneSpec.planFor pairNodes)).run pair none
            pairQueries.time pairQueries.state).trace)) :=
  run_surveyed pair none loneKey loneSpec {} (by decide +kernel) rfl rfl pair_ready pair_found

theorem run_clears_flags_pair :
    let trace := ((run loneKey loneSpec {}).run pair none 0 ()).trace
    ∃ before after instant, trace = before ++ .sent instant ⟨"ns", "bk-bookkeeper-1", .setReadOnly false⟩ :: after ∧
      Clears pair none loneKey loneSpec {} "ns" "bk-bookkeeper-1" before := by
  intro trace
  have told : ⟨"ns", "bk-bookkeeper-1", .setReadOnly false⟩ ∈ Trace.sends trace := by
    rw [show trace = _ from pair_trace]
    decide +kernel
  obtain ⟨instant, sent⟩ := Trace.mem_sends.mp told
  obtain ⟨before, after, cut⟩ := List.append_of_mem sent
  exact ⟨before, after, instant, cut, (run_clears_flags pair none loneKey loneSpec {} 0 ()).1 _ _ _ _ _ cut⟩

/-- A bookie that was read-only before is made writable when its removal fails. -/
theorem flag_not_restored :
    let trace := ((run loneKey loneSpec {}).run pair none 0 ()).trace
    let report := "\x7b\"running\":true,\"readOnly\":true\x7d"
    ((trace.answers.filter fun answer => answer.1 = ⟨"ns", "bk-bookkeeper-1", .state⟩).map fun answer =>
        answer.2.toOption) = [some report] ∧
      BookieState.ofOutput? report = some ⟨true, true, false⟩ ∧
      ⟨"ns", "bk-bookkeeper-1", .setReadOnly false⟩ ∈ Trace.sends trace := by
  intro trace report
  rw [show trace = _ from pair_trace]
  decide +kernel

end Pair

end BookieTask
end SetScaler
