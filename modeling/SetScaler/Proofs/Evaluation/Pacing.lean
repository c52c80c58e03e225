import SetScaler.Proofs.Bookie.Cancellation
import SetScaler.Proofs.Evaluation.Bounds
import SetScaler.Proofs.Evaluation.Gate

/-!
# Runs one after the other

A set is evaluated again and again, each time on a cluster that may have changed in any way but for the
recorded count, which only the runs change. Then the count stays within the bounds of the spec once it is
there, and no run moves it before the cluster has come to the last count that was recorded
(`history_paced`).
-/

namespace SetScaler

/-- The set and the count of a request that has recorded one. -/
def Event.landed? : Event → Option (SetKey × Int)
  | called _ (.patchReplicas key count) (.ok _) => some (key, count)
  | _ => none

/-- The counts that were recorded, each with its set. -/
def Trace.landed (trace : Trace) : List (SetKey × Int) := trace.filterMap Event.landed?

/-- One run, with all that it meets. -/
structure Round where
  State : Type
  backend : Backend State
  cancellation : Cancellation
  settings : ScalingSettings
  start : Nat
  state : State

namespace Round

variable (spec : AutoscalerSpec) (key : SetKey) (round : Round)

def trace : Trace :=
  ((spec.run key round.settings).run round.backend round.cancellation round.start round.state).trace

/-- Where the run stands when it comes to act. -/
def standing : Standing spec.Nodes :=
  ((spec.stages key round.settings).run round.backend round.cancellation round.start round.state).result

/-- Whatever count the run reads is a given one. -/
def Reads (count : Int) : Prop :=
  ∀ time current, .called time (.currentReplicas key) (.ok (some current)) ∈ round.trace spec key →
    current = count

/-- The count recorded for the set after the run, if another one was before it. -/
def after (count : Int) : Int :=
  (round.trace spec key).landed.foldl (fun count patch => if patch.1 = key then patch.2 else count) count

end Round

/-- The count recorded for a set after several runs. -/
def recorded (spec : AutoscalerSpec) (key : SetKey) (count : Int) (rounds : List Round) : Int :=
  rounds.foldl (fun count round => round.after spec key count) count

/-- Runs of a set in turn, between which nothing changes its recorded count. -/
def History (spec : AutoscalerSpec) (key : SetKey) : Int → List Round → Prop
  | _, [] => True
  | count, round :: rest => round.Reads spec key count ∧ History spec key (round.after spec key count) rest

/-- A run that comes upon a count and records others, or tries to. -/
structure Round.Paced (spec : AutoscalerSpec) (key : SetKey) (count : Int) (round : Round) : Prop where
  own : ∀ patch ∈ (round.trace spec key).patches, patch.1 = key
  nearer : ∀ patch ∈ (round.trace spec key).patches, spec.distance patch.2 ≤ spec.distance count
  /-- A decision to go up never lowers the count, and one to go down never raises it. -/
  way : ∀ patch ∈ (round.trace spec key).patches, ∃ nodes, round.standing spec key = .surveyed count nodes ∧
    (spec.direction nodes = .up ∧ count < patch.2 ∨ spec.direction nodes = .down ∧ patch.2 < count)
  /-- Bookies are taken off the count only when their cookies are confirmed to be gone. -/
  cleared : ∀ bookie, spec = .bookkeeper bookie →
    ∀ patch ∈ (round.trace spec key).patches, count - patch.2 ≤ (round.trace spec key).confirmed.length
  /-- No cookie is confirmed twice, unless a listing names a pod twice. -/
  distinct : ∀ bookie, spec = .bookkeeper bookie →
    (∀ time pods, .called time (.pods key.ns key.selector) (.ok pods) ∈ round.trace spec key →
      (pods.filterMap fun pod => pod.name).Nodup) → (round.trace spec key).confirmed.Nodup
  seen : (round.trace spec key).patches ≠ [] → ∃ opening, opening <+: round.trace spec key ∧
    Opened key (spec.container round.settings) spec.stabilizationMs count opening

/-- How the recorded count of a set goes through its runs. -/
structure Paced (spec : AutoscalerSpec) (key : SetKey) (count : Int) (rounds : List Round) : Prop where
  bounded : ∀ before after, rounds = before ++ after → spec.Within (recorded spec key count before) →
    spec.Within (recorded spec key count rounds)
  each : ∀ before round after, rounds = before ++ round :: after →
    round.Paced spec key (recorded spec key count before)
  /-- After a count was recorded, no run records another until one has seen that many replicas ready and
  that many pods listed. -/
  settled : ∀ before first between second after last,
    rounds = before ++ first :: between ++ second :: after → (key, last) ∈ (first.trace spec key).landed →
    (∀ round ∈ between, (round.trace spec key).landed = []) → (second.trace spec key).patches ≠ [] →
    (∃ time, .called time (.readyReplicas key.ns key.statefulSet) (.ok (some last)) ∈
      second.trace spec key) ∧
    ∃ time pods, .called time (.pods key.ns key.selector) (.ok pods) ∈ second.trace spec key ∧
      (pods.length : Int) = last

theorem Trace.landed_append (first second : Trace) : landed (first ++ second) = first.landed ++ second.landed :=
  List.filterMap_append

theorem Trace.landed_sublist (trace : Trace) : trace.landed.Sublist trace.patches := by
  induction trace with
  | nil => exact .slnil
  | cons event rest ih =>
      refine (patches_append [event] rest) ▸ (landed_append [event] rest) ▸ List.Sublist.append ?_ ih
      match event with
      | .sent .. | .answered .. | .settled .. => exact .slnil
      | .called _ (.patchReplicas ..) (.ok _) => exact .refl _
      | .called _ (.patchReplicas ..) (.error _) => exact List.nil_sublist _
      | .called _ (.readyReplicas ..) _ | .called _ (.pods ..) _ | .called _ (.cpuUsage ..) _
      | .called _ (.volumes ..) _ | .called _ (.deleteVolume ..) _ | .called _ (.currentReplicas _) _ =>
          exact .slnil

theorem Opened.read {key : SetKey} {container : String} {windowMs : Nat} {current : Int} {opening : Trace}
    (opened : Opened key container windowMs current opening) :
    ∃ time, .called time (.currentReplicas key) (.ok (some current)) ∈ opening := by
  cases opened with
  | @intro time => exact ⟨time, List.mem_append_left _ List.mem_cons_self⟩

section Run

variable {σ : Type} {backend : Backend σ} {cancellation : Cancellation} {spec : AutoscalerSpec}
  {key : SetKey} {settings : ScalingSettings} {trace : Trace} {result : Except Failure Unit} {count : Int}

theorem Evaluated.patched {standing : Standing spec.Nodes} {patch : SetKey × Int}
    (sound : spec.defect? = none) (fits : Fits count)
    (evaluated : Evaluated backend cancellation spec key settings standing trace result)
    (reads : ∀ time current, .called time (.currentReplicas key) (.ok (some current)) ∈ trace →
      current = count) (mem : patch ∈ trace.patches) :
    patch.1 = key ∧ ∃ nodes opening, standing = .surveyed count nodes ∧ opening <+: trace ∧
      Opened key (spec.container settings) spec.stabilizationMs count opening ∧
      spec.Moves (spec.direction nodes) count patch.2 := by
  cases evaluated with
  | intro staged concluded =>
      cases staged with
      | refused => cases concluded; cases mem
      | closed _ idles =>
          cases concluded
          rw [List.append_nil, Trace.patches_eq_nil _ idles] at mem
          cases mem
      | @passed opening surveyed current found start finish state state' _ opened ran =>
          have spares := Program.events_of_uses backend cancellation
            (spec.survey_looks key settings).spares start state
          rw [ran] at spares
          have quiet : Trace.patches (opening ++ surveyed) = [] := by
            rw [Trace.patches_append, Trace.patches_eq_nil _ opened.idles, Trace.patches_eq_nil _ spares]
            rfl
          obtain ⟨time, read⟩ := opened.read
          cases found with
          | error failure =>
              cases concluded
              rw [List.append_nil, quiet] at mem
              cases mem
          | ok nodes =>
              cases concluded with
              | acted committed =>
                  cases reads time current (by simp [read])
                  rcases (committed.after quiet).patches with ⟨none, -⟩ | ⟨target, aims, one⟩
                  · rw [none] at mem
                    cases mem
                  · rw [one] at mem
                    cases List.mem_singleton.mp mem
                    exact ⟨rfl, nodes, opening, rfl, by simp, opened, aims.moves sound fits⟩

end Run

namespace BookieTask

variable {σ : Type} {backend : Backend σ} {cancellation : Cancellation} {key : SetKey}
  {spec : BookieSpec} {settings : ScalingSettings} {trace opening : Trace} {count current : Int}
  {nodes : List BookieNode} {finish : Nat}

theorem Surveyed.read (surveyed : Surveyed backend cancellation key spec settings opening current nodes finish) :
    ∃ time, .called time (.currentReplicas key) (.ok (some current)) ∈ opening := by
  cases surveyed with
  | @intro opening _ _ _ time _ _ _ _ _ recorded => exact ⟨time, List.mem_append_left _ recorded⟩

/-- The count comes down by no more than the number of cookies that are gone. -/
theorem Course.cleared (course : Course backend cancellation key spec settings trace) (fits : Fits count)
    (reads : ∀ time current, .called time (.currentReplicas key) (.ok (some current)) ∈ trace →
      current = count) {patch : SetKey × Int} (mem : patch ∈ trace.patches) :
    count - patch.2 ≤ trace.confirmed.length := by
  cases course with
  | spared spares =>
      rw [Trace.patches_eq_nil _ spares] at mem
      cases mem
  | @grown opening patches current nodes step finish surveyed _ patched =>
      obtain ⟨time, read⟩ := surveyed.read
      cases reads time current (by simp [read])
      rw [Trace.patches_append, Trace.patches_eq_nil _ surveyed.spares, patched.patches,
        List.nil_append] at mem
      have raised := BookieSpec.le_target_up spec count step
      split at mem
      · cases mem
      · cases List.mem_singleton.mp mem
        dsimp only
        omega
  | @shrunk opening look shrinking current first rest magnitude asked start health surveyed planned
      looked _ shrunk =>
      obtain ⟨time, read⟩ := surveyed.read
      cases reads time current (by simp [read])
      obtain ⟨kept, gone, -, confirmed, patches⟩ := shrunk.effect
      have looking : ∀ event ∈ look, event.Spares :=
        looked.within (by simp [BookieAction.touches, Removal.Protocol.surveying])
      have removed : gone.length ≤ (opening ++ look ++ shrinking).confirmed.length := by
        rw [Trace.confirmed_append, confirmed, List.length_append, List.length_reverse, List.length_map]
        exact Nat.le_add_left _ _
      rw [Trace.patches_append, Trace.patches_append, Trace.patches_eq_nil _ surveyed.spares,
        Trace.patches_eq_nil _ looking, patches, List.nil_append, List.nil_append] at mem
      split at mem
      · cases mem
      · rename_i changed
        cases List.mem_singleton.mp mem
        have taken := (BookieSpec.target_down_cases fits changed).2.1
        dsimp only
        omega

theorem Course.distinct (course : Course backend cancellation key spec settings trace)
    (listed : ∀ time pods, .called time (.pods key.ns key.selector) (.ok pods) ∈ trace →
      (pods.filterMap fun pod => pod.name).Nodup) : trace.confirmed.Nodup := by
  have unconfirmed {trace : Trace} (spares : ∀ event ∈ trace, event.Spares) : trace.confirmed = [] :=
    Trace.confirmed_eq_nil fun event mem => (spares event mem).undeleting
  cases course with
  | spared spares =>
      rw [unconfirmed spares]
      exact .nil
  | grown surveyed _ patched =>
      rw [Trace.confirmed_append, unconfirmed surveyed.spares, patched.confirmed]
      exact .nil
  | @shrunk opening look shrinking current first rest magnitude asked start health surveyed planned
      looked _ shrunk =>
      obtain ⟨kept, gone, split, confirmed, -⟩ := shrunk.effect
      have looking : ∀ event ∈ look, event.Spares :=
        looked.within (by simp [BookieAction.touches, Removal.Protocol.surveying])
      have pods : ((first :: rest).map BookieNode.pod).Nodup := by
        cases surveyed with
        | intro _ _ _ found =>
            obtain ⟨pods, time, happened, named⟩ := Survey.bookieNodes_found found
            rw [named]
            exact (sortByOrdinal_perm id _).nodup_iff.mpr (listed time pods (by simp [happened]))
      have part : gone <:+ first :: rest :=
        (List.suffix_append kept gone).trans (split ▸ List.drop_suffix _ _)
      have apart : (gone.map BookieNode.pod).Nodup := pods.sublist (part.sublist.map _)
      rw [Trace.confirmed_append, Trace.confirmed_append, unconfirmed surveyed.spares,
        unconfirmed looking, confirmed, List.nil_append, List.nil_append]
      refine List.nodup_reverse.mpr (List.pairwise_map.mpr ((List.pairwise_map.mp apart).imp ?_))
      exact fun differ same => differ (congrArg BookieCommand.pod same)

end BookieTask

section Rounds

variable {spec : AutoscalerSpec} {key : SetKey} {count : Int}

theorem AutoscalerSpec.lower_nonneg (sound : spec.defect? = none) : 0 ≤ spec.lower := by
  cases spec with
  | broker spec =>
      dsimp only [lower]
      omega
  | bookkeeper spec => exact (BookieSpec.limits_of_sound sound).1

namespace Round

variable {round : Round}

theorem patched (sound : spec.defect? = none) (fits : Fits count) (reads : round.Reads spec key count)
    {patch : SetKey × Int} (mem : patch ∈ (round.trace spec key).patches) :
    patch.1 = key ∧ ∃ nodes opening, round.standing spec key = .surveyed count nodes ∧
      opening <+: round.trace spec key ∧
      Opened key (spec.container round.settings) spec.stabilizationMs count opening ∧
      spec.Moves (spec.direction nodes) count patch.2 :=
  (spec.run_evaluated round.backend round.cancellation key round.settings round.start
    round.state).patched sound fits reads mem

theorem paced (sound : spec.defect? = none) (fits : Fits count) (reads : round.Reads spec key count) :
    round.Paced spec key count where
  own := fun _ mem => (patched sound fits reads mem).1
  nearer := fun _ mem => by
    obtain ⟨-, nodes, opening, -, -, -, moves⟩ := patched sound fits reads mem
    exact moves.nearer
  way := fun _ mem => by
    obtain ⟨-, nodes, opening, stands, -, -, moves⟩ := patched sound fits reads mem
    exact ⟨nodes, stands, moves.way⟩
  cleared := by
    rintro bookie rfl patch mem
    exact (BookieTask.run_course round.backend round.cancellation key bookie round.settings round.start
      round.state).cleared fits reads mem
  distinct := by
    rintro bookie rfl listed
    exact (BookieTask.run_course round.backend round.cancellation key bookie round.settings round.start
      round.state).distinct listed
  seen := fun some_patch => by
    obtain ⟨patch, mem⟩ := List.exists_mem_of_ne_nil _ some_patch
    obtain ⟨-, nodes, opening, -, part, opened, -⟩ := patched sound fits reads mem
    exact ⟨opening, part, opened⟩

/-- A run records no count, or one, which it then leaves behind. -/
theorem after_cases (sound : spec.defect? = none) (fits : Fits count) (reads : round.Reads spec key count) :
    (round.trace spec key).landed = [] ∧ round.after spec key count = count ∨
      ∃ target, (round.trace spec key).landed = [(key, target)] ∧
        (key, target) ∈ (round.trace spec key).patches ∧ round.after spec key count = target := by
  have once := (spec.run_evaluated round.backend round.cancellation key round.settings round.start
    round.state).gated.once
  have part := Trace.landed_sublist (round.trace spec key)
  unfold after
  rcases landed : (round.trace spec key).landed with _ | ⟨⟨own, target⟩, rest⟩
  · exact .inl ⟨rfl, rfl⟩
  · rw [landed] at part
    have mem : (own, target) ∈ (round.trace spec key).patches := part.subset List.mem_cons_self
    have alone : rest = [] := by
      have few := Nat.le_trans part.length_le once
      rw [List.length_cons] at few
      exact List.eq_nil_of_length_eq_zero (by omega)
    obtain ⟨rfl, -⟩ := patched sound fits reads mem
    subst alone
    exact .inr ⟨target, rfl, mem, by simp⟩

theorem fits_after (sound : spec.defect? = none) (fits : Fits count) (reads : round.Reads spec key count) :
    Fits (round.after spec key count) := by
  rcases after_cases sound fits reads with ⟨-, same⟩ | ⟨target, -, mem, moved⟩
  · rwa [same]
  · obtain ⟨-, nodes, opening, -, -, -, moves⟩ := patched sound fits reads mem
    rw [moved]
    exact moves.fits

theorem within_after (sound : spec.defect? = none) (fits : Fits count) (reads : round.Reads spec key count)
    (within : spec.Within count) : spec.Within (round.after spec key count) := by
  rcases after_cases sound fits reads with ⟨-, same⟩ | ⟨target, -, mem, moved⟩
  · rwa [same]
  · obtain ⟨-, nodes, opening, -, -, -, moves⟩ := patched sound fits reads mem
    rw [moved]
    exact moves.kept within

end Round

namespace History

variable {rounds before after : List Round}

theorem recorded_append : recorded spec key count (before ++ after) =
    recorded spec key (recorded spec key count before) after :=
  List.foldl_append

theorem split (history : History spec key count (before ++ after)) :
    History spec key count before ∧ History spec key (recorded spec key count before) after := by
  induction before generalizing count with
  | nil => exact ⟨trivial, history⟩
  | cons round rest ih =>
      obtain ⟨reads, later⟩ := history
      obtain ⟨first, second⟩ := ih later
      exact ⟨⟨reads, first⟩, second⟩

/-- What every run keeps of the recorded count is kept by all of them. -/
theorem invariant (holds : Int → Prop) (history : History spec key count rounds) (initially : holds count)
    (step : ∀ count round, holds count → Round.Reads spec key round count →
      holds (round.after spec key count)) : holds (recorded spec key count rounds) := by
  induction rounds generalizing count with
  | nil => exact initially
  | cons round rest ih => exact ih history.2 (step count round initially history.1)

theorem fits (sound : spec.defect? = none) (fits : Fits count) (history : History spec key count rounds) :
    Fits (recorded spec key count rounds) :=
  history.invariant Fits fits fun _ _ fits reads => Round.fits_after sound fits reads

theorem bounded (sound : spec.defect? = none) (fits : Fits count) (within : spec.Within count)
    (history : History spec key count rounds) : spec.Within (recorded spec key count rounds) :=
  (history.invariant (fun count => Fits count ∧ spec.Within count) ⟨fits, within⟩ fun _ _ held reads =>
    ⟨Round.fits_after sound held.1 reads, Round.within_after sound held.1 reads held.2⟩).2

theorem recorded_of_still (still : ∀ round ∈ rounds, (round.trace spec key).landed = []) :
    recorded spec key count rounds = count := by
  induction rounds with
  | nil => rfl
  | cons round rest ih =>
      have same : round.after spec key count = count := by
        rw [Round.after, still round List.mem_cons_self]
        rfl
      rw [recorded, List.foldl_cons, same]
      exact ih fun other mem => still other (.tail _ mem)

end History

theorem Opened.seen {container : String} {windowMs : Nat} {opening : Trace}
    (opened : Opened key container windowMs count opening) :
    (∃ time, .called time (.readyReplicas key.ns key.statefulSet) (.ok (some count)) ∈ opening) ∧
      ∃ time pods, .called time (.pods key.ns key.selector) (.ok pods) ∈ opening ∧
        pods.length = count.toNat := by
  cases opened with
  | intro _ passed =>
      cases passed with
      | @intro time pods many => exact ⟨⟨time, by simp⟩, time, pods, by simp, many⟩

/-- However the cluster changes between its runs, a set's recorded count comes no further from the bounds of
the spec, goes the way of each decision, and waits for the cluster after each change. -/
theorem history_paced (spec : AutoscalerSpec) (key : SetKey) (sound : spec.defect? = none) (count : Int32)
    (rounds : List Round) (history : History spec key count.toInt rounds) :
    Paced spec key count.toInt rounds := by
  have each (before : List Round) (round : Round) (after : List Round)
      (cut : rounds = before ++ round :: after) : Fits (recorded spec key count.toInt before) ∧
        round.Reads spec key (recorded spec key count.toInt before) := by
    rw [cut] at history
    obtain ⟨first, later⟩ := history.split
    exact ⟨first.fits sound (fits_toInt count), later.1⟩
  refine ⟨fun before after cut within => ?_, fun before round after cut => ?_,
    fun before first between second after last cut landed still some_patch => ?_⟩
  · rw [cut] at history ⊢
    obtain ⟨first, later⟩ := history.split
    rw [History.recorded_append]
    exact later.bounded sound (first.fits sound (fits_toInt count)) within
  · obtain ⟨fits, reads⟩ := each before round after cut
    exact Round.paced sound fits reads
  · obtain ⟨fits, reads⟩ := each before first (between ++ second :: after) (by simp [cut])
    have moved : first.after spec key (recorded spec key count.toInt before) = last ∧ spec.lower ≤ last := by
      rcases Round.after_cases sound fits reads with ⟨none, -⟩ | ⟨target, one, mem, moved⟩
      · rw [none] at landed
        cases landed
      · rw [one] at landed
        cases List.mem_singleton.mp landed
        obtain ⟨-, nodes, opening, -, -, -, moves⟩ := Round.patched sound fits reads mem
        exact ⟨moved, moves.least⟩
    have kept : recorded spec key count.toInt (before ++ first :: between) = last := by
      rw [History.recorded_append, recorded, List.foldl_cons, moved.1]
      exact History.recorded_of_still still
    obtain ⟨fits', reads'⟩ := each (before ++ first :: between) second after cut
    rw [kept] at fits' reads'
    obtain ⟨opening, part, opened⟩ := (Round.paced sound fits' reads').seen some_patch
    obtain ⟨⟨time, ready⟩, time', pods, listed, many⟩ := opened.seen
    have positive := AutoscalerSpec.lower_nonneg sound
    exact ⟨⟨time, part.subset ready⟩, time', pods, part.subset listed, by omega⟩

end Rounds

open BookieTask in
/-- Three bookies of which one goes, then a run while the third is still there, and then a run that lets the
second go. -/
theorem history_paced_crew :
    let spec : AutoscalerSpec := .bookkeeper crewSpec
    let first : Round := ⟨Unit, crew 3 3, none, {}, 0, ()⟩
    let second : Round := ⟨Unit, crew 2 3, none, {}, 60000, ()⟩
    let third : Round := ⟨Unit, crew 2 2, none, {}, 120000, ()⟩
    spec.defect? = none ∧ History spec loneKey (3 : Int32).toInt [first, second, third] ∧
      Paced spec loneKey (3 : Int32).toInt [first, second, third] ∧
      (first.trace spec loneKey).landed = [(loneKey, 2)] ∧ (second.trace spec loneKey).patches = [] ∧
      (third.trace spec loneKey).landed = [(loneKey, 1)] := by
  intro spec first second third
  have sound : spec.defect? = none := by decide +kernel
  have opened : first.trace spec loneKey = _ := crew_trace 3 (by decide) rfl
  have landed : (first.trace spec loneKey).landed = [(loneKey, 2)] := by
    rw [opened]
    decide +kernel
  have moved : first.after spec loneKey (3 : Int32).toInt = 2 := by
    rw [Round.after, landed]
    rfl
  have idle : (second.trace spec loneKey).patches = [] := by decide +kernel
  have unlanded : (second.trace spec loneKey).landed = [] :=
    List.eq_nil_of_sublist_nil (idle ▸ Trace.landed_sublist _)
  have kept : second.after spec loneKey 2 = 2 := by
    rw [Round.after, unlanded]
    rfl
  have reopened : third.trace spec loneKey = _ := crew_trace 2 (by decide) rfl
  have landed' : (third.trace spec loneKey).landed = [(loneKey, 1)] := by
    rw [reopened]
    decide +kernel
  have reads {recorded present : Nat} {start : Nat} :
      Round.Reads spec loneKey ⟨Unit, crew recorded present, none, {}, start, ()⟩ recorded := by
    intro time current called
    obtain ⟨_, replied⟩ := Program.reply_of_called (crew recorded present) none called
    cases replied
    rfl
  have history : History spec loneKey (3 : Int32).toInt [first, second, third] := by
    refine ⟨reads, ?_, ?_, trivial⟩
    · rw [moved]
      exact reads
    · rw [moved, kept]
      exact reads
  exact ⟨sound, history, history_paced spec loneKey sound 3 [first, second, third] history, landed, idle, landed'⟩

end SetScaler
