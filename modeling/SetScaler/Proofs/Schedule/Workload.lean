import SetScaler.Schedule.Work

/-!
# Runs that go on and return

What a schedule relies on in the runs of its tasks: one that is left in progress goes on later, and not at
once (`Workload.Timely`), and it returns in the end, however often it is taken further and whatever has
happened meanwhile (`Workload.Returns`). Scripted runs do both.
-/

namespace SetScaler.Schedule

namespace Workload

variable {σ ρ : Type}

/-- A run that is left in progress can go on by itself only later than that. -/
structure Timely (work : Workload σ ρ) : Prop where
  start {task : Scheduled} {earlier time due : Nat} {state : σ} {run : ρ} :
    (work.start task earlier time state).1 = .going run → work.due? run = some due → time < due
  resume {time due : Nat} {cancelled : Bool} {state : σ} {run later : ρ} :
    (work.resume time cancelled run state).1 = .going later → work.due? later = some due → time < due

/-- A run that returns after being taken further some number of times. It may be left as it is for as long
as it is not due. -/
inductive Returns (work : Workload σ ρ) : ρ → Prop where
  | intro {run : ρ} {due : Nat} : work.due? run = some due →
      (∀ time cancelled state later, (work.resume time cancelled run state).1 = .going later →
        (later = run → due ≤ time) → Returns work later) →
      Returns work run

/-- Every run returns. -/
def AllReturn (work : Workload σ ρ) : Prop :=
  ∀ task earlier time state run, (work.start task earlier time state).1 = .going run → work.Returns run

/-- A run that, unless it is cancelled, goes on up to an instant and then returns with an outcome. -/
structure Lasts (work : Workload σ ρ) (run : ρ) (due : Nat) (outcome : RunEnd) : Prop where
  ready : work.due? run = some due
  before : ∀ time state, time < due → (work.resume time false run state).1 = .going run
  ends : ∀ time state, due ≤ time → (work.resume time false run state).1 = .ended outcome

theorem Returns.due {work : Workload σ ρ} {run : ρ} (returns : work.Returns run) :
    ∃ due, work.due? run = some due := by
  cases returns with
  | intro due _ => exact ⟨_, due⟩

/-- A run that is taken further returns all the same. -/
theorem Returns.resume {work : Workload σ ρ} {run later : ρ} (returns : work.Returns run) {time : Nat}
    {cancelled : Bool} {state : σ} (going : (work.resume time cancelled run state).1 = .going later) :
    work.Returns later := by
  by_cases same : later = run
  · exact same ▸ returns
  · cases returns with
    | intro _ further => exact further time cancelled state later going fun equal => absurd equal same

end Workload

section Scripted

variable (runsOf : SetKey → ScriptedRuns)

/-- A scripted run goes on as it is until it is due. -/
theorem scripted_going {time : Nat} {cancelled : Bool} {run later : ScriptedRun} {state : Unit}
    (going : ((scripted runsOf).resume time cancelled run state).1 = .going later) :
    later = run ∧ time < run.due := by
  simp only [scripted] at going
  split at going
  · cases going
  · split at going
    · cases going
    · rename_i early
      exact ⟨(RunStep.going.inj going).symm, Nat.lt_of_not_le early⟩

theorem scripted_timely : (scripted runsOf).Timely where
  start {task earlier time due state run} going later := by
    obtain rfl := Option.some.inj later
    simp only [scripted] at going
    split at going
    · cases going
    · rename_i lasts
      obtain rfl := RunStep.going.inj going
      exact Nat.lt_add_of_pos_right (Nat.pos_of_ne_zero lasts)
  resume going later := by
    obtain ⟨rfl, early⟩ := scripted_going runsOf going
    obtain rfl := Option.some.inj later
    exact early

theorem scripted_returns (run : ScriptedRun) : (scripted runsOf).Returns run := by
  refine .intro rfl fun time cancelled state later going late => ?_
  obtain ⟨same, early⟩ := scripted_going runsOf going
  exact absurd (late same) (Nat.not_le_of_lt early)

theorem scripted_allReturn : (scripted runsOf).AllReturn :=
  fun _ _ _ _ run _ => scripted_returns runsOf run

theorem scripted_lasts (run : ScriptedRun) : (scripted runsOf).Lasts run run.due run.outcome where
  ready := rfl
  before time state early := by simp [scripted, Nat.not_le_of_lt early]
  ends time state late := by simp [scripted, late]

end Scripted
end SetScaler.Schedule
