import SetScaler.Proofs.Removal.Accounting

/-!
# The stages of a candidate

A candidate that is gone or has failed stays as it is, whatever happens afterwards
(`Progress.run_of_isFinal`). An earlier stage passes over what does not concern it, is left for the next one
by a single occurrence, and by any other for a failure (`Progress.Leads.run_iff`). So the cookie is deleted
just if the turns of the three stages come one after the other, with nothing between them that a stage does
not pass over (`Progress.run_settles`).
-/

namespace SetScaler.Removal.Progress

variable {here next : Progress} {turn : Occurrence} {passes : Occurrence → Prop} {events : List Occurrence}

/-- A candidate's progress after one occurrence after the other. -/
def run (progress : Progress) (events : List Occurrence) : Progress := events.foldl step progress

theorem run_append (progress : Progress) (events later : List Occurrence) :
    progress.run (events ++ later) = (progress.run events).run later := List.foldl_append

theorem step_of_isFinal (final : here.isFinal = true) (event : Occurrence) : here.step event = here := by
  cases here with
  | writable | markedReadOnly | recovered => cases final
  | cookieDeleted | failed => cases event <;> rfl

theorem run_of_isFinal (final : here.isFinal = true) (events : List Occurrence) : here.run events = here := by
  induction events with
  | nil => rfl
  | cons event rest ih =>
      change (here.step event).run rest = here
      rw [step_of_isFinal final, ih]

/-- A stage that one occurrence, its turn, leads on from, and that anything but this and what it passes over
ends in a failure. -/
structure Leads (here next : Progress) (turn : Occurrence) (passes : Occurrence → Prop) : Prop where
  unfinished : here.isFinal = false
  moves : here.step turn = next
  stays : ∀ event, passes event → here.step event = here
  fails : ∀ event, event ≠ turn → ¬passes event → ∃ reason, here.step event = .failed reason

theorem Leads.run_passed (leads : Leads here next turn passes) (idle : ∀ event ∈ events, passes event) :
    here.run events = here := by
  induction events with
  | nil => rfl
  | cons event rest ih =>
      obtain ⟨first, others⟩ := List.forall_mem_cons.mp idle
      change (here.step event).run rest = here
      rw [leads.stays event first, ih others]

theorem Leads.run_iff (leads : Leads here next turn passes) :
    here.run events = .cookieDeleted ↔ ∃ before after, events = before ++ turn :: after ∧
      (∀ event ∈ before, passes event) ∧ next.run after = .cookieDeleted := by
  constructor
  · intro gone
    induction events with
    | nil =>
        have unfinished := leads.unfinished
        rw [show here = .cookieDeleted from gone] at unfinished
        cases unfinished
    | cons event rest ih =>
        change (here.step event).run rest = .cookieDeleted at gone
        by_cases its : event = turn
        · subst its
          rw [leads.moves] at gone
          exact ⟨[], rest, rfl, List.forall_mem_nil _, gone⟩
        · by_cases idle : passes event
          · rw [leads.stays event idle] at gone
            obtain ⟨before, after, rfl, others, gone⟩ := ih gone
            exact ⟨event :: before, after, rfl, List.forall_mem_cons.mpr ⟨idle, others⟩, gone⟩
          · obtain ⟨reason, failed⟩ := leads.fails event its idle
            rw [failed, run_of_isFinal rfl] at gone
            cases gone
  · rintro ⟨before, after, rfl, idle, gone⟩
    rw [run_append, leads.run_passed idle]
    change (here.step turn).run after = .cookieDeleted
    rw [leads.moves, gone]

theorem writable_leads : Leads .writable .markedReadOnly (.readOnly true) fun event =>
    (∀ accepted, event ≠ .readOnly accepted) ∧ ∀ reason, event ≠ .abort reason where
  unfinished := rfl
  moves := rfl
  stays event idle := by
    cases event with
    | recovery | ledgerCheck | cookie => rfl
    | readOnly accepted => exact absurd rfl (idle.1 accepted)
    | abort reason => exact absurd rfl (idle.2 reason)
  fails event other concerned := by
    cases event with
    | recovery | ledgerCheck | cookie => simp at concerned
    | readOnly accepted =>
        cases accepted with
        | true => contradiction
        | false => exact ⟨_, rfl⟩
    | abort reason => exact ⟨reason, rfl⟩

theorem marked_leads : Leads .markedReadOnly .recovered (.recovery true) fun event =>
    (∀ completed, event ≠ .recovery completed) ∧ ∀ reason, event ≠ .abort reason where
  unfinished := rfl
  moves := rfl
  stays event idle := by
    cases event with
    | readOnly accepted => cases accepted <;> rfl
    | ledgerCheck | cookie => rfl
    | recovery completed => exact absurd rfl (idle.1 completed)
    | abort reason => exact absurd rfl (idle.2 reason)
  fails event other concerned := by
    cases event with
    | readOnly | ledgerCheck | cookie => simp at concerned
    | recovery completed =>
        cases completed with
        | true => contradiction
        | false => exact ⟨_, rfl⟩
    | abort reason => exact ⟨reason, rfl⟩

theorem recovered_leads : Leads .recovered .cookieDeleted (.cookie true) fun event =>
    (∀ deleted, event ≠ .cookie deleted) ∧ event ≠ .ledgerCheck true ∧ ∀ reason, event ≠ .abort reason where
  unfinished := rfl
  moves := rfl
  stays event idle := by
    cases event with
    | readOnly | recovery => rfl
    | ledgerCheck mayHold =>
        cases mayHold with
        | true => exact absurd rfl idle.2.1
        | false => rfl
    | cookie deleted => exact absurd rfl (idle.1 deleted)
    | abort reason => exact absurd rfl (idle.2.2 reason)
  fails event other concerned := by
    cases event with
    | readOnly | recovery => simp at concerned
    | ledgerCheck mayHold =>
        cases mayHold with
        | true => exact ⟨_, rfl⟩
        | false => simp at concerned
    | cookie deleted =>
        cases deleted with
        | true => contradiction
        | false => exact ⟨_, rfl⟩
    | abort reason => exact ⟨reason, rfl⟩

/-- The first read-only request, the first recovery after it and the first deletion of the cookie after that
all succeed; no abort comes before the deletion, and between recovery and deletion no ledgers are found. -/
def Succeeds (events : List Occurrence) : Prop :=
  ∃ early middle late rest, events =
      early ++ .readOnly true :: (middle ++ .recovery true :: (late ++ .cookie true :: rest)) ∧
    (∀ accepted, .readOnly accepted ∉ early) ∧
    (∀ completed, .recovery completed ∉ middle) ∧
    (∀ deleted, .cookie deleted ∉ late) ∧
    .ledgerCheck true ∉ late ∧
    ∀ reason, .abort reason ∉ early ++ middle ++ late

theorem run_eq_cookieDeleted_iff : run .writable events = .cookieDeleted ↔ Succeeds events := by
  rw [writable_leads.run_iff]
  have gone (rest : List Occurrence) : run .cookieDeleted rest = .cookieDeleted := run_of_isFinal rfl rest
  simp only [marked_leads.run_iff, recovered_leads.run_iff, gone]
  constructor
  · rintro ⟨early, -, rfl, first, middle, -, rfl, second, late, rest, rfl, third, -⟩
    refine ⟨early, middle, late, rest, rfl, fun _ mem => (first _ mem).1 _ rfl,
      fun _ mem => (second _ mem).1 _ rfl, fun _ mem => (third _ mem).1 _ rfl,
      fun mem => (third _ mem).2.1 rfl, fun reason mem => ?_⟩
    rcases List.mem_append.mp mem with mem | mem
    · rcases List.mem_append.mp mem with mem | mem
      · exact (first _ mem).2 reason rfl
      · exact (second _ mem).2 reason rfl
    · exact (third _ mem).2.2 reason rfl
  · rintro ⟨early, middle, late, rest, rfl, marks, recovers, deletes, holds, aborts⟩
    refine ⟨early, _, rfl, ?_, middle, _, rfl, ?_, late, rest, rfl, ?_, trivial⟩
    · intro event mem
      refine ⟨fun accepted same => marks accepted (same ▸ mem), fun reason same => aborts reason ?_⟩
      simp [← same, mem]
    · intro event mem
      refine ⟨fun completed same => recovers completed (same ▸ mem), fun reason same => aborts reason ?_⟩
      simp [← same, mem]
    · intro event mem
      refine ⟨fun deleted same => deletes deleted (same ▸ mem), fun same => holds (same ▸ mem),
        fun reason same => aborts reason ?_⟩
      simp [← same, mem]

theorem needsRollback_eq_false_iff (progress : Progress) :
    progress.needsRollback = false ↔ progress = .cookieDeleted := by
  simp [needsRollback]

/-- The end that a candidate comes to is for good, and it is the deletion of the cookie just if every stage
was passed. -/
theorem run_settles (events : List Occurrence) :
    (∀ final, final = .cookieDeleted ∨ (∃ reason, final = .failed reason) → run .writable events = final →
      ∀ later, run .writable (events ++ later) = final) ∧
    (run .writable events = .cookieDeleted ↔ Succeeds events) ∧
    ((run .writable events).needsRollback = false ↔ Succeeds events) := by
  refine ⟨?_, run_eq_cookieDeleted_iff, ?_⟩
  · rintro final ends rfl later
    have final : (run .writable events).isFinal = true := by
      rcases ends with gone | ⟨reason, failed⟩
      · rw [gone]
        rfl
      · rw [failed]
        rfl
    rw [run_append, run_of_isFinal final]
  · rw [needsRollback_eq_false_iff, run_eq_cookieDeleted_iff]

/-- Ledgers are found once the recovery is done: no deletion of the cookie and no abort after that changes it. -/
theorem run_settles_residual :
    let events : List Occurrence := [.recovery true, .readOnly true, .ledgerCheck true, .recovery true,
      .recovery false, .ledgerCheck false, .ledgerCheck true]
    run .writable events = .failed .residualLedgers ∧
      run .writable (events ++ [.cookie true, .abort .cancelled]) = .failed .residualLedgers ∧
      ¬Succeeds events := by
  intro events
  obtain ⟨final, gone, -⟩ := run_settles events
  have failed : run .writable events = .failed .residualLedgers := by decide
  refine ⟨failed, final _ (.inr ⟨_, rfl⟩) failed _, fun succeeds => ?_⟩
  rw [gone.mpr succeeds] at failed
  cases failed

end SetScaler.Removal.Progress
