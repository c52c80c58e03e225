import SetScaler.Proofs.Run.Composition

/-!
# One run under two cancellations

A program that heeds its cancellation only up to the end of a wait (`Program.Heeds`) runs the same
under any two cancellations that have not fired by then (`Heeds.run_eq_of_settled`). Where such a
wait is not over, what was to follow it has not happened (`Program.within_of_unsettled`).
-/

namespace SetScaler

namespace Cancellation

variable {cancellation other : Cancellation}

theorem firedBy_some (fires time : Nat) : firedBy (some fires) time = decide (fires ≤ time) :=
  rfl

theorem unfired_of_le {early late : Nat} (unfired : cancellation.firedBy late = false)
    (upto : early ≤ late) : cancellation.firedBy early = false := by
  cases cancellation with
  | none => rfl
  | some fires =>
      rw [firedBy_some, decide_eq_false_iff_not] at unfired ⊢
      omega

end Cancellation

theorem waitUntil_passed {cancellation : Cancellation} {time delayMs settled : Nat}
    (passed : waitUntil cancellation time delayMs = (settled, false)) :
    settled = time + delayMs ∧ cancellation.firedBy settled = false := by
  cases cancellation with
  | none =>
      cases passed
      exact ⟨rfl, rfl⟩
  | some fires =>
      by_cases early : fires ≤ time + delayMs
      · simp [waitUntil, early] at passed
      · simp only [waitUntil, early, if_false, Prod.mk.injEq, and_true] at passed
        subst passed
        exact ⟨rfl, by simpa [Cancellation.firedBy] using early⟩

theorem waitUntil_of_unfired {cancellation : Cancellation} {time delayMs : Nat}
    (unfired : cancellation.firedBy (time + delayMs) = false) :
    waitUntil cancellation time delayMs = (time + delayMs, false) := by
  cases cancellation with
  | none => rfl
  | some fires =>
      rw [Cancellation.firedBy_some, decide_eq_false_iff_not] at unfired
      exact if_neg unfired

theorem le_waitUntil (cancellation : Cancellation) (time delayMs : Nat) :
    time ≤ (waitUntil cancellation time delayMs).1 := by
  cases cancellation with
  | none => exact Nat.le_add_right _ _
  | some fires =>
      by_cases early : fires ≤ time + delayMs
      · rw [waitUntil, if_pos early]
        exact Nat.le_max_left time fires
      · simp [waitUntil, early]

/-- No wait of a trace came to its end uncancelled. -/
def Trace.Unsettled (trace : Trace) : Prop := ∀ instant, .settled instant false ∉ trace

/-- Whether an event is a command sent or answered. -/
def Event.isExchange : Event → Bool
  | sent .. | answered .. => true
  | called .. | settled .. => false

namespace Row

variable {σ : Type} (backend : Backend σ) (time : Nat)

/-- What a row waits for is still to come. -/
def Ahead (time : Nat) (row : Row) : Prop := ∀ flight ∈ row.inFlight, time < flight.due

theorem send_ahead (outputs : List Output) (commands : List BookieCommand) (state : σ) :
    (send backend time outputs commands state).1.Ahead time ∧
      ∀ event ∈ (send backend time outputs commands state).2.1, event.isExchange = true := by
  induction commands generalizing outputs state with
  | nil => simp [send, Ahead]
  | cons first rest ih =>
      unfold send
      dsimp only
      split
      · obtain ⟨ahead, exchanges⟩ := ih (outputs ++ [(backend.output first time state).1.2])
          (backend.output first time state).2
        exact ⟨ahead, List.forall_mem_cons.mpr ⟨rfl, List.forall_mem_cons.mpr ⟨rfl, exchanges⟩⟩⟩
      · rename_i lasts
        refine ⟨fun flight mem => ?_, List.forall_mem_singleton.mpr rfl⟩
        cases mem
        exact Nat.lt_add_of_pos_right (Nat.pos_of_ne_zero lasts)

theorem advance_ahead (row : Row) (state : σ) :
    (row.advance backend time state).1.Ahead time ∧
      ∀ event ∈ (row.advance backend time state).2.1, event.isExchange = true := by
  unfold advance
  split
  · exact send_ahead backend time _ _ state
  · rename_i flight flying
    split
    · obtain ⟨ahead, exchanges⟩ :=
        send_ahead backend time (row.outputs ++ [flight.output]) row.waiting state
      exact ⟨ahead, List.forall_mem_cons.mpr ⟨rfl, exchanges⟩⟩
    · rename_i early
      refine ⟨fun other mem => ?_, by simp⟩
      cases flying.symm.trans mem
      omega

theorem advanceAll_ahead (rows : List Row) (state : σ) :
    (∀ row ∈ (advanceAll backend time rows state).1, row.Ahead time) ∧
      ∀ event ∈ (advanceAll backend time rows state).2.1, event.isExchange = true := by
  induction rows generalizing state with
  | nil => simp [advanceAll]
  | cons row rest ih =>
      obtain ⟨ahead, first⟩ := advance_ahead backend time row state
      obtain ⟨others, later⟩ := ih (row.advance backend time state).2.2
      exact ⟨List.forall_mem_cons.mpr ⟨ahead, others⟩, List.forall_mem_append.mpr ⟨first, later⟩⟩

theorem cancelAll_exchanges (rows : List Row) :
    ∀ event ∈ (cancelAll time rows).2, event.isExchange = true := by
  intro event mem
  obtain ⟨row, -, mem⟩ := List.mem_flatMap.mp mem
  obtain ⟨flight, -, rfl⟩ := List.mem_map.mp mem
  rfl

theorem lt_of_nextDue {rows : List Row} {due : Nat} (ahead : ∀ row ∈ rows, row.Ahead time)
    (next : nextDue? rows = some due) : time < due := by
  obtain ⟨row, listed, waits⟩ := List.mem_filterMap.mp (List.min?_mem next)
  obtain ⟨flight, flying, rfl⟩ := Option.map_eq_some_iff.mp waits
  exact ahead row listed flight flying

end Row

section Rows

variable {σ : Type} (backend : Backend σ) (cancellation : Cancellation)

/-- The instant of the next round of rows of which one answers at `due`. -/
def Cancellation.cut (due : Nat) : Nat :=
  match cancellation with
  | none => due
  | some fires => min due fires

theorem Cancellation.lt_cut {cancellation : Cancellation} {time due : Nat}
    (unfired : cancellation.firedBy time = false) (ahead : time < due) :
    time < cancellation.cut due := by
  cases cancellation with
  | none => exact ahead
  | some fires =>
      rw [firedBy_some, decide_eq_false_iff_not, Nat.not_le] at unfired
      exact Nat.lt_min.mpr ⟨ahead, unfired⟩

theorem Cancellation.cut_eq {cancellation : Cancellation} {instant due : Nat}
    (unfired : cancellation.firedBy instant = false) (upto : due ≤ instant) :
    cancellation.cut due = due := by
  cases cancellation with
  | none => rfl
  | some fires =>
      rw [firedBy_some, decide_eq_false_iff_not] at unfired
      exact Nat.min_eq_left (by omega)

theorem Cancellation.cut_le_iff {cancellation : Cancellation} {instant due : Nat}
    (unfired : cancellation.firedBy instant = false) :
    cancellation.cut due ≤ instant ↔ due ≤ instant := by
  cases cancellation with
  | none => rfl
  | some fires =>
      rw [firedBy_some, decide_eq_false_iff_not] at unfired
      simp only [cut]
      omega

/-- A round of rows that have not been cancelled is their last one, or is followed by one at the next
instant. -/
theorem runRows_round (rounds : Nat) {time : Nat} (rows : List Row) (state : σ)
    (unfired : cancellation.firedBy time = false) :
    (Row.nextDue? (Row.advanceAll backend time rows state).1 = none ∧
      runRows backend cancellation (rounds + 1) time rows state =
        ⟨(Row.advanceAll backend time rows state).1, (Row.advanceAll backend time rows state).2.1, time,
          (Row.advanceAll backend time rows state).2.2⟩) ∨
    ∃ due, Row.nextDue? (Row.advanceAll backend time rows state).1 = some due ∧
      runRows backend cancellation (rounds + 1) time rows state =
        (runRows backend cancellation rounds (cancellation.cut due)
          (Row.advanceAll backend time rows state).1
          (Row.advanceAll backend time rows state).2.2).after
          (Row.advanceAll backend time rows state).2.1 := by
  rw [runRows, if_neg (by simp [unfired])]
  cases next : Row.nextDue? (Row.advanceAll backend time rows state).1 with
  | none => exact .inl ⟨rfl, by simp only [next]⟩
  | some due => exact .inr ⟨due, rfl, by simp only [next]; rfl⟩

theorem runRows_exchanges (rounds time : Nat) (rows : List Row) (state : σ) :
    time ≤ (runRows backend cancellation rounds time rows state).time ∧
      ∀ event ∈ (runRows backend cancellation rounds time rows state).trace,
        event.isExchange = true := by
  induction rounds generalizing time rows state with
  | zero => simp [runRows]
  | succ rounds ih =>
      cases fired : cancellation.firedBy time with
      | true =>
          rw [runRows, if_pos fired]
          exact ⟨Nat.le_refl time, Row.cancelAll_exchanges time rows⟩
      | false =>
          obtain ⟨ahead, first⟩ := Row.advanceAll_ahead backend time rows state
          rcases runRows_round backend cancellation rounds rows state fired with
            ⟨-, last⟩ | ⟨due, next, goes⟩
          · rw [last]
            exact ⟨Nat.le_refl time, first⟩
          · rw [goes]
            obtain ⟨grows, rest⟩ := ih (cancellation.cut due)
              (Row.advanceAll backend time rows state).1 (Row.advanceAll backend time rows state).2.2
            have later := Cancellation.lt_cut fired (Row.lt_of_nextDue time ahead next)
            exact ⟨Nat.le_trans (Nat.le_of_lt later) grows, List.forall_mem_append.mpr ⟨first, rest⟩⟩

/-- Rows that are over before a cancellation fires are not touched by it. -/
theorem runRows_eq_of_unfired {cancellation other : Cancellation} {instant : Nat}
    (unfired : cancellation.firedBy instant = false) (unfired' : other.firedBy instant = false)
    {rounds time : Nat} {rows : List Row} {state : σ}
    (ends : (runRows backend cancellation rounds time rows state).time ≤ instant) :
    runRows backend other rounds time rows state =
      runRows backend cancellation rounds time rows state := by
  induction rounds generalizing time rows state with
  | zero => rfl
  | succ rounds ih =>
      have upto : time ≤ instant :=
        Nat.le_trans (runRows_exchanges backend cancellation (rounds + 1) time rows state).1 ends
      have now := Cancellation.unfired_of_le unfired upto
      have now' := Cancellation.unfired_of_le unfired' upto
      rcases runRows_round backend cancellation rounds rows state now with
        ⟨none, last⟩ | ⟨due, next, goes⟩
      · rcases runRows_round backend other rounds rows state now' with ⟨-, last'⟩ | ⟨due, next, -⟩
        · rw [last, last']
        · cases none.symm.trans next
      · rcases runRows_round backend other rounds rows state now' with ⟨none, -⟩ | ⟨due', next', goes'⟩
        · cases none.symm.trans next
        · cases next.symm.trans next'
          rw [goes] at ends ⊢
          rw [goes']
          have later := (runRows_exchanges backend cancellation rounds (cancellation.cut due)
            (Row.advanceAll backend time rows state).1 (Row.advanceAll backend time rows state).2.2).1
          have due_upto : due ≤ instant :=
            (Cancellation.cut_le_iff unfired).mp (Nat.le_trans later ends)
          have same : other.cut due = cancellation.cut due :=
            (Cancellation.cut_eq unfired' due_upto).trans (Cancellation.cut_eq unfired due_upto).symm
          rw [same, ih ends]

end Rows

namespace Program

variable {σ α β : Type} {request : Request → Prop} {kind : BookieCommand → Prop}

/-- A program whose every request and command is of the given kinds, and which never hears of a
cancellation. -/
def Deaf (request : Request → Prop) (kind : BookieCommand → Prop) : Program α → Prop
  | done _ => True
  | call asked next => request asked ∧ ∀ reply, (next reply).Deaf request kind
  | exec sent next => kind sent ∧ ∀ output, (next output).Deaf request kind
  | query .. | settle .. | look .. => False

/-- A program that never waits for time to pass, and whose every request and command is of the given
kinds. -/
def Waitless (request : Request → Prop) (kind : BookieCommand → Prop) : Program α → Prop
  | done _ => True
  | call asked next => request asked ∧ ∀ reply, (next reply).Waitless request kind
  | exec sent next => kind sent ∧ ∀ output, (next output).Waitless request kind
  | query rows next =>
    (∀ row ∈ rows, ∀ sent ∈ row, kind sent) ∧ ∀ outputs, (next outputs).Waitless request kind
  | settle .. => False
  | look next => ∀ cancelled, (next cancelled).Waitless request kind

/-- A program that hears of no cancellation from a wait on, and that sends only commands of a kind
unless it has been through a wait that was not cancelled. -/
def Heeds (request : Request → Prop) (kind : BookieCommand → Prop) : Program α → Prop
  | done _ => True
  | call asked next => request asked ∧ ∀ reply, (next reply).Heeds request kind
  | exec sent next => kind sent ∧ ∀ output, (next output).Heeds request kind
  | query rows next =>
    (∀ row ∈ rows, ∀ sent ∈ row, kind sent) ∧ ∀ outputs, (next outputs).Heeds request kind
  | settle _ next => (next true).Deaf request kind ∧ (next false).Deaf request fun _ => True
  | look next => ∀ cancelled, (next cancelled).Heeds request kind

theorem Deaf.mono {request' : Request → Prop} {kind' : BookieCommand → Prop} {program : Program α}
    (asks : ∀ asked, request asked → request' asked) (tells : ∀ sent, kind sent → kind' sent)
    (deaf : program.Deaf request kind) : program.Deaf request' kind' := by
  induction program with
  | done => trivial
  | call asked _ ih => exact ⟨asks asked deaf.1, fun reply => ih reply (deaf.2 reply)⟩
  | exec sent _ ih => exact ⟨tells sent deaf.1, fun output => ih output (deaf.2 output)⟩
  | query | settle | look => exact deaf.elim

theorem Deaf.bind {program : Program α} {next : α → Program β} (first : program.Deaf request kind)
    (rest : ∀ result, (next result).Deaf request kind) : (program.bind next).Deaf request kind := by
  induction program with
  | done result => exact rest result
  | call _ _ ih => exact ⟨first.1, fun reply => ih reply (first.2 reply)⟩
  | exec _ _ ih => exact ⟨first.1, fun output => ih output (first.2 output)⟩
  | query | settle | look => exact first.elim

theorem Deaf.waitless {program : Program α} (deaf : program.Deaf request kind) :
    program.Waitless request kind := by
  induction program with
  | done => trivial
  | call _ _ ih => exact ⟨deaf.1, fun reply => ih reply (deaf.2 reply)⟩
  | exec _ _ ih => exact ⟨deaf.1, fun output => ih output (deaf.2 output)⟩
  | query | settle | look => exact deaf.elim

theorem Waitless.mono {request' : Request → Prop} {kind' : BookieCommand → Prop} {program : Program α}
    (asks : ∀ asked, request asked → request' asked) (tells : ∀ sent, kind sent → kind' sent)
    (brief : program.Waitless request kind) : program.Waitless request' kind' := by
  induction program with
  | done => trivial
  | call asked _ ih => exact ⟨asks asked brief.1, fun reply => ih reply (brief.2 reply)⟩
  | exec sent _ ih => exact ⟨tells sent brief.1, fun output => ih output (brief.2 output)⟩
  | query _ _ ih =>
      exact ⟨fun row given sent mem => tells sent (brief.1 row given sent mem),
        fun outputs => ih outputs (brief.2 outputs)⟩
  | settle => exact brief.elim
  | look _ ih => exact fun cancelled => ih cancelled (brief cancelled)

theorem Waitless.uses {program : Program α} (brief : program.Waitless request kind) :
    program.Uses request kind := by
  induction program with
  | done => trivial
  | call _ _ ih => exact ⟨brief.1, fun reply => ih reply (brief.2 reply)⟩
  | exec _ _ ih => exact ⟨brief.1, fun output => ih output (brief.2 output)⟩
  | query _ _ ih => exact ⟨brief.1, fun outputs => ih outputs (brief.2 outputs)⟩
  | settle => exact brief.elim
  | look _ ih => exact fun cancelled => ih cancelled (brief cancelled)

theorem Waitless.bind {program : Program α} {next : α → Program β}
    (first : program.Waitless request kind) (rest : ∀ result, (next result).Waitless request kind) :
    (program.bind next).Waitless request kind := by
  induction program with
  | done result => exact rest result
  | call _ _ ih => exact ⟨first.1, fun reply => ih reply (first.2 reply)⟩
  | exec _ _ ih => exact ⟨first.1, fun output => ih output (first.2 output)⟩
  | query _ _ ih => exact ⟨first.1, fun outputs => ih outputs (first.2 outputs)⟩
  | settle => exact first.elim
  | look _ ih => exact fun cancelled => ih cancelled (first cancelled)

/-- What comes before the wait may be waitless. -/
theorem Waitless.bind_heeds {program : Program α} {next : α → Program β}
    (first : program.Waitless request kind) (rest : ∀ result, (next result).Heeds request kind) :
    (program.bind next).Heeds request kind := by
  induction program with
  | done result => exact rest result
  | call _ _ ih => exact ⟨first.1, fun reply => ih reply (first.2 reply)⟩
  | exec _ _ ih => exact ⟨first.1, fun output => ih output (first.2 output)⟩
  | query _ _ ih => exact ⟨first.1, fun outputs => ih outputs (first.2 outputs)⟩
  | settle => exact first.elim
  | look _ ih => exact fun cancelled => ih cancelled (first cancelled)

theorem Waitless.heeds {program : Program α} (brief : program.Waitless request kind) :
    program.Heeds request kind := by
  have alone : (program.bind done).Heeds request kind := brief.bind_heeds fun _ => trivial
  rwa [bind_done] at alone

/-- What comes after the wait has to be deaf. -/
theorem Heeds.bind {program : Program α} {next : α → Program β} (first : program.Heeds request kind)
    (rest : ∀ result, (next result).Deaf request kind) : (program.bind next).Heeds request kind := by
  induction program with
  | done result => exact (rest result).waitless.heeds
  | call _ _ ih => exact ⟨first.1, fun reply => ih reply (first.2 reply)⟩
  | exec _ _ ih => exact ⟨first.1, fun output => ih output (first.2 output)⟩
  | query _ _ ih => exact ⟨first.1, fun outputs => ih outputs (first.2 outputs)⟩
  | settle _ _ _ =>
      exact ⟨first.1.bind rest,
        first.2.bind fun result => (rest result).mono (fun _ asked => asked) fun _ _ => trivial⟩
  | look _ ih => exact fun cancelled => ih cancelled (first cancelled)

theorem Heeds.mono {request' : Request → Prop} {kind' : BookieCommand → Prop} {program : Program α}
    (asks : ∀ asked, request asked → request' asked) (tells : ∀ sent, kind sent → kind' sent)
    (heeds : program.Heeds request kind) : program.Heeds request' kind' := by
  induction program with
  | done => trivial
  | call asked _ ih => exact ⟨asks asked heeds.1, fun reply => ih reply (heeds.2 reply)⟩
  | exec sent _ ih => exact ⟨tells sent heeds.1, fun output => ih output (heeds.2 output)⟩
  | query _ _ ih =>
      exact ⟨fun row given sent mem => tells sent (heeds.1 row given sent mem),
        fun outputs => ih outputs (heeds.2 outputs)⟩
  | settle _ _ _ => exact ⟨heeds.1.mono asks tells, heeds.2.mono asks fun _ told => told⟩
  | look _ ih => exact fun cancelled => ih cancelled (heeds cancelled)

theorem Heeds.uses {program : Program α} (heeds : program.Heeds request kind) :
    program.Uses request fun _ => True := by
  induction program with
  | done => trivial
  | call _ _ ih => exact ⟨heeds.1, fun reply => ih reply (heeds.2 reply)⟩
  | exec _ _ ih => exact ⟨trivial, fun output => ih output (heeds.2 output)⟩
  | query _ _ ih => exact ⟨fun _ _ _ _ => trivial, fun outputs => ih outputs (heeds.2 outputs)⟩
  | settle _ _ _ =>
      intro cancelled
      cases cancelled with
      | true => exact heeds.1.waitless.uses.mono (fun _ asked => asked) fun _ _ => trivial
      | false => exact heeds.2.waitless.uses
  | look _ ih => exact fun cancelled => ih cancelled (heeds cancelled)

section Run

theorem run_settle (backend : Backend σ) (cancellation : Cancellation) (delayMs : Nat)
    (next : Bool → Program α) (time : Nat) (state : σ) :
    (settle delayMs next).run backend cancellation time state =
      ((next (waitUntil cancellation time delayMs).2).run backend cancellation
        (waitUntil cancellation time delayMs).1 state).after
        [.settled (waitUntil cancellation time delayMs).1 (waitUntil cancellation time delayMs).2] :=
  rfl

variable (backend : Backend σ) {cancellation other : Cancellation} {program : Program α}
  {time instant : Nat} {state : σ}

theorem Deaf.run_eq (deaf : program.Deaf request kind) (cancellation other : Cancellation) (time : Nat)
    (state : σ) :
    program.run backend other time state = program.run backend cancellation time state := by
  induction program generalizing time state with
  | done => rfl
  | call asked next ih => simp only [run, ih _ (deaf.2 _)]
  | exec sent next ih => simp only [run, ih _ (deaf.2 _)]
  | query | settle | look => exact deaf.elim

theorem Deaf.not_settled {cancelled : Bool} (deaf : program.Deaf request kind) :
    .settled instant cancelled ∉ (program.run backend cancellation time state).trace := by
  induction program generalizing time state with
  | done => simp
  | call asked next ih => simpa [run] using ih _ (deaf.2 _)
  | exec sent next ih => simpa [run] using ih _ (deaf.2 _)
  | query | settle | look => exact deaf.elim

/-- A wait ends no earlier than the run began, and it ends uncancelled only before the cancellation
fires. -/
theorem settled_bounds {cancelled : Bool}
    (settled : .settled instant cancelled ∈ (program.run backend cancellation time state).trace) :
    time ≤ instant ∧ (cancelled = false → cancellation.firedBy instant = false) := by
  induction program generalizing time state with
  | done => cases settled
  | call asked next ih => exact ih _ (by simpa [run] using settled)
  | exec sent next ih =>
      obtain ⟨later, unfired⟩ := ih _ (by simpa [run] using settled)
      exact ⟨by omega, unfired⟩
  | query rows next ih =>
      obtain ⟨grows, exchanges⟩ := runRows_exchanges backend cancellation (commandCount rows + 1) time
        (rows.map Row.ofCommands) state
      rcases List.mem_append.mp settled with early | late
      · cases exchanges _ early
      · obtain ⟨later, unfired⟩ := ih _ late
        exact ⟨Nat.le_trans grows later, unfired⟩
  | settle delayMs next ih =>
      have grows := le_waitUntil cancellation time delayMs
      rcases waited : waitUntil cancellation time delayMs with ⟨ended, stopped⟩
      rw [run_settle, waited] at settled
      rw [waited] at grows
      rcases List.mem_cons.mp settled with here | late
      · cases here
        refine ⟨grows, ?_⟩
        rintro rfl
        exact (waitUntil_passed waited).2
      · obtain ⟨later, unfired⟩ := ih _ late
        exact ⟨Nat.le_trans grows later, unfired⟩
  | look next ih => exact ih _ settled

/-- Once a program that heeds its cancellation is through its wait, it has gone and will go the way
that it goes under any other cancellation that had not fired by then. -/
theorem Heeds.run_eq_of_settled (heeds : program.Heeds request kind)
    (settled : .settled instant false ∈ (program.run backend cancellation time state).trace)
    (unfired : other.firedBy instant = false) :
    program.run backend other time state = program.run backend cancellation time state := by
  have unfired' := (settled_bounds backend settled).2 rfl
  induction program generalizing time state with
  | done => cases settled
  | call asked next ih =>
      have later := by simpa [run] using settled
      simp only [run, ih _ (heeds.2 _) later]
  | exec sent next ih =>
      have later := by simpa [run] using settled
      simp only [run, ih _ (heeds.2 _) later]
  | query rows next ih =>
      rcases List.mem_append.mp settled with early | later
      · have exchanges := (runRows_exchanges backend cancellation (commandCount rows + 1) time
          (rows.map Row.ofCommands) state).2
        cases exchanges _ early
      · have same := runRows_eq_of_unfired backend unfired' unfired (settled_bounds backend later).1
        simp only [run, same, ih _ (heeds.2 _) later]
  | settle delayMs next ih =>
      rcases waited : waitUntil cancellation time delayMs with ⟨ended, stopped⟩
      rw [run_settle, waited] at settled
      cases stopped with
      | true =>
          rcases List.mem_cons.mp settled with here | late
          · cases here
          · exact absurd late (heeds.1.not_settled backend)
      | false =>
          rcases List.mem_cons.mp settled with here | late
          · cases here
            obtain ⟨rfl, -⟩ := waitUntil_passed waited
            rw [run_settle, run_settle, waited, waitUntil_of_unfired unfired,
              heeds.2.run_eq backend cancellation other]
          · exact absurd late (heeds.2.not_settled backend)
  | look next ih =>
      have upto := (settled_bounds backend settled).1
      have now := Cancellation.unfired_of_le unfired upto
      have now' := Cancellation.unfired_of_le unfired' upto
      rw [run, now'] at settled
      simp only [run, now, now', ih _ (heeds _) settled]

/-- A program that heeds its cancellation has sent nothing but commands of its kind unless it is
through its wait. -/
theorem Heeds.within_of_unsettled (heeds : program.Heeds request kind)
    (unsettled : Trace.Unsettled (program.run backend cancellation time state).trace) :
    ∀ event ∈ (program.run backend cancellation time state).trace,
      event.Within request kind := by
  induction program generalizing time state with
  | done => simp
  | call asked next ih =>
      refine List.forall_mem_cons.mpr ⟨heeds.1, ih _ (heeds.2 _) fun instant => ?_⟩
      simpa [run] using unsettled instant
  | exec sent next ih =>
      refine List.forall_mem_cons.mpr ⟨heeds.1, List.forall_mem_cons.mpr
        ⟨heeds.1, ih _ (heeds.2 _) fun instant => ?_⟩⟩
      simpa [run] using unsettled instant
  | query rows next ih =>
      have held : ∀ row ∈ rows.map Row.ofCommands, row.Holds kind := by
        intro row mem
        obtain ⟨commands, given, rfl⟩ := List.mem_map.mp mem
        exact ⟨by simp [Row.ofCommands], heeds.1 commands given⟩
      refine List.forall_mem_append.mpr ⟨runRows_within backend cancellation _ _ _ _ held,
        ih _ (heeds.2 _) fun instant settled => unsettled instant (List.mem_append_right _ settled)⟩
  | settle delayMs next ih =>
      rcases waited : waitUntil cancellation time delayMs with ⟨ended, stopped⟩
      cases stopped with
      | true =>
          have after := events_of_uses backend cancellation heeds.1.waitless.uses ended state
          simpa [run, waited, Event.Within] using after
      | false => exact absurd (by simp [run, waited]) (unsettled ended)
  | look next ih => exact ih _ (heeds _) unsettled

end Run

end Program
end SetScaler
