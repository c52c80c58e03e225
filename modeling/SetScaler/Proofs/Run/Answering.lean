import SetScaler.Proofs.Run.Cancellation

/-!
# What rows of commands come to

Let every command take a given time and have a given output. Then rows that are over before a
cancellation fires have come to these outputs, whatever the times are and however the rows took turns
(`runRows_answered`). If some row would have taken longer, the interruption shows in the outputs
(`runRows_interrupted`). By induction on the rounds: a round changes neither what a row will come to nor
when (`Row.Proceeds`), and each round but the first has a command fewer to wait for.
-/

namespace SetScaler

/-- Every command takes the time and has the output that are given for it. -/
def Backend.Answers {σ : Type} (backend : Backend σ) (delay : BookieCommand → Nat)
    (answer : BookieCommand → Output) : Prop :=
  ∀ command time state, (backend.output command time state).1 = (delay command, answer command)

/-- The time that commands take one after the other. -/
def span (delay : BookieCommand → Nat) : List BookieCommand → Nat
  | [] => 0
  | command :: rest => delay command + span delay rest

namespace Row

/-- The outputs of a row once it is over. -/
def answers (answer : BookieCommand → Output) (row : Row) : List Output :=
  row.outputs ++ row.inFlight.toList.map (fun flight => flight.output) ++ row.waiting.map answer

/-- When a row that has come so far by `time` is over. -/
def finish (delay : BookieCommand → Nat) (time : Nat) (row : Row) : Nat :=
  row.due?.getD time + span delay row.waiting

/-- The number of commands of a row that do not answer by `time`. -/
def left (time : Nat) (row : Row) : Nat :=
  (row.inFlight.toList.countP fun flight => time < flight.due) + row.waiting.length

/-- The same of several rows. -/
def leftOf (time : Nat) : List Row → Nat
  | [] => 0
  | row :: rest => row.left time + leftOf time rest

/-- What a row waits for is not over. -/
def Timely (time : Nat) (row : Row) : Prop := ∀ flight ∈ row.inFlight, time ≤ flight.due

/-- A row before and after a round. -/
structure Proceeds (delay : BookieCommand → Nat) (answer : BookieCommand → Output) (time : Nat)
    (row next : Row) : Prop where
  answers : next.answers answer = row.answers answer
  finish : next.finish delay time = row.finish delay time
  sent : next.inFlight = none → next.waiting = []
  left : next.left time ≤ row.left time

section Rows

variable (delay : BookieCommand → Nat) (time : Nat) (outputs : List Output) (flight : InFlight)
  (waiting : List BookieCommand)

@[simp]
theorem finish_unsent : finish delay time ⟨outputs, none, waiting⟩ = time + span delay waiting := rfl

@[simp]
theorem finish_flying : finish delay time ⟨outputs, some flight, waiting⟩ = flight.due + span delay waiting :=
  rfl

@[simp]
theorem left_unsent : left time ⟨outputs, none, waiting⟩ = waiting.length := Nat.zero_add _

theorem left_flying_le : left time ⟨outputs, some flight, waiting⟩ ≤ waiting.length + 1 := by
  simp only [left, Option.toList_some, List.countP_singleton]
  split <;> omega

end Rows

variable {σ : Type} {backend : Backend σ} {delay : BookieCommand → Nat} {answer : BookieCommand → Output}
  {time : Nat}

theorem send_proceeds (answering : backend.Answers delay answer) (outputs : List Output)
    (commands : List BookieCommand) (state : σ) :
    Proceeds delay answer time ⟨outputs, none, commands⟩ (send backend time outputs commands state).1 := by
  induction commands generalizing outputs state with
  | nil => exact ⟨rfl, rfl, fun _ => rfl, Nat.le_refl _⟩
  | cons command rest ih =>
      simp only [send, answering command time state]
      split
      · rename_i instant
        obtain ⟨answers, finish, sent, left⟩ :=
          ih (outputs ++ [answer command]) (backend.output command time state).2
        refine ⟨?_, ?_, sent, ?_⟩
        · rw [answers]
          simp [Row.answers]
        · rw [finish]
          simp [span, instant]
        · apply Nat.le_trans left
          simp
      · refine ⟨?_, ?_, fun flown => absurd flown (Option.some_ne_none _), ?_⟩
        · simp [Row.answers]
        · simp [span, Nat.add_assoc]
        · apply Nat.le_trans (left_flying_le _ _ _ _)
          simp

theorem advance_proceeds (answering : backend.Answers delay answer) {row : Row} (timely : row.Timely time)
    (state : σ) : Proceeds delay answer time row (row.advance backend time state).1 := by
  obtain ⟨outputs, flight, waiting⟩ := row
  cases flight with
  | none => exact send_proceeds answering outputs waiting state
  | some flight =>
      by_cases passed : flight.due ≤ time
      · have now : flight.due = time := Nat.le_antisymm passed (timely flight rfl)
        obtain ⟨answers, finish, sent, left⟩ :=
          send_proceeds answering (outputs ++ [flight.output]) waiting state
        simp only [advance, passed, if_true]
        refine ⟨?_, ?_, sent, ?_⟩
        · rw [answers]
          simp [Row.answers]
        · rw [finish]
          simp [now]
        · apply Nat.le_trans left
          simp [Row.left]
      · simp only [advance, passed, if_false]
        exact ⟨rfl, rfl, fun flown => absurd flown (Option.some_ne_none _), Nat.le_refl _⟩

/-- Several rows before and after a round. -/
structure AllProceed (delay : BookieCommand → Nat) (answer : BookieCommand → Output) (time : Nat)
    (rows next : List Row) : Prop where
  answers : next.map (answers answer) = rows.map (answers answer)
  finish : next.map (finish delay time) = rows.map (finish delay time)
  sent : ∀ row ∈ next, row.inFlight = none → row.waiting = []
  left : leftOf time next ≤ leftOf time rows

theorem advanceAll_proceed (answering : backend.Answers delay answer) {rows : List Row}
    (timely : ∀ row ∈ rows, row.Timely time) (state : σ) :
    AllProceed delay answer time rows (advanceAll backend time rows state).1 := by
  induction rows generalizing state with
  | nil => exact ⟨rfl, rfl, nofun, Nat.le_refl _⟩
  | cons row rest ih =>
      obtain ⟨one, others⟩ := List.forall_mem_cons.mp timely
      have first := advance_proceeds answering one state
      have later := ih others (row.advance backend time state).2.2
      refine ⟨?_, ?_, ?_, Nat.add_le_add first.left later.left⟩
      · simp [advanceAll, first.answers, later.answers]
      · simp [advanceAll, first.finish, later.finish]
      · exact List.forall_mem_cons.mpr ⟨first.sent, later.sent⟩

theorem left_mono {later : Nat} (row : Row) (upto : time ≤ later) : row.left later ≤ row.left time := by
  apply Nat.add_le_add_right
  apply List.countP_mono_left
  simp only [decide_eq_true_eq]
  omega

theorem leftOf_mono {later : Nat} (rows : List Row) (upto : time ≤ later) :
    leftOf later rows ≤ leftOf time rows := by
  induction rows with
  | nil => exact Nat.le_refl _
  | cons row rest ih => exact Nat.add_le_add (left_mono row upto) ih

/-- A row that answers at the next instant has one command fewer left. -/
theorem leftOf_lt {due : Nat} {rows : List Row} {row : Row} (listed : row ∈ rows)
    (flies : row.due? = some due) (ahead : time < due) : leftOf due rows < leftOf time rows := by
  induction rows with
  | nil => cases listed
  | cons first rest ih =>
      rcases List.mem_cons.mp listed with rfl | listed
      · have fewer : row.left due < row.left time := by
          obtain ⟨flight, flying, rfl⟩ := Option.map_eq_some_iff.mp flies
          simp [left, flying, ahead]
        exact Nat.add_lt_add_of_lt_of_le fewer (leftOf_mono rest (Nat.le_of_lt ahead))
      · exact Nat.add_lt_add_of_le_of_lt (left_mono first (Nat.le_of_lt ahead)) (ih listed)

theorem nextDue?_eq_some {rows : List Row} {due : Nat} (next : nextDue? rows = some due) :
    (∃ row ∈ rows, row.due? = some due) ∧ ∀ row ∈ rows, row.Timely due := by
  obtain ⟨attained, least⟩ := List.min?_eq_some_iff.mp next
  refine ⟨List.mem_filterMap.mp attained, ?_⟩
  intro row listed flight flying
  apply least
  exact List.mem_filterMap.mpr ⟨row, listed, by rw [due?, Option.mem_def.mp flying]; rfl⟩

theorem nextDue?_eq_none {rows : List Row} (last : nextDue? rows = none) :
    ∀ row ∈ rows, row.inFlight = none := by
  intro row listed
  have none := List.filterMap_eq_nil_iff.mp (List.min?_eq_none_iff.mp last) row listed
  exact Option.map_eq_none_iff.mp none

theorem finish_of_due {row : Row} {due : Nat} (flies : row.due? = some due) (delay : BookieCommand → Nat)
    (time : Nat) : row.finish delay time = due + span delay row.waiting := by
  rw [finish, flies]
  rfl

theorem le_finish {row : Row} (timely : row.Timely time) : time ≤ row.finish delay time := by
  unfold finish due?
  cases flying : row.inFlight with
  | none => exact Nat.le_add_right _ _
  | some flight => exact Nat.le_trans (timely flight flying) (Nat.le_add_right _ _)

/-- After a round the time makes no difference to when a row in flight is over. -/
theorem finish_later {row : Row} (sent : row.inFlight = none → row.waiting = []) (later : Nat) :
    row.finish delay later = later ∨ row.finish delay later = row.finish delay time := by
  cases flying : row.inFlight with
  | none =>
      left
      simp [finish, due?, flying, sent flying, span]
  | some flight =>
      right
      simp [finish, due?, flying]

/-- A row that is not over when the cancellation fires is waiting for a command before that. -/
theorem flying_of_fired {cancellation : Cancellation} {row : Row}
    (sent : row.inFlight = none → row.waiting = []) (now : cancellation.firedBy time = false)
    (fired : cancellation.firedBy (row.finish delay time) = true) : ∃ flight, row.inFlight = some flight := by
  cases flying : row.inFlight with
  | none => simp [finish, due?, flying, sent flying, span, now] at fired
  | some flight => exact ⟨flight, rfl⟩

end Row

namespace Row.AllProceed

variable {delay : BookieCommand → Nat} {answer : BookieCommand → Output} {time : Nat} {rows next : List Row}
  (round : AllProceed delay answer time rows next)
include round

theorem finish_before {row : Row} (listed : row ∈ next) :
    ∃ earlier ∈ rows, earlier.finish delay time = row.finish delay time := by
  apply List.mem_map.mp
  rw [← round.finish]
  exact List.mem_map_of_mem listed

theorem finish_after {row : Row} (listed : row ∈ rows) :
    ∃ later ∈ next, later.finish delay time = row.finish delay time := by
  apply List.mem_map.mp
  rw [round.finish]
  exact List.mem_map_of_mem listed

theorem answers_before {row : Row} (listed : row ∈ next) :
    ∃ earlier ∈ rows, earlier.answers answer = row.answers answer := by
  apply List.mem_map.mp
  rw [← round.answers]
  exact List.mem_map_of_mem listed

end Row.AllProceed

namespace Cancellation

theorem cut_le (cancellation : Cancellation) (due : Nat) : cancellation.cut due ≤ due := by
  cases cancellation with
  | none => exact Nat.le_refl due
  | some fires => exact Nat.min_le_left due fires

theorem cut_of_unfired {cancellation : Cancellation} {due : Nat}
    (unfired : cancellation.firedBy (cancellation.cut due) = false) : cancellation.cut due = due := by
  cases cancellation with
  | none => rfl
  | some fires =>
      simp only [cut, firedBy_some, decide_eq_false_iff_not] at unfired ⊢
      omega

end Cancellation

section Rounds

variable {σ : Type} {backend : Backend σ} {cancellation : Cancellation} {delay : BookieCommand → Nat}
  {answer : BookieCommand → Output}

/-- Rows that are over before the cancellation fires have all of their outputs. -/
theorem runRows_answered (answering : backend.Answers delay answer) {rounds time : Nat} {rows : List Row}
    (state : σ) (timely : ∀ row ∈ rows, row.Timely time) (few : Row.leftOf time rows < rounds)
    (unfired : ∀ row ∈ rows, cancellation.firedBy (row.finish delay time) = false) :
    Row.outputsOf (runRows backend cancellation rounds time rows state).result =
      rows.map (Row.answers answer) := by
  induction rounds generalizing time rows state with
  | zero => omega
  | succ rounds ih =>
      cases fired : cancellation.firedBy time with
      | true =>
          -- no row is over before `time`, so there are none
          cases rows with
          | nil => simp [runRows, fired, Row.cancelAll, Row.outputsOf]
          | cons row rest =>
              have early := Cancellation.unfired_of_le (unfired row List.mem_cons_self)
                (Row.le_finish (timely row List.mem_cons_self))
              cases fired.symm.trans early
      | false =>
          have round := Row.advanceAll_proceed answering timely state
          obtain ⟨ahead, -⟩ := Row.advanceAll_ahead backend time rows state
          rcases runRows_round backend cancellation rounds rows state fired with
            ⟨last, ends⟩ | ⟨due, next, goes⟩
          · rw [ends, ← round.answers]
            apply List.map_congr_left
            intro row listed
            have flown := Row.nextDue?_eq_none last row listed
            simp [Row.answers, flown, round.sent row listed flown]
          · obtain ⟨⟨row, listed, flies⟩, timely⟩ := Row.nextDue?_eq_some next
            have unfired : ∀ row ∈ (Row.advanceAll backend time rows state).1,
                cancellation.firedBy (row.finish delay time) = false := by
              intro row listed
              obtain ⟨earlier, among, same⟩ := round.finish_before listed
              rw [← same]
              exact unfired earlier among
            have then_unfired : cancellation.firedBy due = false := by
              have whole := unfired row listed
              rw [Row.finish_of_due flies] at whole
              exact Cancellation.unfired_of_le whole (Nat.le_add_right _ _)
            have fewer := Row.leftOf_lt listed flies (Row.lt_of_nextDue time ahead next)
            have kept := round.left
            rw [goes, Cancellation.cut_eq then_unfired (Nat.le_refl due), Ended.after_result,
              ih _ timely (by omega) ?_, round.answers]
            intro row listed
            rcases Row.finish_later (round.sent row listed) due with now | same
            · rw [now]
              exact then_unfired
            · rw [same]
              exact unfired row listed

/-- If some row is not over before the cancellation fires, one of the outputs says so. -/
theorem runRows_interrupted (answering : backend.Answers delay answer) {rounds time : Nat} {rows : List Row}
    (state : σ) (timely : ∀ row ∈ rows, row.Timely time)
    (few : cancellation.firedBy time = true ∧ 0 < rounds ∨ Row.leftOf time rows < rounds)
    {row : Row} (listed : row ∈ rows) (unfinished : 0 < row.pending)
    (fired : cancellation.firedBy (row.finish delay time) = true) :
    ∃ outputs ∈ Row.outputsOf (runRows backend cancellation rounds time rows state).result,
      .error .cancelled ∈ outputs ∧ ∃ row ∈ rows, outputs.length = (row.answers answer).length := by
  induction rounds generalizing time rows row state with
  | zero => omega
  | succ rounds ih =>
      cases now : cancellation.firedBy time with
      | true =>
          refine ⟨(row.cancel time).1.outputs, ?_, ?_, row, listed, ?_⟩
          · rw [runRows, if_pos now]
            exact List.mem_map_of_mem (List.mem_map_of_mem listed)
          · exact List.mem_append_right _ (List.mem_replicate.mpr ⟨by omega, rfl⟩)
          · simp [Row.cancel, Row.answers, Row.pending]
      | false =>
          have round := Row.advanceAll_proceed answering timely state
          obtain ⟨ahead, -⟩ := Row.advanceAll_ahead backend time rows state
          -- the row is over only after `time`, so that it still waits when the round has passed
          obtain ⟨later, among, same⟩ := round.finish_after listed
          rw [← same] at fired
          obtain ⟨flight, flying⟩ := Row.flying_of_fired (round.sent later among) now fired
          rcases runRows_round backend cancellation rounds rows state now with
            ⟨last, -⟩ | ⟨due, next, goes⟩
          · cases flying.symm.trans (Row.nextDue?_eq_none last later among)
          · obtain ⟨⟨first, comes, flies⟩, timely⟩ := Row.nextDue?_eq_some next
            have soon : ∀ row ∈ (Row.advanceAll backend time rows state).1,
                row.Timely (cancellation.cut due) := fun row listed flight flies =>
              Nat.le_trans (cancellation.cut_le due) (timely row listed flight flies)
            have fewer := Row.leftOf_lt comes flies (Row.lt_of_nextDue time ahead next)
            have kept := round.left
            have many : Row.leftOf time rows < rounds + 1 :=
              few.resolve_left fun late => by cases now.symm.trans late.1
            have few : cancellation.firedBy (cancellation.cut due) = true ∧ 0 < rounds ∨
                Row.leftOf (cancellation.cut due) (Row.advanceAll backend time rows state).1 < rounds := by
              -- where the cancellation comes before the next answer, one more round is enough
              cases late : cancellation.firedBy (cancellation.cut due) with
              | true => exact .inl ⟨rfl, by omega⟩
              | false =>
                  right
                  rw [Cancellation.cut_of_unfired late]
                  omega
            have fired : cancellation.firedBy (later.finish delay (cancellation.cut due)) = true := by
              simpa [Row.finish, Row.due?, flying] using fired
            have waits : 0 < later.pending := by
              rw [Row.pending, flying]
              exact Nat.lt_add_right _ Nat.one_pos
            obtain ⟨outputs, found, marked, other, theirs, size⟩ := ih _ soon few among waits fired
            obtain ⟨earlier, before, alike⟩ := round.answers_before theirs
            rw [goes]
            exact ⟨outputs, found, marked, earlier, before, alike ▸ size⟩

/-- The outputs of rows of which no command has been sent by `time`. -/
def queriedFrom (backend : Backend σ) (cancellation : Cancellation) (time : Nat)
    (rows : List (List BookieCommand)) (state : σ) : List (List Output) :=
  Row.outputsOf
    (runRows backend cancellation (commandCount rows + 1) time (rows.map Row.ofCommands) state).result

theorem leftOf_ofCommands (time : Nat) (rows : List (List BookieCommand)) :
    Row.leftOf time (rows.map Row.ofCommands) = commandCount rows := by
  induction rows with
  | nil => rfl
  | cons row rest ih =>
      simp only [commandCount] at ih
      simp [Row.leftOf, Row.ofCommands, commandCount, ih]

variable (answering : backend.Answers delay answer) {time : Nat} {rows : List (List BookieCommand)}
  (state : σ)
include answering

theorem queried_answered
    (unfired : ∀ row ∈ rows, cancellation.firedBy (time + span delay row) = false) :
    queriedFrom backend cancellation time rows state = rows.map fun row => row.map answer := by
  rw [queriedFrom, runRows_answered answering state (by simp [Row.ofCommands, Row.Timely])
    (by simp [leftOf_ofCommands]) (List.forall_mem_map.mpr unfired), List.map_map]
  rfl

theorem queried_interrupted {row : List BookieCommand} (listed : row ∈ rows) (some_command : row ≠ [])
    (fired : cancellation.firedBy (time + span delay row) = true) :
    ∃ outputs ∈ queriedFrom backend cancellation time rows state,
      .error .cancelled ∈ outputs ∧ ∃ row ∈ rows, outputs.length = row.length := by
  have fresh : Row.ofCommands row ∈ rows.map Row.ofCommands := List.mem_map_of_mem listed
  have waits : 0 < (Row.ofCommands row).pending := by
    simpa [Row.pending, Row.ofCommands] using List.length_pos_iff.mpr some_command
  have few : Row.leftOf time (rows.map Row.ofCommands) < commandCount rows + 1 := by
    simp [leftOf_ofCommands]
  obtain ⟨outputs, found, marked, other, among, size⟩ := runRows_interrupted answering state
    (by simp [Row.ofCommands, Row.Timely]) (.inr few) fresh waits fired
  obtain ⟨commands, theirs, rfl⟩ := List.mem_map.mp among
  exact ⟨outputs, found, marked, commands, theirs, by simpa [Row.answers, Row.ofCommands] using size⟩

end Rounds
end SetScaler
