import SetScaler.Run.Execution

/-!
# Runs of composed programs

A program that goes on with the result of another runs after it: from the time and the state in
which the first one ended, and with its events in front (`run_bind`). The requests and commands of a
run are among those that its program can come to (`events_of_uses`).
-/

namespace SetScaler

namespace Ended

variable {σ α : Type}

@[simp]
theorem after_result (events : Trace) (ended : Ended σ α) : (ended.after events).result = ended.result :=
  rfl

@[simp]
theorem after_trace (events : Trace) (ended : Ended σ α) :
    (ended.after events).trace = events ++ ended.trace :=
  rfl

@[simp]
theorem after_after (first second : Trace) (ended : Ended σ α) :
    (ended.after second).after first = ended.after (first ++ second) := by
  simp [after]

end Ended

namespace Program

variable {σ α β : Type} (backend : Backend σ) (cancellation : Cancellation)

@[simp]
theorem run_done (result : α) (time : Nat) (state : σ) :
    (done result).run backend cancellation time state = ⟨result, [], time, state⟩ :=
  rfl

theorem run_call {request : Request} {next : request.Result → Program α} {time : Nat} {state between : σ}
    {reply : request.Result} (replied : backend.reply request time state = (reply, between)) :
    (call request next).run backend cancellation time state =
      ((next reply).run backend cancellation time between).after [.called time request reply] := by
  simp only [run, replied]

theorem run_bind (program : Program α) (next : α → Program β) (time : Nat) (state : σ) :
    (program.bind next).run backend cancellation time state =
      ((next (program.run backend cancellation time state).result).run backend cancellation
        (program.run backend cancellation time state).time
        (program.run backend cancellation time state).state).after
        (program.run backend cancellation time state).trace := by
  induction program generalizing time state with
  | done result => rfl
  | call request rest ih => simp only [bind, run, ih]; rfl
  | exec command rest ih => simp only [bind, run, ih]; rfl
  | query rows rest ih => simp only [bind, run, ih, Ended.after_after]; rfl
  | settle delayMs rest ih => simp only [bind, run, ih]; rfl
  | look rest ih => simp only [bind, run, ih]

/-- Every request and every command that a program can come to is of the given kinds. -/
def Uses (request : Request → Prop) (command : BookieCommand → Prop) : Program α → Prop
  | done _ => True
  | call asked next => request asked ∧ ∀ reply, (next reply).Uses request command
  | exec sent next => command sent ∧ ∀ output, (next output).Uses request command
  | query rows next =>
    (∀ row ∈ rows, ∀ sent ∈ row, command sent) ∧ ∀ outputs, (next outputs).Uses request command
  | settle _ next => ∀ cancelled, (next cancelled).Uses request command
  | look next => ∀ cancelled, (next cancelled).Uses request command

theorem Uses.bind {request : Request → Prop} {command : BookieCommand → Prop}
    {program : Program α} {next : α → Program β} (first : program.Uses request command)
    (rest : ∀ result, (next result).Uses request command) :
    (program.bind next).Uses request command := by
  induction program with
  | done result => exact rest result
  | call asked next ih => exact ⟨first.1, fun reply => ih reply (first.2 reply)⟩
  | exec sent next ih => exact ⟨first.1, fun output => ih output (first.2 output)⟩
  | query rows next ih => exact ⟨first.1, fun outputs => ih outputs (first.2 outputs)⟩
  | settle delayMs next ih => exact fun cancelled => ih cancelled (first cancelled)
  | look next ih => exact fun cancelled => ih cancelled (first cancelled)

theorem Uses.mono {request request' : Request → Prop} {command command' : BookieCommand → Prop}
    {program : Program α} (asks : ∀ asked, request asked → request' asked)
    (tells : ∀ sent, command sent → command' sent) (uses : program.Uses request command) :
    program.Uses request' command' := by
  induction program with
  | done => trivial
  | call asked _ ih => exact ⟨asks asked uses.1, fun reply => ih reply (uses.2 reply)⟩
  | exec sent _ ih => exact ⟨tells sent uses.1, fun output => ih output (uses.2 output)⟩
  | query _ _ ih =>
      exact ⟨fun row given sent mem => tells sent (uses.1 row given sent mem),
        fun outputs => ih outputs (uses.2 outputs)⟩
  | settle _ _ ih => exact fun cancelled => ih cancelled (uses cancelled)
  | look _ ih => exact fun cancelled => ih cancelled (uses cancelled)

end Program

/-- A request or command that an event is about is of the given kinds. -/
def Event.Within (request : Request → Prop) (command : BookieCommand → Prop) : Event → Prop
  | .called _ asked _ => request asked
  | .sent _ told => command told
  | .answered _ told _ => command told
  | .settled _ _ => True

namespace Row

variable {σ : Type} (request : Request → Prop) {command : BookieCommand → Prop}

/-- Every command that a row has still to answer is of the given kind. -/
def Holds (command : BookieCommand → Prop) (row : Row) : Prop :=
  (∀ flight ∈ row.inFlight, command flight.command) ∧ ∀ sent ∈ row.waiting, command sent

theorem send_holds (backend : Backend σ) (time : Nat) (outputs : List Output)
    (commands : List BookieCommand) (state : σ) (held : ∀ sent ∈ commands, command sent) :
    (send backend time outputs commands state).1.Holds command ∧
      ∀ event ∈ (send backend time outputs commands state).2.1, event.Within request command := by
  induction commands generalizing outputs state with
  | nil => simp [send, Holds]
  | cons first rest ih =>
      have here : command first := held first List.mem_cons_self
      have later : ∀ sent ∈ rest, command sent := fun sent mem => held sent (.tail _ mem)
      unfold send
      dsimp only
      split
      · obtain ⟨rowHeld, events⟩ := ih (outputs ++ [(backend.output first time state).1.2])
          (backend.output first time state).2 later
        refine ⟨rowHeld, ?_⟩
        intro event mem
        rcases List.mem_cons.mp mem with rfl | mem
        · exact here
        · rcases List.mem_cons.mp mem with rfl | mem
          · exact here
          · exact events event mem
      · refine ⟨⟨?_, later⟩, ?_⟩
        · intro flight mem
          cases mem
          exact here
        · intro event mem
          cases List.mem_singleton.mp mem
          exact here

theorem advance_holds (backend : Backend σ) (time : Nat) (row : Row) (state : σ)
    (held : row.Holds command) :
    (row.advance backend time state).1.Holds command ∧
      ∀ event ∈ (row.advance backend time state).2.1, event.Within request command := by
  unfold advance
  split
  · exact send_holds request backend time _ _ state held.2
  · rename_i flight flying
    split
    · obtain ⟨rowHeld, events⟩ := send_holds request backend time
        (row.outputs ++ [flight.output]) row.waiting state held.2
      refine ⟨rowHeld, ?_⟩
      intro event mem
      rcases List.mem_cons.mp mem with rfl | mem
      · exact held.1 flight flying
      · exact events event mem
    · exact ⟨held, by simp⟩

theorem advanceAll_holds (backend : Backend σ) (time : Nat) (rows : List Row) (state : σ)
    (held : ∀ row ∈ rows, row.Holds command) :
    (∀ row ∈ (advanceAll backend time rows state).1, row.Holds command) ∧
      ∀ event ∈ (advanceAll backend time rows state).2.1, event.Within request command := by
  induction rows generalizing state with
  | nil => simp [advanceAll]
  | cons row rest ih =>
      obtain ⟨rowHeld, first⟩ := advance_holds request backend time row state
        (held row List.mem_cons_self)
      obtain ⟨restHeld, later⟩ := ih (row.advance backend time state).2.2
        (fun other mem => held other (.tail _ mem))
      constructor
      · intro other mem
        rcases List.mem_cons.mp mem with rfl | mem
        · exact rowHeld
        · exact restHeld other mem
      · intro event mem
        rcases List.mem_append.mp mem with mem | mem
        · exact first event mem
        · exact later event mem

theorem cancelAll_within (time : Nat) (rows : List Row) (held : ∀ row ∈ rows, row.Holds command) :
    ∀ event ∈ (cancelAll time rows).2, event.Within request command := by
  intro event mem
  obtain ⟨row, rowMem, mem⟩ := List.mem_flatMap.mp mem
  obtain ⟨flight, flying, rfl⟩ := List.mem_map.mp mem
  exact (held row rowMem).1 flight (Option.mem_toList.mp flying)

end Row

theorem runRows_within {σ : Type} {request : Request → Prop} {command : BookieCommand → Prop}
    (backend : Backend σ) (cancellation : Cancellation) (rounds time : Nat) (rows : List Row)
    (state : σ) (held : ∀ row ∈ rows, row.Holds command) :
    ∀ event ∈ (runRows backend cancellation rounds time rows state).trace,
      event.Within request command := by
  induction rounds generalizing time rows state with
  | zero => simp [runRows]
  | succ rounds ih =>
      unfold runRows
      split
      · exact Row.cancelAll_within request time rows held
      · obtain ⟨rowsHeld, first⟩ := Row.advanceAll_holds request backend time rows state held
        dsimp only
        split
        · exact first
        · intro event mem
          rcases List.mem_append.mp mem with mem | mem
          · exact first event mem
          · exact ih _ _ _ rowsHeld event mem

namespace Program

variable {σ α : Type} {request : Request → Prop} {command : BookieCommand → Prop}

theorem events_of_uses (backend : Backend σ) (cancellation : Cancellation) {program : Program α}
    (uses : program.Uses request command) (time : Nat) (state : σ) :
    ∀ event ∈ (program.run backend cancellation time state).trace, event.Within request command := by
  induction program generalizing time state with
  | done result => simp
  | call asked next ih =>
      intro event mem
      rcases List.mem_cons.mp mem with rfl | mem
      · exact uses.1
      · exact ih _ (uses.2 _) _ _ event mem
  | exec sent next ih =>
      intro event mem
      rcases List.mem_cons.mp mem with rfl | mem
      · exact uses.1
      · rcases List.mem_cons.mp mem with rfl | mem
        · exact uses.1
        · exact ih _ (uses.2 _) _ _ event mem
  | query rows next ih =>
      have held : ∀ row ∈ rows.map Row.ofCommands, row.Holds command := by
        intro row mem
        obtain ⟨commands, given, rfl⟩ := List.mem_map.mp mem
        exact ⟨by simp [Row.ofCommands], uses.1 commands given⟩
      intro event mem
      rcases List.mem_append.mp mem with mem | mem
      · exact runRows_within backend cancellation _ _ _ _ held event mem
      · exact ih _ (uses.2 _) _ _ event mem
  | settle delayMs next ih =>
      intro event mem
      rcases List.mem_cons.mp mem with rfl | mem
      · exact trivial
      · exact ih _ (uses _) _ _ event mem
  | look next ih => exact ih _ (uses _) _ _

/-- Every answer to a request is one that the backend gave. -/
theorem reply_of_called (backend : Backend σ) (cancellation : Cancellation) {program : Program α}
    {time instant : Nat} {state : σ} {asked : Request} {reply : asked.Result}
    (called : .called instant asked reply ∈ (program.run backend cancellation time state).trace) :
    ∃ state, reply = (backend.reply asked instant state).1 := by
  induction program generalizing time state with
  | done result => cases called
  | call asked next ih =>
      rcases List.mem_cons.mp called with same | later
      · cases same
        exact ⟨state, rfl⟩
      · exact ih _ later
  | exec sent next ih =>
      rcases List.mem_cons.mp called with same | later
      · cases same
      · rcases List.mem_cons.mp later with same | later
        · cases same
        · exact ih _ later
  | query rows next ih =>
      rcases List.mem_append.mp called with early | later
      · have held : ∀ row ∈ rows.map Row.ofCommands, row.Holds fun _ => True := by
          simp [Row.Holds]
        have uncalled : ∀ event ∈ (runRows backend cancellation (commandCount rows + 1) time
            (rows.map Row.ofCommands) state).trace, event.Within (fun _ => False) fun _ => True :=
          runRows_within backend cancellation _ _ _ _ held
        cases uncalled _ early
      · exact ih _ later
  | settle delayMs next ih =>
      rcases List.mem_cons.mp called with same | later
      · cases same
      · exact ih _ later
  | look next ih => exact ih _ called

end Program
end SetScaler
