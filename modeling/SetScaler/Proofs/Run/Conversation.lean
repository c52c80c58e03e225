import SetScaler.Proofs.Run.Composition

/-!
# Conversations with pods

A conversation is a part of a trace in which commands are sent one at a time, each as soon as the
one before it has answered. `Asked` ties such a part to the commands and outputs that it carries.
-/

namespace SetScaler

/-- The command and the output of an answer, if the event is one. -/
def Event.answer? : Event → Option (BookieCommand × Output)
  | answered _ command output => some (command, output)
  | _ => none

namespace Trace

/-- The commands that came back, with their outputs. -/
def answers (trace : Trace) : List (BookieCommand × Output) := trace.filterMap Event.answer?

/-- The commands that were sent. -/
def sends (trace : Trace) : List BookieCommand := trace.commands.map Prod.snd

@[simp]
theorem answers_append (first second : Trace) :
    answers (first ++ second) = first.answers ++ second.answers :=
  List.filterMap_append

@[simp]
theorem sends_append (first second : Trace) : sends (first ++ second) = first.sends ++ second.sends := by
  simp [sends, commands]

theorem sent_of_mem_commands {trace : Trace} {time : Nat} {command : BookieCommand}
    (mem : (time, command) ∈ trace.commands) : .sent time command ∈ trace := by
  obtain ⟨event, mem, seen⟩ := List.mem_filterMap.mp mem
  cases event with
  | sent =>
      cases seen
      exact mem
  | called | answered | settled => cases seen

theorem mem_sends {trace : Trace} {command : BookieCommand} :
    command ∈ trace.sends ↔ ∃ time, .sent time command ∈ trace := by
  constructor
  · intro mem
    obtain ⟨⟨time, _⟩, listed, rfl⟩ := List.mem_map.mp mem
    exact ⟨time, sent_of_mem_commands listed⟩
  · rintro ⟨time, sent⟩
    exact List.mem_map.mpr ⟨(time, command), List.mem_filterMap.mpr ⟨_, sent, rfl⟩, rfl⟩

/-- Where two parts of a trace meet, an event is in the one or in the other. -/
theorem cut_append {first second before after : Trace} {event : Event}
    (cut : first ++ second = before ++ event :: after) :
    (∃ middle, first = before ++ event :: middle) ∨
      ∃ later, before = first ++ later ∧ second = later ++ event :: after := by
  rcases List.append_eq_append_iff.mp cut with ⟨later, rfl, tail⟩ | ⟨middle, rfl, tail⟩
  · exact .inr ⟨later, rfl, tail⟩
  · cases middle with
    | nil => exact .inr ⟨[], by simp, by simpa using tail.symm⟩
    | cons here middle =>
        obtain ⟨rfl, -⟩ := List.cons.inj tail
        exact .inl ⟨middle, rfl⟩

theorem cut_after {first second before after : Trace} {event : Event} (absent : event ∉ first)
    (cut : first ++ second = before ++ event :: after) :
    ∃ later, before = first ++ later ∧ second = later ++ event :: after := by
  rcases cut_append cut with ⟨middle, rfl⟩ | found
  · simp at absent
  · exact found

end Trace

variable {ι : Type} {command : ι → BookieCommand}

/-- The events of asking for a command about each of several things in turn, from a time on and up
to another. -/
inductive Asked (command : ι → BookieCommand) : Nat → List (ι × Output) → Trace → Nat → Prop where
  | nil (time : Nat) : Asked command time [] [] time
  | cons {item : ι} {output : Output} {rest : List (ι × Output)} {trace : Trace}
      {start middle finish : Nat} : start ≤ middle → Asked command middle rest trace finish →
      Asked command start ((item, output) :: rest)
        (.sent start (command item) :: .answered middle (command item) output :: trace) finish

/-- Every one of several things was asked for in turn, and every output was as expected. -/
def Asks (command : ι → BookieCommand) (expected : Output → Bool) (start : Nat) (items : List ι)
    (trace : Trace) (finish : Nat) : Prop :=
  ∃ answers : List (ι × Output), answers.map Prod.fst = items ∧
    (∀ answer ∈ answers, expected answer.2 = true) ∧ Asked command start answers trace finish

namespace Asked

theorem split {first second : List (ι × Output)} {trace : Trace} {start finish : Nat}
    (asked : Asked command start (first ++ second) trace finish) :
    ∃ early late middle, trace = early ++ late ∧ Asked command start first early middle ∧
      Asked command middle second late finish := by
  induction first generalizing trace start with
  | nil => exact ⟨[], trace, start, rfl, .nil start, asked⟩
  | cons answer rest ih =>
      cases asked with
      | cons later asked =>
          obtain ⟨early, late, middle, rfl, head, tail⟩ := ih asked
          exact ⟨_, late, middle, rfl, .cons later head, tail⟩

theorem trace_answers {answers : List (ι × Output)} {trace : Trace} {start finish : Nat}
    (asked : Asked command start answers trace finish) :
    trace.answers = answers.map fun answer => (command answer.1, answer.2) := by
  induction asked with
  | nil => rfl
  | cons _ _ ih => exact congrArg _ ih

theorem trace_sends {answers : List (ι × Output)} {trace : Trace} {start finish : Nat}
    (asked : Asked command start answers trace finish) :
    trace.sends = answers.map fun answer => command answer.1 := by
  induction asked with
  | nil => rfl
  | cons _ _ ih => exact congrArg _ ih

theorem mem_cases {answers : List (ι × Output)} {trace : Trace} {start finish : Nat} {event : Event}
    (asked : Asked command start answers trace finish) (mem : event ∈ trace) :
    ∃ answer ∈ answers, (∃ time, event = .sent time (command answer.1)) ∨
      ∃ time, event = .answered time (command answer.1) answer.2 := by
  induction asked with
  | nil => cases mem
  | @cons item output rest trace start middle finish _ _ ih =>
      rcases List.mem_cons.mp mem with rfl | mem
      · exact ⟨(item, output), List.mem_cons_self, .inl ⟨start, rfl⟩⟩
      · rcases List.mem_cons.mp mem with rfl | mem
        · exact ⟨(item, output), List.mem_cons_self, .inr ⟨middle, rfl⟩⟩
        · obtain ⟨answer, listed, seen⟩ := ih mem
          exact ⟨answer, .tail _ listed, seen⟩

/-- A command that was sent had all those before it answered. -/
theorem cut {answers : List (ι × Output)} {trace before after : Trace} {start finish time : Nat}
    {told : BookieCommand} (asked : Asked command start answers trace finish)
    (sent : trace = before ++ .sent time told :: after) :
    ∃ earlier item output later, answers = earlier ++ (item, output) :: later ∧
      told = command item ∧ Asked command start earlier before time := by
  induction asked generalizing before with
  | nil => simp at sent
  | @cons item output rest trace start middle finish later asked ih =>
      cases before with
      | nil =>
          cases sent
          exact ⟨[], item, output, rest, rfl, rfl, .nil _⟩
      | cons first before =>
          cases before with
          | nil => cases sent
          | cons second before =>
              simp only [List.cons_append, List.cons.injEq] at sent
              obtain ⟨rfl, rfl, sent⟩ := sent
              obtain ⟨earlier, found, answer, rest', rfl, same, asked⟩ := ih sent
              exact ⟨_, found, answer, rest', rfl, same, .cons later asked⟩

theorem within {answers : List (ι × Output)} {trace : Trace} {start finish : Nat}
    {request : Request → Prop} {kind : BookieCommand → Prop}
    (asked : Asked command start answers trace finish) (all : ∀ answer ∈ answers, kind (command answer.1)) :
    ∀ event ∈ trace, event.Within request kind := by
  intro event mem
  obtain ⟨answer, listed, ⟨_, rfl⟩ | ⟨_, rfl⟩⟩ := asked.mem_cases mem
  · exact all answer listed
  · exact all answer listed

end Asked

namespace Program

variable {σ α : Type} (backend : Backend σ) (cancellation : Cancellation)

/-- A command is carried out before all that depends on its output. -/
theorem run_execute_bind (told : BookieCommand) (next : Output → Program α) (time : Nat) (state : σ) :
    ∃ output finish state', time ≤ finish ∧
      ((execute told).bind next).run backend cancellation time state =
        ((next output).run backend cancellation finish state').after
          [.sent time told, .answered finish told output] :=
  ⟨_, _, _, Nat.le_add_right _ _, rfl⟩

end Program
end SetScaler
