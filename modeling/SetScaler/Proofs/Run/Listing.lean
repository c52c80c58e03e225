import Mathlib.Data.List.Forall2
import SetScaler.Proofs.Run.Composition

/-!
# Runs on relisted pods

Two backends relist each other's pods when they answer alike, but for the order in which they list pods
(`Relists`). A program is blind to that order when listings of the same pods lead it to the same
continuation (`Program.Blind`). A blind program goes the same way on both backends: it makes the same
requests and sends the same commands at the same times, and it comes to the same result (`Blind.agrees`).
-/

namespace SetScaler

/-- Two answers to a request that are the same, or that list the same pods in two orders. No two pods
have one name; pods without a name may be many. -/
inductive Request.Alike : (request : Request) → request.Result → request.Result → Prop where
  | same {request : Request} (reply : request.Result) : Alike request reply reply
  | relisted {ns selector : String} {pods others : List Pod} : pods.Perm others →
      (pods.filterMap fun pod => pod.name).Nodup → Alike (.pods ns selector) (.ok pods) (.ok others)

/-- Two events that are the same, but for the order of pods in an answer. -/
inductive Event.Alike : Event → Event → Prop where
  | same (event : Event) : Alike event event
  | called {time : Nat} {asked : Request} {reply other : asked.Result} : Request.Alike asked reply other →
      Alike (.called time asked reply) (.called time asked other)

/-- Two backends that, from states that are alike, give answers and outputs that are, at once or after
the same delays. -/
structure Relists {σ τ : Type} (backend : Backend σ) (other : Backend τ) (alike : σ → τ → Prop) :
    Prop where
  reply : ∀ request time state state', alike state state' →
    Request.Alike request (backend.reply request time state).1 (other.reply request time state').1 ∧
      alike (backend.reply request time state).2 (other.reply request time state').2
  output : ∀ command time state state', alike state state' →
    (backend.output command time state).1 = (other.output command time state').1 ∧
      alike (backend.output command time state).2 (other.output command time state').2

/-- An answer with its pods put in another order. -/
def Request.relist (permute : List Pod → List Pod) : (request : Request) → request.Result → request.Result
  | .pods .., .ok listed => .ok (permute listed)
  | _, reply => reply

/-- A backend whose every listing of pods is put in another order. -/
def Backend.relisting {σ : Type} (backend : Backend σ) (permute : Nat → σ → List Pod → List Pod) :
    Backend σ where
  reply request time state :=
    let (reply, next) := backend.reply request time state
    (request.relist (permute time state) reply, next)
  output := backend.output

theorem relists_relisting {σ : Type} {backend : Backend σ} {permute : Nat → σ → List Pod → List Pod}
    (permutes : ∀ time state pods, (permute time state pods).Perm pods)
    (distinct : ∀ ns selector time state pods,
      (backend.reply (.pods ns selector) time state).1 = .ok pods →
      (pods.filterMap fun pod => pod.name).Nodup) :
    Relists backend (backend.relisting permute) (· = ·) where
  reply request time state state' same := by
    subst same
    refine ⟨?_, rfl⟩
    change Request.Alike request _ (request.relist _ (backend.reply request time state).1)
    cases request with
    | pods ns selector =>
        cases listed : (backend.reply (.pods ns selector) time state).1 with
        | error failure => exact .same _
        | ok pods => exact .relisted (permutes time state pods).symm (distinct _ _ _ _ _ listed)
    | readyReplicas | cpuUsage | volumes | deleteVolume | currentReplicas | patchReplicas => exact .same _
  output command time state state' same := by
    subst same
    exact ⟨rfl, rfl⟩

/-- Two runs that went the same way. -/
structure Ended.Agrees {σ τ α : Type} (alike : σ → τ → Prop) (ended : Ended σ α) (other : Ended τ α) :
    Prop where
  result : ended.result = other.result
  events : List.Forall₂ Event.Alike ended.trace other.trace
  time : ended.time = other.time
  state : alike ended.state other.state

theorem Event.Alike.refl (trace : Trace) : List.Forall₂ Event.Alike trace trace :=
  List.forall₂_same.mpr fun event _ => .same event

theorem filterMap_of_alike {β : Type} {read : Event → Option β} {trace other : Trace}
    (same : ∀ first second, Event.Alike first second → read first = read second)
    (events : List.Forall₂ Event.Alike trace other) : trace.filterMap read = other.filterMap read := by
  induction events with
  | nil => rfl
  | cons here _ ih => rw [List.filterMap_cons, List.filterMap_cons, same _ _ here, ih]

namespace Ended.Agrees

variable {σ τ α : Type} {alike : σ → τ → Prop} {ended : Ended σ α} {other : Ended τ α}

theorem requests (agrees : ended.Agrees alike other) : ended.trace.requests = other.trace.requests :=
  filterMap_of_alike (fun _ _ seen => by cases seen <;> rfl) agrees.events

theorem commands (agrees : ended.Agrees alike other) : ended.trace.commands = other.trace.commands :=
  filterMap_of_alike (fun _ _ seen => by cases seen <;> rfl) agrees.events

theorem after {first second : Trace} (early : List.Forall₂ Event.Alike first second)
    (agrees : ended.Agrees alike other) : (ended.after first).Agrees alike (other.after second) :=
  ⟨agrees.result, List.rel_append early agrees.events, agrees.time, agrees.state⟩

end Ended.Agrees

section Rows

variable {σ τ : Type} {backend : Backend σ} {other : Backend τ} {alike : σ → τ → Prop}
  (relists : Relists backend other alike) (time : Nat)
include relists

theorem Row.send_agrees (outputs : List Output) (commands : List BookieCommand) {state : σ} {state' : τ}
    (start : alike state state') :
    (send backend time outputs commands state).1 = (send other time outputs commands state').1 ∧
      (send backend time outputs commands state).2.1 = (send other time outputs commands state').2.1 ∧
      alike (send backend time outputs commands state).2.2
        (send other time outputs commands state').2.2 := by
  induction commands generalizing outputs state state' with
  | nil => exact ⟨rfl, rfl, start⟩
  | cons command rest ih =>
      have given := relists.output command time state state' start
      rcases here : backend.output command time state with ⟨⟨delay, output⟩, next⟩
      rcases there : other.output command time state' with ⟨answer, next'⟩
      rw [here, there] at given
      obtain ⟨rfl, later⟩ := given
      obtain ⟨row, trace, last⟩ := ih (outputs ++ [output]) later
      simp only [send, here, there]
      split
      · exact ⟨row, by rw [trace], last⟩
      · exact ⟨rfl, rfl, later⟩

theorem Row.advance_agrees (row : Row) {state : σ} {state' : τ} (start : alike state state') :
    (row.advance backend time state).1 = (row.advance other time state').1 ∧
      (row.advance backend time state).2.1 = (row.advance other time state').2.1 ∧
      alike (row.advance backend time state).2.2 (row.advance other time state').2.2 := by
  unfold advance
  split
  · exact send_agrees relists time _ _ start
  · rename_i flight _
    split
    · obtain ⟨row, trace, later⟩ := send_agrees relists time _ row.waiting start
      exact ⟨row, congrArg (Event.answered time flight.command flight.output :: ·) trace, later⟩
    · exact ⟨rfl, rfl, start⟩

theorem Row.advanceAll_agrees (rows : List Row) {state : σ} {state' : τ} (start : alike state state') :
    (advanceAll backend time rows state).1 = (advanceAll other time rows state').1 ∧
      (advanceAll backend time rows state).2.1 = (advanceAll other time rows state').2.1 ∧
      alike (advanceAll backend time rows state).2.2 (advanceAll other time rows state').2.2 := by
  induction rows generalizing state state' with
  | nil => exact ⟨rfl, rfl, start⟩
  | cons row rest ih =>
      obtain ⟨here, first, next⟩ := row.advance_agrees relists time start
      obtain ⟨others, second, last⟩ := ih next
      unfold advanceAll
      dsimp only
      exact ⟨by rw [here, others], by rw [first, second], last⟩

theorem runRows_agrees (cancellation : Cancellation) (rounds : Nat) (rows : List Row) {state : σ}
    {state' : τ} (start : alike state state') :
    (runRows backend cancellation rounds time rows state).Agrees alike
      (runRows other cancellation rounds time rows state') := by
  induction rounds generalizing time rows state state' with
  | zero => exact ⟨rfl, .nil, rfl, start⟩
  | succ rounds ih =>
      obtain ⟨same, trace, next⟩ := Row.advanceAll_agrees relists time rows start
      unfold runRows
      split
      · exact ⟨rfl, Event.Alike.refl _, rfl, start⟩
      · dsimp only
        rw [← same, ← trace]
        split
        · exact ⟨rfl, Event.Alike.refl _, rfl, next⟩
        · exact (ih _ _ next).after (Event.Alike.refl _)

end Rows

namespace Program

variable {α β : Type}

/-- A program that goes on the same way however the pods in an answer are ordered. -/
def Blind : Program α → Prop
  | done _ => True
  | call asked next =>
    (∀ reply other, Request.Alike asked reply other → next reply = next other) ∧ ∀ reply, (next reply).Blind
  | exec _ next => ∀ output, (next output).Blind
  | query _ next => ∀ outputs, (next outputs).Blind
  | settle _ next | look next => ∀ cancelled, (next cancelled).Blind

theorem Blind.bind {program : Program α} {next : α → Program β} (first : program.Blind)
    (rest : ∀ result, (next result).Blind) : (program.bind next).Blind := by
  induction program with
  | done result => exact rest result
  | call _ _ ih =>
      exact ⟨fun reply other seen => congrArg (Program.bind · next) (first.1 reply other seen),
        fun reply => ih reply (first.2 reply)⟩
  | exec _ _ ih => exact fun output => ih output (first output)
  | query _ _ ih => exact fun outputs => ih outputs (first outputs)
  | settle _ _ ih => exact fun cancelled => ih cancelled (first cancelled)
  | look _ ih => exact fun cancelled => ih cancelled (first cancelled)

/-- Listing pods is blind if what follows depends on nothing but which pods there are. -/
theorem blind_listing {ns selector : String} {next : Except Failure (List Pod) → Program α}
    (same : ∀ pods others : List Pod, pods.Perm others → (pods.filterMap fun pod => pod.name).Nodup →
      next (.ok pods) = next (.ok others))
    (rest : ∀ reply, (next reply).Blind) : (call (.pods ns selector) next).Blind := by
  refine ⟨fun reply other seen => ?_, rest⟩
  cases seen with
  | same => rfl
  | relisted listed distinct => exact same _ _ listed distinct

/-- A request for something else than pods has one answer. -/
theorem blind_asking {asked : Request} {next : asked.Result → Program α}
    (other : ∀ ns selector, asked ≠ .pods ns selector) (rest : ∀ reply, (next reply).Blind) :
    (call asked next).Blind := by
  refine ⟨fun reply other' seen => ?_, rest⟩
  cases seen with
  | same => rfl
  | relisted => exact absurd rfl (other _ _)

theorem Uses.blind {kind : BookieCommand → Prop} {program : Program α}
    (uses : program.Uses (fun asked => ∀ ns selector, asked ≠ .pods ns selector) kind) : program.Blind := by
  induction program with
  | done => trivial
  | call asked next ih => exact blind_asking uses.1 fun reply => ih reply (uses.2 reply)
  | exec _ _ ih => exact fun output => ih output (uses.2 output)
  | query _ _ ih => exact fun outputs => ih outputs (uses.2 outputs)
  | settle _ _ ih => exact fun cancelled => ih cancelled (uses cancelled)
  | look _ ih => exact fun cancelled => ih cancelled (uses cancelled)

theorem Blind.agrees {σ τ : Type} {backend : Backend σ} {other : Backend τ} {alike : σ → τ → Prop}
    (relists : Relists backend other alike) (cancellation : Cancellation) {program : Program α}
    (blind : program.Blind) (time : Nat) {state : σ} {state' : τ} (start : alike state state') :
    (program.run backend cancellation time state).Agrees alike
      (program.run other cancellation time state') := by
  induction program generalizing time state state' with
  | done result => exact ⟨rfl, .nil, rfl, start⟩
  | call asked next ih =>
      obtain ⟨seen, later⟩ := relists.reply asked time state state' start
      have same := blind.1 _ _ seen
      have rest := ih (other.reply asked time state').1 (blind.2 _) time later
      unfold run
      dsimp only
      rw [same]
      exact rest.after (.cons (.called seen) .nil)
  | exec command next ih =>
      have given := relists.output command time state state' start
      rcases here : backend.output command time state with ⟨⟨delay, output⟩, middle⟩
      rcases there : other.output command time state' with ⟨answer, middle'⟩
      rw [here, there] at given
      obtain ⟨rfl, later⟩ := given
      simp only [run, here, there]
      exact (ih output (blind output) (time + delay) later).after (Event.Alike.refl _)
  | query rows next ih =>
      have queried := runRows_agrees relists time cancellation (commandCount rows + 1)
        (rows.map Row.ofCommands) start
      unfold run
      dsimp only
      rw [queried.result, queried.time]
      exact (ih _ (blind _) _ queried.state).after queried.events
  | settle delayMs next ih => exact (ih _ (blind _) _ start).after (Event.Alike.refl _)
  | look next ih => exact ih _ (blind _) time start

end Program
end SetScaler
