import SetScaler.Bookie.Command
import SetScaler.Failure
import SetScaler.Pod
import SetScaler.SetKey

/-!
Runs as programs. A program is a tree: each node asks something of the cluster, and each possible
answer leads to the program that goes on from there. So a program says what a run does against every
cluster, and nothing of how long anything takes.
-/

namespace SetScaler

/-- What a run asks of the API server; `ns` is a namespace. -/
inductive Request where
  | readyReplicas (ns statefulSet : String)
  | pods (ns selector : String)
  /-- The CPU in use by each pod that a label selector matches. -/
  | cpuUsage (ns selector : String)
  | volumes (ns selector : String)
  | deleteVolume (ns name : String)
  | currentReplicas (key : SetKey)
  | patchReplicas (key : SetKey) (count : Int)
deriving DecidableEq, Repr

/-- What the API server answers when a request succeeds. -/
def Request.Reply : Request → Type
  | readyReplicas .. => Option Int
  | pods .. => List Pod
  | cpuUsage .. => List (String × Float)
  | volumes .. => List (Option String)
  | deleteVolume .. => Unit
  | currentReplicas .. => Option Int
  | patchReplicas .. => Unit

abbrev Request.Result (request : Request) : Type := Except Failure request.Reply

abbrev Output : Type := Except Failure String

/-- A run, up to its result. -/
inductive Program (α : Type) : Type where
  | done (result : α)
  | call (request : Request) (next : request.Result → Program α)
  /-- Runs a command to its end, whatever happens meanwhile. -/
  | exec (command : BookieCommand) (next : Output → Program α)
  /-- Runs several rows of commands side by side, each row in its order. Cancellation interrupts
  every command that has not answered and keeps all later ones from being sent. -/
  | query (rows : List (List BookieCommand)) (next : List (List Output) → Program α)
  /-- Waits; cancellation ends the wait early, and `next` is told so. -/
  | settle (delayMs : Nat) (next : Bool → Program α)
  /-- Looks whether the run has been cancelled. -/
  | look (next : Bool → Program α)

namespace Program

variable {α β : Type}

/-- Goes on with the result of a program. -/
def bind : Program α → (α → Program β) → Program β
  | done result, next => next result
  | call request rest, next => call request fun reply => (rest reply).bind next
  | exec command rest, next => exec command fun output => (rest output).bind next
  | query rows rest, next => query rows fun outputs => (rest outputs).bind next
  | settle delayMs rest, next => settle delayMs fun cancelled => (rest cancelled).bind next
  | look rest, next => look fun cancelled => (rest cancelled).bind next

instance : Monad Program where
  pure := done
  bind := bind

def ask (request : Request) : Program request.Result := call request done

def execute (command : BookieCommand) : Program Output := exec command done

/-- Runs one command that cancellation interrupts. -/
def queryOne (command : BookieCommand) : Program Output :=
  query [[command]] fun outputs => done (outputs.flatten.headD (.error .cancelled))

def isCancelled : Program Bool := look done

/-- Waits; the answer is whether cancellation ended the wait. -/
def wait (delayMs : Nat) : Program Bool := settle delayMs done

@[simp]
theorem pure_eq (result : α) : (pure result : Program α) = done result := rfl

@[simp]
theorem bind_eq (program : Program α) (next : α → Program β) :
    program >>= next = program.bind next :=
  rfl

@[simp]
theorem done_bind (result : α) (next : α → Program β) : (done result).bind next = next result := rfl

theorem bind_done (program : Program α) : program.bind done = program := by
  induction program with
  | done => rfl
  | call _ _ ih => exact congrArg _ (funext ih)
  | exec _ _ ih => exact congrArg _ (funext ih)
  | query _ _ ih => exact congrArg _ (funext ih)
  | settle _ _ ih => exact congrArg _ (funext ih)
  | look _ ih => exact congrArg _ (funext ih)

theorem bind_assoc {γ : Type} (program : Program α) (first : α → Program β)
    (second : β → Program γ) :
    (program.bind first).bind second = program.bind fun result => (first result).bind second := by
  induction program with
  | done => rfl
  | call _ _ ih => exact congrArg _ (funext ih)
  | exec _ _ ih => exact congrArg _ (funext ih)
  | query _ _ ih => exact congrArg _ (funext ih)
  | settle _ _ ih => exact congrArg _ (funext ih)
  | look _ ih => exact congrArg _ (funext ih)

end Program
end SetScaler
