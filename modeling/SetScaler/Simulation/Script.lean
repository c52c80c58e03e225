import SetScaler.Simulation.Store
import SetScaler.Text.Search

/-!
Pods that answer commands by rules, and with them a backend to carry out runs on.
-/

namespace SetScaler.Simulation

/-- How some commands are answered: those whose words, joined by blanks, contain `pattern`, in the
pod of that name if one is given. -/
structure Rule where
  pattern : String
  pod : Option String := none
  /-- The outputs in turn, the last one over and over; `none` is a refused connection. -/
  outputs : List (Option String) := []
  delayMs : Nat := 0
  uses : Nat := 0
deriving Repr, Inhabited

namespace Rule

def answers (rule : Rule) (pod line : String) : Bool :=
  (rule.pod.all fun name => name == pod) && Text.contains line rule.pattern

/-- What a rule gives out at its next use. -/
def next (rule : Rule) : Option String :=
  (rule.outputs[min rule.uses (rule.outputs.length - 1)]?).join

end Rule

/-- The output of a command that nothing answers. -/
def refused (pod : String) : Output := .error (.exec pod "connection refused")

/-- Answers a command line by the first rule that does, and marks the rule used. -/
def respond (pod line : String) : List Rule → (Nat × Output) × List Rule
  | [] => ((0, refused pod), [])
  | rule :: rest =>
    if rule.answers pod line then
      let output := match rule.next with
        | some text => .ok text
        | none => refused pod
      ((rule.delayMs, output), { rule with uses := rule.uses + 1 } :: rest)
    else
      let (answer, rest) := respond pod line rest
      (answer, rule :: rest)

structure World where
  store : Store := {}
  rules : List Rule := []
deriving Inhabited

def backend (settings : ScalingSettings) : Backend World where
  reply request _ world :=
    let (result, store) := world.store.reply request
    (result, { world with store })
  output command _ world :=
    let line := " ".intercalate (command.words settings)
    let (answer, rules) := respond command.pod line world.rules
    (answer, { world with rules })

end SetScaler.Simulation
