import SetScaler.Bookie.Admin
import SetScaler.Broker.Load
import SetScaler.Ordinal

/-!
The facts gathered at the start of a run: the pods of a set, the CPU of its brokers, the state and
the disks of its bookies. All are put in ordinal order.
-/

namespace SetScaler.Survey

/-- The names of those pods that have one, in ordinal order. -/
def namesOf (pods : List Pod) : List String :=
  sortByOrdinal id (pods.filterMap fun pod => pod.name)

def podNames (key : SetKey) : Program (Except Failure (List String)) := do
  match ← Program.ask (.pods key.ns key.selector) with
  | .error failure => return .error failure
  | .ok pods => return .ok (namesOf pods)

/-- The sample of one broker: it takes a name, a use of CPU and a request for CPU. -/
def brokerNode? (usage : List (String × Float)) (pod : Pod) : Option BrokerNode := do
  let name ← pod.name
  let used ← usage.lookup name
  let requested ← pod.cpuRequest
  return ⟨name, used, requested⟩

/-- The samples of those pods that have one, in ordinal order. -/
def brokerNodesOf (pods : List Pod) (usage : List (String × Float)) : List BrokerNode :=
  sortByOrdinal BrokerNode.pod (pods.filterMap (brokerNode? usage))

def brokerNodes (key : SetKey) : Program (Except Failure (List BrokerNode)) := do
  match ← Program.ask (.pods key.ns key.selector) with
  | .error failure => return .error failure
  | .ok pods =>
    match ← Program.ask (.cpuUsage key.ns key.selector) with
    | .error failure => return .error failure
    | .ok usage => return .ok (brokerNodesOf pods usage)

/-- The two queries made of each bookie. -/
def queriesOf (ns pod : String) : List BookieCommand := [⟨ns, pod, .state⟩, ⟨ns, pod, .info⟩]

def isCancelled {α : Type} : Except Failure α → Bool
  | .error .cancelled => true
  | _ => false

/-- A bookie from its two outputs; `none` when either was interrupted. -/
def bookieNode? (bookieId pod : String) (outputs : List Output) : Option BookieNode :=
  let state := Admin.readState (outputs.headD (.error .cancelled))
  let info := Admin.readInfo ((outputs.drop 1).headD (.error .cancelled))
  if isCancelled state || isCancelled info then none
  else match state, info with
    | .ok state, .ok info => some ⟨pod, bookieId, state.writable, [info.disk]⟩
    -- a query failed: the bookie counts as not writable and shows no disks
    | _, _ => some ⟨pod, bookieId, false, []⟩

/-- The bookies from the outputs of all queries: all of them, or none when a query was
interrupted. -/
def bookieNodesOf (bookieId : String → String) (names : List String)
    (outputs : List (List Output)) : Except Failure (List BookieNode) :=
  match (names.zip outputs).mapM fun (pod, outputs) => bookieNode? (bookieId pod) pod outputs with
  | none => .error .cancelled
  | some nodes => .ok (sortByOrdinal BookieNode.pod nodes)

/-- The state and the disks of a set's bookies, all of them queried side by side. -/
def bookieNodes (key : SetKey) (bookieId : String → String) :
    Program (Except Failure (List BookieNode)) := do
  match ← podNames key with
  | .error failure => return .error failure
  | .ok names =>
    .query (names.map (queriesOf key.ns)) fun outputs =>
      .done (bookieNodesOf bookieId names outputs)

end SetScaler.Survey
