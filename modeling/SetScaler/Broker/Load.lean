import SetScaler.Decision
import SetScaler.Spec.Broker

/-!
Scaling brokers by CPU. Every broker with a usable sample votes by its ratio of used to requested
CPU; the set is scaled only when all votes agree, and its count stays within the bounds of the spec
without ever moving against the votes.
-/

namespace SetScaler

/-- The CPU of one broker, in cores. -/
structure BrokerNode where
  pod : String
  used : Float
  requested : Float
deriving Repr, Inhabited

inductive Vote where
  | below
  | above
  | inBand
deriving DecidableEq, Repr

namespace BrokerNode

/-- The ratio of used to requested CPU. -/
def usage (node : BrokerNode) : Float := node.used / node.requested

/-- A node whose request is not positive has no usable ratio. -/
def votes (node : BrokerNode) : Bool := node.requested > 0.0

/-- A node's vote; a ratio on a threshold is in the band. -/
def vote (node : BrokerNode) (spec : BrokerSpec) : Vote :=
  if node.usage < spec.lowerCpuThreshold then .below
  else if node.usage > spec.higherCpuThreshold then .above
  else .inBand

end BrokerNode

namespace BrokerSpec

/-- The step that a vote stands for, taken when it is unanimous. -/
def step (spec : BrokerSpec) : Vote → Decision
  | .below => .down spec.scaleDownBy.toInt.toNat
  | .above => .up spec.scaleUpBy.toInt.toNat
  | .inBand => .hold

/-- Scales a set only when every node that votes gives the same vote. -/
def decide (spec : BrokerSpec) (nodes : List BrokerNode) : Decision :=
  match (nodes.filter BrokerNode.votes).map fun node => node.vote spec with
  | [] => .hold
  | first :: rest => if rest.all (· == first) then spec.step first else .hold

/-- A replica count raised to at least one and to the floor, then cut at the ceiling. -/
def bounded (spec : BrokerSpec) (count : Int) : Int :=
  let raised := max (max count 1) spec.minReplicas.toInt
  match spec.maxReplicas with
  | some ceiling => min raised ceiling.toInt
  | none => raised

/-- The replica count that a decision leads to. A set that is already outside its bounds is not
moved against the decision. -/
def target (spec : BrokerSpec) (current : Int) (decision : Decision) : Int :=
  let bounded := spec.bounded (saturate (current + decision.delta))
  match decision.direction with
  | .none => current
  | .up => max bounded current
  | .down => min bounded current

end BrokerSpec
end SetScaler
