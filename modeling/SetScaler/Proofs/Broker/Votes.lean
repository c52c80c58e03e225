import SetScaler.Broker.Load
import SetScaler.Proofs.Double
import SetScaler.Proofs.Ordinal
import SetScaler.Survey

/-!
# What the votes of brokers come to

A set of brokers is scaled just if some broker votes and all that vote want the same
(`decide_of_unanimous`, `decide_of_not_unanimous`). In a spec without a defect no load is both too low and
too high, so that a broker wants more just if its load is above the higher threshold (`vote_eq_above`), and
fewer just if it is below the lower one (`vote_eq_below`). The brokers that vote are those of the pods with
a usable sample (`votes_of_voter`, `voter_of_votes`).
-/

namespace SetScaler

/-- What the containers of a pod request of CPU, as far as it can be read. -/
def Pod.requests (pod : Pod) : List Float :=
  match pod.spec with
  | none => []
  | some spec => (spec.containers.filterMap fun container => container.cpuRequest).filterMap cpuQuantity?

theorem cpuTotal_eq (texts : List String) :
    cpuTotal texts = match texts.filterMap cpuQuantity? with
      | [] => none
      | first :: rest => some ((first :: rest).foldl (· + ·) 0.0) := by
  have from_some (quantities : List Float) (total : Float) :
      quantities.foldl (fun total cores => some (total.getD 0.0 + cores)) (some total) =
        some (quantities.foldl (· + ·) total) := by
    induction quantities generalizing total with
    | nil => rfl
    | cons cores rest ih => exact ih (total + cores)
  unfold cpuTotal
  cases texts.filterMap cpuQuantity? with
  | nil => rfl
  | cons first rest => exact from_some rest (0.0 + first)

/-- A pod requests CPU if any of its containers does, and then the sum. -/
theorem Pod.cpuRequest_eq_some_iff {pod : Pod} {requested : Float} :
    pod.cpuRequest = some requested ↔ pod.requests ≠ [] ∧ requested = pod.requests.foldl (· + ·) 0.0 := by
  unfold cpuRequest requests
  cases pod.spec with
  | none => simp
  | some spec =>
      simp only [Option.bind_some, cpuTotal_eq]
      cases (spec.containers.filterMap fun container => container.cpuRequest).filterMap cpuQuantity? with
      | nil => simp
      | cons first rest => simp [eq_comm]

/-- A pod that takes part in the votes, with its use of CPU and the sum of its requests. -/
structure Eligible (usage : List (String × Float)) (pod : Pod) (used requested : Float) : Prop where
  sampled : ∃ name, pod.name = some name ∧ usage.lookup name = some used
  requesting : pod.requests ≠ []
  total : requested = pod.requests.foldl (· + ·) 0.0
  positive : requested > 0.0

namespace Survey

/-- A use of CPU and a request for it with which some pod of a listing takes part in the votes. -/
def Voter (pods : List Pod) (usage : List (String × Float)) (used requested : Float) : Prop :=
  ∃ pod ∈ pods, Eligible usage pod used requested

/-- The same by what comes of listing the pods and of reading their metrics. -/
def Voting (pods : Except Failure (List Pod)) (usage : Except Failure (List (String × Float)))
    (used requested : Float) : Prop :=
  ∃ listed metrics, pods = .ok listed ∧ usage = .ok metrics ∧ Voter listed metrics used requested

variable {pods : List Pod} {usage : List (String × Float)}

theorem brokerNode?_eq_some_iff {pod : Pod} {node : BrokerNode} :
    brokerNode? usage pod = some node ↔ pod.name = some node.pod ∧ usage.lookup node.pod = some node.used ∧
      pod.cpuRequest = some node.requested := by
  simp only [brokerNode?, Option.bind_eq_bind, Option.bind_eq_some_iff, Option.pure_def, Option.some.injEq]
  constructor
  · rintro ⟨name, named, used, sampled, requested, requests, rfl⟩
    exact ⟨named, sampled, requests⟩
  · rintro ⟨named, sampled, requests⟩
    exact ⟨_, named, _, sampled, _, requests, rfl⟩

theorem mem_brokerNodesOf {node : BrokerNode} :
    node ∈ brokerNodesOf pods usage ↔ ∃ pod ∈ pods, brokerNode? usage pod = some node :=
  (sortByOrdinal_perm BrokerNode.pod _).mem_iff.trans List.mem_filterMap

theorem voter_of_votes {node : BrokerNode} (listed : node ∈ brokerNodesOf pods usage)
    (votes : node.votes = true) : Voter pods usage node.used node.requested := by
  obtain ⟨pod, among, found⟩ := mem_brokerNodesOf.mp listed
  obtain ⟨named, sampled, requests⟩ := brokerNode?_eq_some_iff.mp found
  obtain ⟨some_request, total⟩ := Pod.cpuRequest_eq_some_iff.mp requests
  exact ⟨pod, among, ⟨_, named, sampled⟩, some_request, total, of_decide_eq_true votes⟩

theorem votes_of_voter {used requested : Float} (voter : Voter pods usage used requested) :
    ∃ node ∈ brokerNodesOf pods usage, node.votes = true ∧ node.used = used ∧ node.requested = requested := by
  obtain ⟨pod, among, ⟨name, named, sampled⟩, some_request, total, positive⟩ := voter
  have requests := Pod.cpuRequest_eq_some_iff.mpr ⟨some_request, total⟩
  have found : brokerNode? usage pod = some ⟨name, used, requested⟩ :=
    brokerNode?_eq_some_iff.mpr ⟨named, sampled, requests⟩
  exact ⟨_, mem_brokerNodesOf.mpr ⟨pod, among, found⟩, decide_eq_true positive, rfl, rfl⟩

end Survey

namespace BrokerSpec

variable {spec : BrokerSpec} {nodes : List BrokerNode} {vote : Vote}

/-- Some broker votes, and all that vote cast the same vote. -/
structure Unanimous (spec : BrokerSpec) (nodes : List BrokerNode) (vote : Vote) : Prop where
  voted : ∃ node ∈ nodes, node.votes = true
  agreed : ∀ node ∈ nodes, node.votes = true → node.vote spec = vote

theorem Unanimous.unique {other : Vote} (first : spec.Unanimous nodes vote)
    (second : spec.Unanimous nodes other) : vote = other := by
  obtain ⟨node, listed, votes⟩ := first.voted
  rw [← first.agreed node listed votes, second.agreed node listed votes]

theorem unanimous_iff : spec.Unanimous nodes vote ↔
    ∃ rest, (nodes.filter BrokerNode.votes).map (fun node => node.vote spec) = vote :: rest ∧
      rest.all (· == vote) = true := by
  have voted : (nodes.filter BrokerNode.votes).map (fun node => node.vote spec) ≠ [] ↔
      ∃ node ∈ nodes, node.votes = true := by simp
  have agreed : (∀ cast ∈ (nodes.filter BrokerNode.votes).map (fun node => node.vote spec), cast = vote) ↔
      ∀ node ∈ nodes, node.votes = true → node.vote spec = vote := by
    simp only [List.forall_mem_map, List.mem_filter, and_imp]
  constructor
  · intro unanimous
    have present := voted.mpr unanimous.voted
    have same := agreed.mpr unanimous.agreed
    cases cast : (nodes.filter BrokerNode.votes).map (fun node => node.vote spec) with
    | nil => exact absurd cast present
    | cons first rest =>
        rw [cast] at same
        obtain ⟨rfl, others⟩ := List.forall_mem_cons.mp same
        exact ⟨rest, rfl, by simpa using others⟩
  · rintro ⟨rest, cast, same⟩
    refine ⟨voted.mp (by simp [cast]), agreed.mp ?_⟩
    rw [cast]
    exact List.forall_mem_cons.mpr ⟨rfl, by simpa using same⟩

theorem decide_of_unanimous (unanimous : spec.Unanimous nodes vote) : spec.decide nodes = spec.step vote := by
  obtain ⟨rest, cast, same⟩ := unanimous_iff.mp unanimous
  unfold decide
  rw [cast]
  exact if_pos same

/-- A set is left alone unless its brokers agree. -/
theorem decide_of_not_unanimous (split : ∀ vote, ¬spec.Unanimous nodes vote) : spec.decide nodes = .hold := by
  unfold decide
  cases cast : (nodes.filter BrokerNode.votes).map (fun node => node.vote spec) with
  | nil => rfl
  | cons first rest =>
      apply if_neg
      intro same
      exact split first (unanimous_iff.mpr ⟨rest, cast, same⟩)

theorem vote_eq_below {node : BrokerNode} :
    node.vote spec = .below ↔ node.usage < spec.lowerCpuThreshold := by
  unfold BrokerNode.vote
  split
  · simp [*]
  · split <;> simp [*]

theorem thresholds_of_sound (sound : spec.defect? = none) :
    ¬spec.lowerCpuThreshold > spec.higherCpuThreshold ∧ 1 ≤ spec.scaleUpBy.toInt ∧
      1 ≤ spec.scaleDownBy.toInt := by
  unfold defect? at sound
  split at sound
  · rename_i capped
    obtain ⟨ceiling, set, -⟩ := (Option.any_eq_true _ _).mp capped
    rw [set] at sound
    cases sound
  · split at sound
    · cases sound
    · rename_i level
      split at sound
      · cases sound
      · exact ⟨level, by omega, by omega⟩

/-- No load is both above the higher threshold and below the lower one. -/
theorem vote_eq_above (sound : spec.defect? = none) {node : BrokerNode} :
    node.vote spec = .above ↔ node.usage > spec.higherCpuThreshold := by
  unfold BrokerNode.vote
  split
  · rename_i below
    have inverted : node.usage > spec.higherCpuThreshold → False := fun above =>
      (thresholds_of_sound sound).1 (Double.lt_trans above below)
    simpa using inverted
  · split <;> simp [*]

/-- Brokers agree just if pods do, whatever a load has to be for the vote. -/
theorem unanimous_iff_voter {pods : List Pod} {usage : List (String × Float)} (wants : Float → Prop)
    (reads : ∀ node : BrokerNode, node.vote spec = vote ↔ wants node.usage) :
    spec.Unanimous (Survey.brokerNodesOf pods usage) vote ↔
      (∃ used requested, Survey.Voter pods usage used requested) ∧
        ∀ used requested, Survey.Voter pods usage used requested → wants (used / requested) := by
  constructor
  · rintro ⟨⟨node, listed, votes⟩, agreed⟩
    refine ⟨⟨_, _, Survey.voter_of_votes listed votes⟩, ?_⟩
    intro used requested voter
    obtain ⟨node, listed, votes, rfl, rfl⟩ := Survey.votes_of_voter voter
    exact (reads node).mp (agreed node listed votes)
  · rintro ⟨⟨used, requested, voter⟩, all⟩
    obtain ⟨node, listed, votes, -⟩ := Survey.votes_of_voter voter
    refine ⟨⟨node, listed, votes⟩, ?_⟩
    intro node listed votes
    exact (reads node).mpr (all _ _ (Survey.voter_of_votes listed votes))

end BrokerSpec
end SetScaler
