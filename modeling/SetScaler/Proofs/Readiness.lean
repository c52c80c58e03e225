import SetScaler.Proofs.Run.Composition
import SetScaler.Readiness

/-!
# What the gate lets pass

A set passes the gate only when as many replicas are ready as are recorded, as many pods are listed,
and each of these is settled (`isReady_passed`).
-/

namespace SetScaler.Readiness

/-- The primary container of a pod has a given status: it is the first one of the configured name, or
the first one of all when none has that name. -/
def Primary (container : String) (statuses : List ContainerStatus) (status : ContainerStatus) : Prop :=
  (statuses.find? fun status => status.name == container) = some status ∨
    (∀ other ∈ statuses, other.name ≠ container) ∧ statuses.head? = some status

/-- A pod that the gate lets pass. -/
structure Settled (container : String) (windowMs : Nat) (pod : Pod) : Prop where
  ready : ∃ status statuses primary, pod.status = some status ∧ status.containers = some statuses ∧
    Primary container statuses primary ∧ primary.ready = true
  /-- The pod started the window ago or earlier. Past the longest window there are no ages to be told
  apart. -/
  started : ∃ age, pod.ageMs = some age ∧ (windowMs ≤ age ∨ longestWindow ≤ age)

theorem primary_iff {container : String} {statuses : List ContainerStatus} {status : ContainerStatus} :
    (statuses.find? fun status => status.name == container).or statuses.head? = some status ↔
      Primary container statuses status := by
  unfold Primary
  cases found : statuses.find? fun status => status.name == container with
  | some named =>
      have present : ¬∀ other ∈ statuses, other.name ≠ container := fun absent =>
        absent named (List.mem_of_find?_eq_some found) (by simpa using List.find?_some found)
      simp [present]
  | none =>
      have absent : ∀ other ∈ statuses, other.name ≠ container := by
        simpa using List.find?_eq_none.mp found
      simpa using fun _ => absent

theorem primaryReady_iff {container : String} {pod : Pod} :
    pod.primaryReady container = true ↔ ∃ status statuses primary, pod.status = some status ∧
      status.containers = some statuses ∧ Primary container statuses primary ∧ primary.ready = true := by
  unfold Pod.primaryReady
  rcases stated : pod.status with _ | status
  · simp
  · rcases listed : status.containers with _ | statuses
    · simp [listed]
    · have chosen : (∃ primary, Primary container statuses primary ∧ primary.ready = true) ↔
          ∃ primary, (statuses.find? fun status => status.name == container).or statuses.head? =
            some primary ∧ primary.ready = true := by
        simp only [primary_iff]
      cases first : (statuses.find? fun status => status.name == container).or statuses.head? with
      | none => simpa [listed, first] using chosen
      | some primary => simpa [listed, first] using chosen.symm

theorem windowOf_le_iff {windowMs : Nat} {age : Int} :
    windowOf windowMs ≤ age ↔ windowMs ≤ age ∨ longestWindow ≤ age := by
  unfold windowOf
  omega

theorem podSettled_iff {container : String} {windowMs : Nat} {pod : Pod} :
    podSettled container windowMs pod = true ↔ Settled container windowMs pod := by
  have old : (pod.ageMs.any fun age => windowOf windowMs ≤ age) = true ↔
      ∃ age, pod.ageMs = some age ∧ (windowMs ≤ age ∨ longestWindow ≤ age) := by
    simp [Option.any_eq_true, windowOf_le_iff]
  rw [podSettled, Bool.and_eq_true, primaryReady_iff, old]
  exact ⟨fun both => ⟨both.1, both.2⟩, fun settled => ⟨settled.ready, settled.started⟩⟩

/-- The events of a gate that a set has passed. -/
inductive Passed (key : SetKey) (container : String) (expected : Int) (windowMs : Nat) : Trace → Prop where
  | intro {time : Nat} {pods : List Pod} :
      pods.length = expected.toNat → (∀ pod ∈ pods, Settled container windowMs pod) →
      Passed key container expected windowMs [
        .called time (.readyReplicas key.ns key.statefulSet) (.ok (some expected)),
        .called time (.pods key.ns key.selector) (.ok pods)]

/-- The gate lets a settled set pass. -/
theorem isReady_settled {σ : Type} {backend : Backend σ} {cancellation : Cancellation} {key : SetKey}
    {container : String} {expected : Int} {windowMs time : Nat} {state between last : σ} {pods : List Pod}
    (counted : backend.reply (.readyReplicas key.ns key.statefulSet) time state = (.ok (some expected), between))
    (listed : backend.reply (.pods key.ns key.selector) time between = (.ok pods, last))
    (settled : podsSettled container windowMs expected pods = true) :
    (isReady key container expected windowMs).run backend cancellation time state =
      ⟨.ok true, [.called time (.readyReplicas key.ns key.statefulSet) (.ok (some expected)),
        .called time (.pods key.ns key.selector) (.ok pods)], time, last⟩ := by
  simp only [isReady, Program.ask, Program.bind_eq, Program.bind, Program.run, counted, ne_eq,
    not_true_eq_false, if_false, listed, settled]
  rfl

theorem isReady_passed {σ : Type} {backend : Backend σ} {cancellation : Cancellation} {key : SetKey}
    {container : String} {expected : Int} {windowMs time finish : Nat} {state state' : σ} {trace : Trace}
    (ran : (isReady key container expected windowMs).run backend cancellation time state =
      ⟨.ok true, trace, finish, state'⟩) : Passed key container expected windowMs trace := by
  rcases counted : backend.reply (.readyReplicas key.ns key.statefulSet) time state with ⟨ready, between⟩
  simp only [isReady, Program.ask, Program.bind_eq, Program.bind, Program.run, counted] at ran
  rcases ready with failure | none | ready
  · cases ran
  · cases ran
  · by_cases same : ready = expected
    · subst same
      rcases listed : backend.reply (.pods key.ns key.selector) time between with ⟨pods, last⟩
      simp only [ne_eq, not_true_eq_false, if_false, Program.run, listed] at ran
      cases pods with
      | error failure => cases ran
      | ok pods =>
          have passes : podsSettled container windowMs ready pods = true :=
            Except.ok.inj (congrArg Ended.result ran)
          simp only [podsSettled, Bool.and_eq_true, beq_iff_eq] at passes
          have happened := (congrArg Ended.trace ran).symm
          dsimp only at happened
          rw [happened]
          exact .intro passes.1 fun pod mem => podSettled_iff.mp (List.all_eq_true.mp passes.2 pod mem)
    · simp only [ne_eq, same, not_false_eq_true, if_true] at ran
      cases ran

end SetScaler.Readiness
