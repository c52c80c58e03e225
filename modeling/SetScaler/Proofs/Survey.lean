import SetScaler.Proofs.Ordinal
import SetScaler.Proofs.Run.Composition
import SetScaler.Survey

/-!
# What a survey finds

A survey of bookies that comes to its end finds one bookie for each listed pod, in the order of their
names (`bookieNodes_found`).
-/

namespace SetScaler

theorem Row.advanceAll_length {σ : Type} (backend : Backend σ) (time : Nat) (rows : List Row)
    (state : σ) : (advanceAll backend time rows state).1.length = rows.length := by
  induction rows generalizing state with
  | nil => rfl
  | cons row rest ih => simp [advanceAll, ih]

theorem runRows_length {σ : Type} (backend : Backend σ) (cancellation : Cancellation)
    (rounds time : Nat) (rows : List Row) (state : σ) :
    (runRows backend cancellation rounds time rows state).result.length = rows.length := by
  induction rounds generalizing time rows state with
  | zero => rfl
  | succ rounds ih =>
      unfold runRows
      split
      · simp [Row.cancelAll]
      · have kept := Row.advanceAll_length backend time rows state
        dsimp only
        split
        · exact kept
        · rw [Ended.after_result, ih, kept]

namespace Survey

theorem pod_of_bookieNode {bookieId pod : String} {outputs : List Output} {node : BookieNode}
    (found : bookieNode? bookieId pod outputs = some node) : node.pod = pod := by
  unfold bookieNode? at found
  dsimp only at found
  split at found
  · cases found
  · split at found
    · cases found
      rfl
    · cases found
      rfl

theorem pods_of_mapM {bookieId : String → String} {rows : List (String × List Output)}
    {nodes : List BookieNode}
    (found : (rows.mapM fun (pod, outputs) => bookieNode? (bookieId pod) pod outputs) = some nodes) :
    nodes.map BookieNode.pod = rows.map Prod.fst := by
  induction rows generalizing nodes with
  | nil =>
      cases found
      rfl
  | cons row rest ih =>
      simp only [List.mapM_cons, Option.bind_eq_bind, Option.bind_eq_some_iff, Option.pure_def,
        Option.some.injEq] at found
      obtain ⟨node, here, others, later, rfl⟩ := found
      simp [pod_of_bookieNode here, ih later]

theorem bookieNodesOf_ok {bookieId : String → String} {names : List String}
    {outputs : List (List Output)} {nodes : List BookieNode} (many : outputs.length = names.length)
    (found : bookieNodesOf bookieId names outputs = .ok nodes) :
    nodes.map BookieNode.pod = sortByOrdinal id names := by
  unfold bookieNodesOf at found
  split at found
  · cases found
  · rename_i listed read
    cases found
    have pods := pods_of_mapM read
    rw [List.map_fst_zip (Nat.le_of_eq many.symm)] at pods
    rw [map_sortByOrdinal, pods]

theorem namesOf_pairwise (pods : List Pod) :
    (namesOf pods).Pairwise fun a b => MemberName.le a b = true :=
  sortByOrdinal_pairwise id _

theorem sortByOrdinal_namesOf (pods : List Pod) : sortByOrdinal id (namesOf pods) = namesOf pods :=
  sortByOrdinal_eq (.refl _) (namesOf_pairwise pods)

/-- A survey once the pods of the set are listed. -/
def afterListing (key : SetKey) (bookieId : String → String) :
    Except Failure (List Pod) → Program (Except Failure (List BookieNode))
  | .error failure => .done (.error failure)
  | .ok pods => .query ((namesOf pods).map (queriesOf key.ns)) fun outputs =>
      .done (bookieNodesOf bookieId (namesOf pods) outputs)

theorem bookieNodes_eq (key : SetKey) (bookieId : String → String) :
    bookieNodes key bookieId = .call (.pods key.ns key.selector) (afterListing key bookieId) := by
  refine congrArg (Program.call (.pods key.ns key.selector)) (funext fun reply => ?_)
  cases reply <;> rfl

/-- A reading of all bookies comes in the order of their names, when these do. -/
theorem bookieNodesOf_read {bookieId : String → String} {names : List String} {outputs : List (List Output)}
    {nodes : List BookieNode} (sorted : names.Pairwise fun a b => MemberName.le a b = true)
    (many : outputs.length = names.length)
    (read : ((names.zip outputs).mapM fun (pod, outputs) => bookieNode? (bookieId pod) pod outputs) =
      some nodes) : bookieNodesOf bookieId names outputs = .ok nodes := by
  have pods := pods_of_mapM read
  rw [List.map_fst_zip (Nat.le_of_eq many.symm)] at pods
  rw [← pods, List.pairwise_map] at sorted
  rw [bookieNodesOf, read]
  exact congrArg Except.ok (List.mergeSort_of_pairwise sorted)

section Listed

variable {σ : Type} {backend : Backend σ} {cancellation : Cancellation} {key : SetKey}
  {bookieId : String → String} {start : Nat} {state listed : σ} {pods : List Pod}

/-- The queries of all bookies of these names. -/
def queried (backend : Backend σ) (cancellation : Cancellation) (ns : String) (names : List String)
    (start : Nat) (state : σ) : Ended σ (List Row) :=
  let rows := names.map (queriesOf ns)
  runRows backend cancellation (commandCount rows + 1) start (rows.map Row.ofCommands) state

theorem bookieNodes_run
    (replied : backend.reply (.pods key.ns key.selector) start state = (.ok pods, listed)) :
    (bookieNodes key bookieId).run backend cancellation start state =
      let ended := queried backend cancellation key.ns (namesOf pods) start listed
      ⟨bookieNodesOf bookieId (namesOf pods) (Row.outputsOf ended.result),
        .called start (.pods key.ns key.selector) (.ok pods) :: ended.trace, ended.time, ended.state⟩ := by
  rw [bookieNodes_eq]
  refine (Program.run_call backend cancellation replied).trans ?_
  change Ended.after _ ⟨_, _ ++ [], _, _⟩ = _
  rw [List.append_nil]
  rfl

theorem queried_length (names : List String) (state : σ) :
    (Row.outputsOf (queried backend cancellation key.ns names start state).result).length = names.length := by
  simp [queried, Row.outputsOf, runRows_length]

/-- A survey whose every bookie can be read. -/
theorem bookieNodes_read {names : List String} {nodes : List BookieNode}
    (replied : backend.reply (.pods key.ns key.selector) start state = (.ok pods, listed))
    (named : namesOf pods = names)
    (read : ((names.zip (Row.outputsOf (queried backend cancellation key.ns names start listed).result)).mapM
      fun (pod, outputs) => bookieNode? (bookieId pod) pod outputs) = some nodes) :
    (bookieNodes key bookieId).run backend cancellation start state =
      let ended := queried backend cancellation key.ns names start listed
      ⟨.ok nodes, .called start (.pods key.ns key.selector) (.ok pods) :: ended.trace, ended.time,
        ended.state⟩ := by
  subst named
  refine (bookieNodes_run replied).trans ?_
  dsimp only
  rw [bookieNodesOf_read (namesOf_pairwise pods) (queried_length _ _) read]

/-- What a survey that comes to its end was told. -/
theorem bookieNodes_told {finish : Nat} {state' : σ} {trace : Trace} {nodes : List BookieNode}
    (found : (bookieNodes key bookieId).run backend cancellation start state =
      ⟨.ok nodes, trace, finish, state'⟩) :
    ∃ pods listed,
      let ended := queried backend cancellation key.ns (namesOf pods) start listed
      bookieNodesOf bookieId (namesOf pods) (Row.outputsOf ended.result) = .ok nodes ∧
        trace = .called start (.pods key.ns key.selector) (.ok pods) :: ended.trace := by
  rcases replied : backend.reply (.pods key.ns key.selector) start state with ⟨failure | pods, listed⟩
  · rw [bookieNodes_eq] at found
    cases (Program.run_call backend cancellation replied).symm.trans found
  · obtain ⟨result, happened, -⟩ := Ended.mk.inj ((bookieNodes_run replied).symm.trans found)
    exact ⟨pods, listed, result, happened.symm⟩

/-- The bookies of a survey are those of the pods that were listed to it, in the order of members. -/
theorem bookieNodes_found {finish : Nat} {state' : σ} {trace : Trace} {nodes : List BookieNode}
    (found : (bookieNodes key bookieId).run backend cancellation start state =
      ⟨.ok nodes, trace, finish, state'⟩) :
    ∃ pods time, .called time (.pods key.ns key.selector) (.ok pods) ∈ trace ∧
      nodes.map BookieNode.pod = namesOf pods := by
  obtain ⟨pods, listed, result, rfl⟩ := bookieNodes_told found
  exact ⟨pods, start, List.mem_cons_self,
    (bookieNodesOf_ok (queried_length _ _) result).trans (sortByOrdinal_namesOf pods)⟩

end Listed

end Survey
end SetScaler
