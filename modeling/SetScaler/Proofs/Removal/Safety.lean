import SetScaler.Proofs.Removal.Accounting

/-!
# Before a cookie is deleted

Whenever a removal sends the deletion of a cookie, it is past all of its barriers (`Cleared`). The
deletions are met on the way from the last candidate to the first, so the invariant of that way is
that all candidates above the present one are gone.
-/

namespace SetScaler

/-- The deletions of cookies that a bookie confirmed. -/
def Trace.confirmed (trace : Trace) : List BookieCommand :=
  (trace.deletions.filter fun answer => Admin.saysCookieGone answer.2).map Prod.fst

@[simp]
theorem Trace.confirmed_append (first second : Trace) :
    (first ++ second).confirmed = first.confirmed ++ second.confirmed := by
  simp [confirmed]

/-- A deletion that was sent is among those that came back. -/
theorem Trace.Paired.mem_deletions {trace : Trace} {time : Nat} {told : BookieCommand}
    (paired : trace.Paired) (sent : .sent time told ∈ trace) (deletes : told.action.isDeletion = true) :
    ∃ output, (told, output) ∈ trace.deletions := by
  have listed : told ∈ trace.sends :=
    List.mem_map.mpr ⟨(time, told), List.mem_filterMap.mpr ⟨_, sent, rfl⟩, rfl⟩
  have kept : told ∈ trace.sends.filter fun command => command.action.isDeletion :=
    List.mem_filter.mpr ⟨listed, deletes⟩
  rw [paired.filter_sends] at kept
  obtain ⟨⟨_, output⟩, mem, rfl⟩ := List.mem_map.mp kept
  exact ⟨output, mem⟩

theorem Trace.Paired.not_sent {trace : Trace} {time : Nat} {told : BookieCommand}
    (paired : trace.Paired) (undeleted : trace.deletions = []) (deletes : told.action.isDeletion = true) :
    .sent time told ∉ trace := by
  intro sent
  obtain ⟨output, mem⟩ := paired.mem_deletions sent deletes
  rw [undeleted] at mem
  cases mem

theorem Asked.no_deletion {ι : Type} {command : ι → BookieCommand} {answers : List (ι × Output)}
    {trace : Trace} {start finish time : Nat} {told : BookieCommand}
    (asked : Asked command start answers trace finish)
    (other : ∀ answer ∈ answers, (command answer.1).action.isDeletion = false)
    (deletes : told.action.isDeletion = true) : Event.sent time told ∉ trace := by
  intro mem
  obtain ⟨answer, listed, ⟨_, same⟩ | ⟨_, same⟩⟩ := asked.mem_cases mem
  · cases same
    rw [other answer listed] at deletes
    cases deletes
  · cases same

namespace Removal

/-- All that a removal of `lower ++ node :: upper` has behind it, from a time on, when it is about to
send the deletion of the cookie of `node` at another. -/
inductive Cleared (protocol : Protocol) (cancellation : Cancellation) (lower : List BookieNode)
    (node : BookieNode) (upper : List BookieNode) (start : Nat) : Trace → (time : Nat) → Prop where
  | intro {marks recoveries passed clean look above looked tried : Trace}
      {listed : List (BookieNode × Output)} {refused : Nat}
      {ready settled recovered middle checked healthy gone time again : Nat} :
      -- every candidate reported the flag, and then the wait was over before any cancellation
      Asks protocol.marking (Admin.reports true) start (lower ++ node :: upper) marks ready →
      settled = ready + protocol.settleMs → cancellation.firedBy settled = false →
      -- the recovery of every candidate came to its end
      Asks protocol.recovering Admin.saysRecovered settled (lower ++ node :: upper) recoveries
        recovered →
      -- the first look for ledgers, which may have found some on the lower candidates only
      listed.map Prod.fst = lower → Asked protocol.listing recovered listed passed middle →
      Asks protocol.listing (fun output => !Admin.mayHold output) middle (node :: upper) clean
        checked →
      Asks id Admin.saysHealthy checked [protocol.surveying] look healthy →
      -- the cookies of all those above are gone, the last one first
      above.confirmed = (upper.map protocol.deleting).reverse →
      -- the second look for ledgers, and the tries since
      Asks protocol.listing (fun output => !Admin.mayHold output) gone [node] looked again →
      Asks protocol.deleting (fun output => !Admin.saysCookieGone output) again
        (List.replicate refused node) tried time →
      refused < max protocol.cookieAttempts 1 →
      Cleared protocol cancellation lower node upper start
        (marks ++ [.settled settled false] ++ recoveries ++ passed ++ clean ++ look ++ above ++
          looked ++ tried) time

theorem Tried.confirmed {protocol : Protocol} {attempt : Attempt} {outputs : List Output}
    (tried : Tried protocol attempt outputs) (command : BookieCommand) :
    ((outputs.map (command, ·)).filter fun answer => Admin.saysCookieGone answer.2).map Prod.fst =
      if attempt.isRemoved then [command] else [] := by
  obtain ⟨-, refused, gone⟩ := tried
  rw [List.filter_map, List.map_map]
  change (outputs.filter Admin.saysCookieGone).map (fun _ => command) = _
  rcases List.eq_nil_or_concat outputs with rfl | ⟨earlier, last, rfl⟩
  · simp_all
  · rw [List.concat_eq_append] at *
    rw [List.dropLast_concat] at refused
    have earlier_refused : earlier.filter Admin.saysCookieGone = [] := by
      simpa [List.filter_eq_nil_iff] using refused
    have at_end : attempt.isRemoved = Admin.saysCookieGone last := by
      rw [Bool.eq_iff_iff, gone]
      constructor
      · rintro ⟨output, mem, said⟩
        rcases List.mem_append.mp mem with mem | mem
        · rw [refused output mem] at said
          cases said
        · rwa [List.mem_singleton.mp mem] at said
      · exact fun said => ⟨last, by simp, said⟩
    rw [List.filter_append, earlier_refused, at_end]
    cases said : Admin.saysCookieGone last <;> simp [said]

/-- A try that was sent comes after tries that all were refused. -/
theorem tries_cut {protocol : Protocol} {node : BookieNode} {outputs : List Output}
    {trace before later : Trace} {start finish time : Nat} {told : BookieCommand}
    (tries : Asked protocol.deleting start (outputs.map (node, ·)) trace finish)
    (refused : ∀ output ∈ outputs.dropLast, Admin.saysCookieGone output = false)
    (sent : trace = before ++ .sent time told :: later) :
    told = protocol.deleting node ∧ ∃ count < outputs.length,
      Asks protocol.deleting (fun output => !Admin.saysCookieGone output) start
        (List.replicate count node) before time := by
  obtain ⟨earlier, item, output, rest, split, rfl, asked⟩ := tries.cut sent
  obtain ⟨first, second, rfl, rfl, tail⟩ := List.map_eq_append_iff.mp split
  obtain ⟨last, second, rfl, same, rfl⟩ := List.map_eq_cons_iff.mp tail
  cases same
  refine ⟨rfl, first.length, by simp, first.map (node, ·), ?_, ?_, asked⟩
  · simp [Function.comp_def, List.map_const']
  · refine List.forall_mem_map.mpr fun output mem => ?_
    simp [refused output (by simp [mem])]

namespace Turn

variable {protocol : Protocol} {free : Bool} {attempt after : Attempt} {trace before later : Trace}
  {start finish time : Nat} {told : BookieCommand}

theorem recovered_of_removed (turn : Turn protocol free start attempt trace after finish)
    (untouched : attempt.isRemoved = false) (gone : after.isRemoved = true) :
    attempt.progress = .recovered := by
  cases turn with
  | passed skipped => rw [Attempt.isRemoved_abort, untouched] at gone; cases gone
  | holding | unconfirmed | removed => rfl

theorem confirmed (turn : Turn protocol free start attempt trace after finish)
    (untouched : attempt.isRemoved = false) :
    trace.confirmed = if after.isRemoved then [protocol.deleting after.node] else [] := by
  obtain ⟨outputs, deleted, tried⟩ := turn.tried untouched
  rw [Trace.confirmed, deleted]
  exact tried.confirmed _

theorem cut (turn : Turn protocol free start attempt trace after finish)
    (deletes : told.action.isDeletion = true) (sent : trace = before ++ .sent time told :: later) :
    free = true ∧ attempt.progress = .recovered ∧ told = protocol.deleting attempt.node ∧
      ∃ looked tried refused again, before = looked ++ tried ∧
        Asks protocol.listing (fun output => !Admin.mayHold output) start [attempt.node] looked again ∧
        Asks protocol.deleting (fun output => !Admin.saysCookieGone output) again
          (List.replicate refused attempt.node) tried time ∧
        refused < max protocol.cookieAttempts 1 := by
  cases turn with
  | passed skipped => simp at sent
  | holding looked =>
      have absent : Event.sent time told ∉ trace := looked.no_deletion (fun _ _ => rfl) deletes
      exact absurd (by simp [sent]) absent
  | @unconfirmed node listed refusals looked tried start middle finish look clean tries all many =>
      obtain ⟨early, rfl, tail⟩ := Trace.cut_after (look.no_deletion (fun _ _ => rfl) deletes) sent
      obtain ⟨rfl, count, few, again⟩ :=
        tries_cut tries (fun output mem => all output (List.dropLast_subset _ mem)) tail
      exact ⟨rfl, rfl, rfl, looked, early, count, middle, rfl,
        ⟨[(node, listed)], rfl, by simpa using clean, look⟩, again, many ▸ few⟩
  | @removed node listed confirmed moved refusals looked tried retired start middle gone finish look
      clean tries all said few retire =>
      rw [List.append_assoc] at sent
      obtain ⟨early, rfl, tail⟩ := Trace.cut_after (look.no_deletion (fun _ _ => rfl) deletes) sent
      rcases Trace.cut_append tail with ⟨between, tail⟩ | ⟨late, -, tail⟩
      · obtain ⟨rfl, count, fewer, again⟩ := tries_cut tries (by simpa using all) tail
        refine ⟨rfl, rfl, rfl, looked, early, count, middle, rfl,
          ⟨[(node, listed)], rfl, by simpa using clean, look⟩, again, ?_⟩
        simp only [List.length_append, List.length_cons, List.length_nil] at fewer
        omega
      · have absent : Event.sent time told ∉ retired := retire.no_deletion (fun _ _ => rfl) deletes
        exact absurd (by simp [tail]) absent

end Turn

namespace Turns

variable {protocol : Protocol} {attempts afters : List Attempt} {trace before later : Trace}
  {start finish time : Nat} {told : BookieCommand}

theorem confirmed (turns : Turns protocol start attempts trace afters finish)
    (untouched : ∀ attempt ∈ attempts, attempt.isRemoved = false) :
    trace.confirmed =
      ((afters.filter Attempt.isRemoved).map fun attempt => protocol.deleting attempt.node).reverse := by
  induction turns with
  | nil => rfl
  | @cons attempt after rest rested above own start middle finish _ turn ih =>
      rw [Trace.confirmed_append, ih fun other mem => untouched other (.tail _ mem),
        turn.confirmed (untouched attempt List.mem_cons_self)]
      cases gone : after.isRemoved <;> simp [gone]

theorem recovered_of_removed (turns : Turns protocol start attempts trace afters finish)
    (untouched : ∀ attempt ∈ attempts, attempt.isRemoved = false)
    (gone : afters.all Attempt.isRemoved = true) :
    ∀ attempt ∈ attempts, attempt.progress = .recovered := by
  induction turns with
  | nil => simp
  | @cons attempt after rest rested above own start middle finish _ turn ih =>
      rw [List.all_cons, Bool.and_eq_true] at gone
      refine List.forall_mem_cons.mpr
        ⟨turn.recovered_of_removed (untouched attempt List.mem_cons_self) gone.1, ?_⟩
      exact ih (fun other mem => untouched other (.tail _ mem)) gone.2

/-- A deletion that was sent comes in the turn of a candidate, when all those above are gone. -/
theorem cut (turns : Turns protocol start attempts trace afters finish)
    (deletes : told.action.isDeletion = true) (sent : trace = before ++ .sent time told :: later) :
    ∃ lower attempt upper uppers above own middle, attempts = lower ++ attempt :: upper ∧
      attempt.progress = .recovered ∧ told = protocol.deleting attempt.node ∧
      before = above ++ own ∧ Turns protocol start upper above uppers middle ∧
      uppers.all Attempt.isRemoved = true ∧
      ∃ looked tried refused again, own = looked ++ tried ∧
        Asks protocol.listing (fun output => !Admin.mayHold output) middle [attempt.node] looked again ∧
        Asks protocol.deleting (fun output => !Admin.saysCookieGone output) again
          (List.replicate refused attempt.node) tried time ∧
        refused < max protocol.cookieAttempts 1 := by
  induction turns generalizing later with
  | nil => simp at sent
  | @cons attempt after rest rested above own start middle finish turns turn ih =>
      rcases Trace.cut_append sent with ⟨between, earlier⟩ | ⟨late, rfl, here⟩
      · obtain ⟨lower, found, upper, uppers, above, own, middle, rfl, facts⟩ := ih earlier
        exact ⟨attempt :: lower, found, upper, uppers, above, own, middle, rfl, facts⟩
      · obtain ⟨free, recovered, same, facts⟩ := turn.cut deletes here
        exact ⟨[], attempt, rest, rested, above, late, middle, rfl, recovered, same, rfl, turns, free,
          facts⟩

end Turns

/-- The deletions that were confirmed are those of the candidates that are gone, the last one first. -/
theorem Advance.confirmed {protocol : Protocol} {cancellation : Cancellation} {nodes : List BookieNode}
    {start finish : Nat} {trace : Trace} {attempts : List Attempt} {reason : Option Reason}
    (advance : Advance protocol cancellation nodes start trace attempts reason finish) :
    trace.confirmed = (((Protocol.concluded attempts reason).filter Attempt.isRemoved).map
      fun attempt => protocol.deleting attempt.node).reverse := by
  cases reason with
  | some why =>
      have untried := (advance.untried_of_abandoned (by simp)).1
      have stays : (Protocol.concluded attempts (some why)).filter Attempt.isRemoved = [] :=
        List.filter_eq_nil_iff.mpr (by simpa using advance.stays_of_abandoned)
      rw [Trace.confirmed, untried, stays]
      rfl
  | none =>
      cases advance with
      | @deleted checked health recovered checks look deletions afters middle looked healthy finish
          before listed checking looking said turns =>
          have earlier : (recovered ++ checks ++ look).deletions = [] := by
            rw [Trace.deletions_append, Trace.deletions_append, before.deletions_eq_nil,
              checking.deletions_eq_nil fun _ _ => rfl,
              looking.deletions_eq_nil fun answer mem => by cases List.mem_singleton.mp mem; rfl]
            rfl
          rw [Trace.confirmed_append, turns.confirmed
            (List.forall_mem_map.mpr fun answer _ => Attempt.isRemoved_ofCheck answer),
            Trace.confirmed, earlier]
          rfl

theorem Attempt.clean_of_recovered {answer : BookieNode × Output}
    (recovered : (ofCheck answer).progress = .recovered) : Admin.mayHold answer.2 = false := by
  cases held : Admin.mayHold answer.2 with
  | false => rfl
  | true => simp [ofCheck, held, Progress.afterLedgerCheck] at recovered

/-- A deletion that a removal sends is that of a candidate's cookie, past all of the barriers. -/
theorem Advance.cleared {protocol : Protocol} {cancellation : Cancellation} {nodes : List BookieNode}
    {start finish time : Nat} {trace before later : Trace} {attempts : List Attempt}
    {reason : Option Reason} {told : BookieCommand}
    (advance : Advance protocol cancellation nodes start trace attempts reason finish)
    (deletes : told.action.isDeletion = true) (sent : trace = before ++ .sent time told :: later) :
    ∃ lower node upper, nodes = lower ++ node :: upper ∧ told = protocol.deleting node ∧
      Cleared protocol cancellation lower node upper start before time := by
  by_cases abandoned : reason ≠ none
  · have seen : .sent time told ∈ trace := by simp [sent]
    have untried := (advance.untried_of_abandoned abandoned).1
    exact absurd seen (advance.paired.not_sent untried deletes)
  · cases advance with
    | rejected | cancelled | recoveryFailed | unhealthy => simp at abandoned
    | @deleted checked health recovered checks look deletions afters middle looked healthy finish past
        listed checking looking said turns =>
        have absent : .sent time told ∉ recovered ++ checks ++ look := by
          refine ((past.paired.append checking.paired).append looking.paired).not_sent ?_ deletes
          rw [Trace.deletions_append, Trace.deletions_append, past.deletions_eq_nil,
            checking.deletions_eq_nil fun _ _ => rfl]
          refine looking.deletions_eq_nil fun answer mem => ?_
          cases List.mem_singleton.mp mem
          rfl
        -- the deletion is that of `node`, all candidates above it are gone
        obtain ⟨early, rfl, tail⟩ := Trace.cut_after absent sent
        obtain ⟨lower, attempt, upper, uppers, above, own, gone, split, recoveredHere, rfl, rfl, turnsAbove,
          all, looked', tried, refused, again, rfl, clean, refusals, few⟩ := turns.cut deletes tail
        obtain ⟨passed, rest, rfl, rfl, upwards⟩ := List.map_eq_append_iff.mp split
        obtain ⟨⟨node, output⟩, kept, rfl, rfl, rfl⟩ := List.map_eq_cons_iff.mp upwards
        obtain ⟨passing, cleaning, between, rfl, pass, clear⟩ := checking.split
        obtain ⟨waited, recoveries, settled, rfl, ⟨marks, ready, rfl, marked, wait⟩, complete⟩ := past
        obtain ⟨rfl, unfired⟩ := waitUntil_passed wait
        have untouched : ∀ attempt ∈ kept.map Attempt.ofCheck, attempt.isRemoved = false :=
          List.forall_mem_map.mpr fun answer _ => Attempt.isRemoved_ofCheck answer
        have keptClean : ∀ answer ∈ kept, Admin.mayHold answer.2 = false := by
          intro answer mem
          exact Attempt.clean_of_recovered (turnsAbove.recovered_of_removed untouched all _
            (List.mem_map_of_mem mem))
        have cleanHere : Admin.mayHold output = false := Attempt.clean_of_recovered recoveredHere
        have confirmed : above.confirmed = ((kept.map Prod.fst).map protocol.deleting).reverse := by
          rw [turnsAbove.confirmed untouched, List.filter_eq_self.mpr (List.all_eq_true.mp all)]
          have same := congrArg (List.map protocol.deleting) turnsAbove.map_node
          simpa [Attempt.ofCheck, Function.comp_def] using same
        have nodes_eq : nodes = passed.map Prod.fst ++ node :: kept.map Prod.fst := by
          simpa using listed.symm
        subst nodes_eq
        refine ⟨_, node, _, rfl, rfl, ?_⟩
        have whole := Cleared.intro marked rfl unfired complete rfl pass
          ⟨(node, output) :: kept, by simp, by simpa [cleanHere] using keptClean, clear⟩
          ⟨[(protocol.surveying, health)], rfl, by simpa using said, looking⟩ confirmed clean refusals few
        simpa only [List.append_assoc] using whole

end Removal
end SetScaler
