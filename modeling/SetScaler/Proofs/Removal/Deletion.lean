import SetScaler.Proofs.Removal.Phases

/-!
# The deletion of cookies

The last candidate has its turn first. A turn is one of four (`Turn`): the candidate is passed over,
it turns out to hold ledgers, its cookie does not go, or its cookie goes and its version markers are
moved aside. A candidate only has a turn of its own when all those above it are gone, so that those
that go are the last ones (`Turns.removed_suffix`).
-/

namespace SetScaler.Removal

theorem Attempt.isRemoved_abort (attempt : Attempt) (reason : Reason) :
    (attempt.abort reason).isRemoved = attempt.isRemoved := by
  obtain ⟨node, progress⟩ := attempt
  cases progress <;> rfl

/-- The turn of one candidate, `free` if all those above it are gone: its events from a time on and
up to another, and how far the candidate has come after it. -/
inductive Turn (protocol : Protocol) :
    (free : Bool) → (start : Nat) → Attempt → Trace → Attempt → (finish : Nat) → Prop where
  | passed {free : Bool} {time : Nat} {attempt : Attempt} :
      free = false ∨ attempt.progress ≠ .recovered →
      Turn protocol free time attempt [] (attempt.abort .blocked) time
  | holding {node : BookieNode} {listed : Output} {trace : Trace} {start finish : Nat} :
      Asked protocol.listing start [(node, listed)] trace finish → Admin.mayHold listed = true →
      Turn protocol true start ⟨node, .recovered⟩ trace ⟨node, .failed .residualLedgers⟩ finish
  | unconfirmed {node : BookieNode} {listed : Output} {refusals : List Output}
      {looked tried : Trace} {start middle finish : Nat} :
      Asked protocol.listing start [(node, listed)] looked middle → Admin.mayHold listed = false →
      Asked protocol.deleting middle (refusals.map (node, ·)) tried finish →
      (∀ output ∈ refusals, Admin.saysCookieGone output = false) →
      refusals.length = max protocol.cookieAttempts 1 →
      Turn protocol true start ⟨node, .recovered⟩ (looked ++ tried)
        ⟨node, .failed .cookieNotDeleted⟩ finish
  | removed {node : BookieNode} {listed confirmed moved : Output} {refusals : List Output}
      {looked tried retired : Trace} {start middle gone finish : Nat} :
      Asked protocol.listing start [(node, listed)] looked middle → Admin.mayHold listed = false →
      Asked protocol.deleting middle ((refusals ++ [confirmed]).map (node, ·)) tried gone →
      (∀ output ∈ refusals, Admin.saysCookieGone output = false) →
      Admin.saysCookieGone confirmed = true → refusals.length < max protocol.cookieAttempts 1 →
      Asked protocol.retiring gone [(node, moved)] retired finish →
      Turn protocol true start ⟨node, .recovered⟩ (looked ++ tried ++ retired)
        ⟨node, .cookieDeleted⟩ finish

/-- The turns of several candidates, the last one first. -/
inductive Turns (protocol : Protocol) : Nat → List Attempt → Trace → List Attempt → Nat → Prop where
  | nil (time : Nat) : Turns protocol time [] [] [] time
  | cons {attempt after : Attempt} {rest rested : List Attempt} {above own : Trace}
      {start middle finish : Nat} : Turns protocol start rest above rested middle →
      Turn protocol (rested.all Attempt.isRemoved) middle attempt own after finish →
      Turns protocol start (attempt :: rest) (above ++ own) (after :: rested) finish

namespace Turn

variable {protocol : Protocol} {free : Bool} {attempt after : Attempt} {trace : Trace}
  {start finish : Nat}

theorem node_eq (turn : Turn protocol free start attempt trace after finish) :
    after.node = attempt.node := by
  cases turn <;> rfl

theorem free_of_removed (turn : Turn protocol free start attempt trace after finish)
    (untouched : attempt.isRemoved = false) (gone : after.isRemoved = true) : free = true := by
  cases turn with
  | passed skipped => rw [Attempt.isRemoved_abort, untouched] at gone; cases gone
  | holding | unconfirmed | removed => rfl

end Turn

namespace Turns

variable {protocol : Protocol} {attempts afters : List Attempt} {trace : Trace} {start finish : Nat}

theorem map_node (turns : Turns protocol start attempts trace afters finish) :
    afters.map Attempt.node = attempts.map Attempt.node := by
  induction turns with
  | nil => rfl
  | cons _ turn ih => simp [ih, turn.node_eq]

/-- Those that are gone are the last ones. -/
theorem removed_suffix (turns : Turns protocol start attempts trace afters finish)
    (untouched : ∀ attempt ∈ attempts, attempt.isRemoved = false) :
    ∃ kept gone, afters = kept ++ gone ∧ (∀ attempt ∈ kept, attempt.isRemoved = false) ∧
      ∀ attempt ∈ gone, attempt.isRemoved = true := by
  induction turns with
  | nil => exact ⟨[], [], rfl, by simp, by simp⟩
  | @cons attempt after rest rested above own start middle finish _ turn ih =>
      obtain ⟨kept, gone, rfl, stay, leave⟩ := ih fun other mem => untouched other (.tail _ mem)
      cases removed : after.isRemoved with
      | false => exact ⟨after :: kept, gone, rfl, by simpa [removed] using stay, leave⟩
      | true =>
          have all := turn.free_of_removed (untouched attempt List.mem_cons_self) removed
          have none_kept : kept = [] := by
            refine List.eq_nil_iff_forall_not_mem.mpr fun other mem => ?_
            have := List.all_eq_true.mp all other (List.mem_append_left _ mem)
            rw [stay other mem] at this
            cases this
          subst none_kept
          exact ⟨[], after :: gone, rfl, by simp, by simpa [removed] using leave⟩

end Turns

/-- Every command that goes to a candidate before the flags are cleared is of the given kind. -/
structure Protocol.Drives (protocol : Protocol) (kind : BookieCommand → Prop) (node : BookieNode) :
    Prop where
  marking : kind (protocol.marking node)
  recovering : kind (protocol.recovering node)
  listing : kind (protocol.listing node)
  deleting : kind (protocol.deleting node)
  retiring : kind (protocol.retiring node)

/-- Every command to a candidate is of the given kind. -/
structure Protocol.Tells (protocol : Protocol) (kind : BookieCommand → Prop) (node : BookieNode) :
    Prop extends protocol.Drives kind node where
  clearing : kind (protocol.clearing node)

section Within

variable {protocol : Protocol} {request : Request → Prop} {kind : BookieCommand → Prop}
  {trace : Trace} {start finish : Nat}

theorem Turn.within {free : Bool} {attempt after : Attempt}
    (drives : protocol.Drives kind attempt.node)
    (turn : Turn protocol free start attempt trace after finish) :
    ∀ event ∈ trace, event.Within request kind := by
  cases turn with
  | passed => simp
  | holding looked => exact looked.within (by simpa using drives.listing)
  | unconfirmed looked _ tried =>
      exact List.forall_mem_append.mpr
        ⟨looked.within (by simpa using drives.listing),
          tried.within (List.forall_mem_map.mpr fun _ _ => drives.deleting)⟩
  | removed looked _ tried _ _ _ retired =>
      refine List.forall_mem_append.mpr ⟨List.forall_mem_append.mpr
        ⟨looked.within (by simpa using drives.listing), ?_⟩,
        retired.within (by simpa using drives.retiring)⟩
      exact tried.within (List.forall_mem_map.mpr fun _ _ => drives.deleting)

theorem Turns.within {attempts afters : List Attempt}
    (drives : ∀ attempt ∈ attempts, protocol.Drives kind attempt.node)
    (turns : Turns protocol start attempts trace afters finish) :
    ∀ event ∈ trace, event.Within request kind := by
  induction turns with
  | nil => simp
  | cons _ turn ih =>
      exact List.forall_mem_append.mpr ⟨ih fun other mem => drives other (.tail _ mem),
        turn.within (drives _ List.mem_cons_self)⟩

end Within

namespace Protocol

variable {σ : Type} (protocol : Protocol) (backend : Backend σ) (cancellation : Cancellation)

/-- The tries to delete a cookie end with the first that is confirmed. -/
theorem deleteCookieWithin_run (node : BookieNode) (tries : Nat) (time : Nat) (state : σ) :
    ∃ refusals trace finish state',
      (∀ output ∈ refusals, Admin.saysCookieGone output = false) ∧
      ((refusals.length = tries ∧ Asked protocol.deleting time (refusals.map (node, ·)) trace finish ∧
        (Admin.deleteCookieWithin protocol.ns node.pod node.bookieId tries).run backend cancellation
          time state = ⟨false, trace, finish, state'⟩) ∨
      ∃ confirmed, refusals.length < tries ∧ Admin.saysCookieGone confirmed = true ∧
        Asked protocol.deleting time ((refusals ++ [confirmed]).map (node, ·)) trace finish ∧
        (Admin.deleteCookieWithin protocol.ns node.pod node.bookieId tries).run backend cancellation
          time state = ⟨true, trace, finish, state'⟩) := by
  induction tries generalizing time state with
  | zero => exact ⟨[], [], time, state, by simp, .inl ⟨rfl, .nil time, rfl⟩⟩
  | succ tries ih =>
      obtain ⟨output, middle, between, later, ran⟩ := Program.run_execute_bind backend cancellation
        (protocol.deleting node) (fun output =>
          if Admin.saysCookieGone output then .done true
          else Admin.deleteCookieWithin protocol.ns node.pod node.bookieId tries) time state
      cases said : Admin.saysCookieGone output with
      | true =>
          refine ⟨[], _, middle, between, by simp, .inr ⟨output, by simp, said,
            .cons later (.nil middle), ran.trans ?_⟩⟩
          simp [said, Ended.after]
      | false =>
          obtain ⟨refusals, trace, finish, state', all, failed | ⟨confirmed, few, last, asked, rested⟩⟩ :=
            ih middle between
          · obtain ⟨many, asked, rested⟩ := failed
            refine ⟨output :: refusals, _, finish, state', by simpa [said] using all,
              .inl ⟨by simp [many], .cons later asked, ran.trans ?_⟩⟩
            simp [said, rested, Ended.after]
          · refine ⟨output :: refusals, _, finish, state', by simpa [said] using all,
              .inr ⟨confirmed, by simpa using few, last, .cons later asked, ran.trans ?_⟩⟩
            simp [said, rested, Ended.after]

theorem deleteOne_eq (node : BookieNode) :
    protocol.deleteOne ⟨node, .recovered⟩ =
      (Program.execute (protocol.listing node)).bind fun listed =>
        if Admin.mayHold listed then .done (⟨node, .failed .residualLedgers⟩ : Attempt)
        else
          (Admin.deleteCookieWithin protocol.ns node.pod node.bookieId
            (max protocol.cookieAttempts 1)).bind fun deleted =>
              if deleted then
                (Program.execute (protocol.retiring node)).bind fun _ => .done ⟨node, .cookieDeleted⟩
              else .done ⟨node, .failed .cookieNotDeleted⟩ := by
  refine congrArg (Program.exec (protocol.listing node)) (funext fun listed => ?_)
  cases held : Admin.mayHold listed with
  | true => simp [held, Progress.afterLedgerCheck]
  | false =>
      have clean : Progress.recovered.afterLedgerCheck false = .recovered := rfl
      simp only [held, Program.pure_eq, Program.done_bind, clean]
      rw [if_neg (by simp), if_neg (by simp)]
      refine congrArg (Program.bind _) (funext fun deleted => ?_)
      cases deleted <;> rfl

theorem deleteOne_run (node : BookieNode) (time : Nat) (state : σ) :
    ∃ after trace finish state', Turn protocol true time ⟨node, .recovered⟩ trace after finish ∧
      (protocol.deleteOne ⟨node, .recovered⟩).run backend cancellation time state =
        ⟨after, trace, finish, state'⟩ := by
  rw [deleteOne_eq]
  obtain ⟨listed, middle, between, later, ran⟩ := Program.run_execute_bind backend cancellation
    (protocol.listing node) _ time state
  have looked : Asked protocol.listing time [(node, listed)] _ middle := .cons later (.nil middle)
  cases held : Admin.mayHold listed with
  | true =>
      refine ⟨_, _, middle, between, .holding looked held, ran.trans ?_⟩
      simp [held, Ended.after]
  | false =>
      obtain ⟨refusals, tried, gone, last, all, failed | ⟨confirmed, few, said, asked, rested⟩⟩ :=
        protocol.deleteCookieWithin_run backend cancellation node (max protocol.cookieAttempts 1)
          middle between
      · obtain ⟨many, asked, rested⟩ := failed
        refine ⟨_, _, gone, last, .unconfirmed looked held asked all many, ran.trans ?_⟩
        simp [held, Program.run_bind, rested, Ended.after]
      · obtain ⟨moved, finish, state', after, retired⟩ := Program.run_execute_bind backend
          cancellation (protocol.retiring node)
          (fun _ => Program.done (⟨node, .cookieDeleted⟩ : Attempt)) gone last
        have moving : Asked protocol.retiring gone [(node, moved)] _ finish := .cons after (.nil finish)
        refine ⟨_, _, finish, state', .removed looked held asked all said few moving, ran.trans ?_⟩
        rw [if_neg (by simp [held]), Program.run_bind, rested, if_pos rfl, retired]
        simp [Ended.after]

theorem deleteAll_run (attempts : List Attempt)
    (untouched : ∀ attempt ∈ attempts, attempt.isRemoved = false) (time : Nat) (state : σ) :
    ∃ afters trace finish state', Turns protocol time attempts trace afters finish ∧
      (protocol.deleteAll attempts).run backend cancellation time state =
        ⟨(afters, !afters.all Attempt.isRemoved), trace, finish, state'⟩ := by
  -- the last candidate comes first, so that `ih` is about what happens before
  induction attempts with
  | nil => exact ⟨[], [], time, state, .nil time, rfl⟩
  | cons attempt rest ih =>
      obtain ⟨rested, above, middle, between, turns, ran⟩ :=
        ih fun other mem => untouched other (.tail _ mem)
      have opened : (protocol.deleteAll (attempt :: rest)).run backend cancellation time state =
          Ended.after above (Program.run backend cancellation
            (if (!rested.all Attempt.isRemoved) || attempt.progress != .recovered then
              .done (attempt.abort .blocked :: rested, true)
            else (protocol.deleteOne attempt).bind fun attempt =>
              .done (attempt :: rested, !attempt.isRemoved)) middle between) := by
        rw [deleteAll, Program.bind_eq, Program.run_bind, ran]
        rfl
      by_cases free : rested.all Attempt.isRemoved = true ∧ attempt.progress = .recovered
      · obtain ⟨node, progress⟩ := attempt
        obtain ⟨free, rfl⟩ := free
        obtain ⟨after, own, finish, state', turn, done⟩ :=
          protocol.deleteOne_run backend cancellation node middle between
        refine ⟨after :: rested, above ++ own, finish, state', .cons turns (free ▸ turn), ?_⟩
        rw [opened]
        simp [free, Program.run_bind, done, Ended.after]
      · have skipped : rested.all Attempt.isRemoved = false ∨ attempt.progress ≠ .recovered := by
          cases all : rested.all Attempt.isRemoved <;> simp_all
        have stays : (attempt.abort .blocked).isRemoved = false := by
          rw [Attempt.isRemoved_abort, untouched attempt List.mem_cons_self]
        refine ⟨attempt.abort .blocked :: rested, above ++ [], middle, between,
          .cons turns (.passed skipped), ?_⟩
        rw [opened, if_pos (by simpa using skipped)]
        simp [stays, Ended.after]

end Protocol
end SetScaler.Removal
