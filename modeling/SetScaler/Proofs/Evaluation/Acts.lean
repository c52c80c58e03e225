import SetScaler.Proofs.Bookie.Downscale
import SetScaler.Proofs.Evaluation.Stages

/-!
# How an evaluation ends

Once it acts, an evaluation leaves the recorded count alone and succeeds, or it records another one as
its very last step and has no result but the answer to that (`act_commits`).
-/

namespace SetScaler

/-- A program that records no count and succeeds, or records one of the given counts for a set as its last
step and passes the answer on. -/
inductive Program.Commits (key : SetKey) (aims : Int → Prop) : Program (Except Failure Unit) → Prop where
  | done : Commits key aims (.done (.ok ()))
  | patch {target : Int} : aims target → Commits key aims (Program.ask (.patchReplicas key target))
  | call {request : Request} {next : request.Result → Program (Except Failure Unit)} :
      request.isPatch = false → (∀ reply, Commits key aims (next reply)) →
      Commits key aims (.call request next)
  | exec {command : BookieCommand} {next : Output → Program (Except Failure Unit)} :
      (∀ output, Commits key aims (next output)) → Commits key aims (.exec command next)
  | query {rows : List (List BookieCommand)}
      {next : List (List Output) → Program (Except Failure Unit)} :
      (∀ outputs, Commits key aims (next outputs)) → Commits key aims (.query rows next)
  | settle {delayMs : Nat} {next : Bool → Program (Except Failure Unit)} :
      (∀ cancelled, Commits key aims (next cancelled)) → Commits key aims (.settle delayMs next)
  | look {next : Bool → Program (Except Failure Unit)} :
      (∀ cancelled, Commits key aims (next cancelled)) → Commits key aims (.look next)

/-- The events and the result of such a program. -/
inductive Committed (key : SetKey) (aims : Int → Prop) : Trace → Except Failure Unit → Prop where
  | kept {trace : Trace} : trace.patches = [] → Committed key aims trace (.ok ())
  | recorded {before : Trace} {time : Nat} {target : Int} {reply : Except Failure Unit} :
      before.patches = [] → aims target →
      Committed key aims (before ++ [.called time (.patchReplicas key target) reply]) reply

theorem Committed.after {key : SetKey} {aims : Int → Prop} {first rest : Trace}
    {result : Except Failure Unit} (unpatched : first.patches = [])
    (committed : Committed key aims rest result) : Committed key aims (first ++ rest) result := by
  cases committed with
  | kept none => exact .kept (by rw [Trace.patches_append, unpatched, none, List.append_nil])
  | recorded none aimed =>
      rw [← List.append_assoc]
      exact .recorded (by rw [Trace.patches_append, unpatched, none, List.append_nil]) aimed

theorem Program.Commits.bind {α : Type} {key : SetKey} {aims : Int → Prop} {program : Program α}
    {next : α → Program (Except Failure Unit)} {kind : BookieCommand → Prop}
    (first : program.Uses (fun request => request.isPatch = false) kind)
    (rest : ∀ result, (next result).Commits key aims) : (program.bind next).Commits key aims := by
  induction program with
  | done result => exact rest result
  | call _ _ ih => exact .call first.1 fun reply => ih reply (first.2 reply)
  | exec _ _ ih => exact .exec fun output => ih output (first.2 output)
  | query _ _ ih => exact .query fun outputs => ih outputs (first.2 outputs)
  | settle _ _ ih => exact .settle fun cancelled => ih cancelled (first cancelled)
  | look _ ih => exact .look fun cancelled => ih cancelled (first cancelled)

theorem Trace.patches_of_exchanges {trace : Trace} (exchanges : ∀ event ∈ trace, event.isExchange = true) :
    trace.patches = [] := by
  refine patches_eq_nil (fun _ => True) fun event mem => ?_
  have exchange := exchanges event mem
  cases event with
  | called => cases exchange
  | sent | answered | settled => trivial

theorem Program.Commits.run {σ : Type} (backend : Backend σ) (cancellation : Cancellation)
    {key : SetKey} {aims : Int → Prop} {program : Program (Except Failure Unit)}
    (commits : program.Commits key aims) (time : Nat) (state : σ) :
    Committed key aims (program.run backend cancellation time state).trace
      (program.run backend cancellation time state).result := by
  induction commits generalizing time state with
  | done => exact .kept rfl
  | patch aimed =>
      have none : Trace.patches [] = [] := rfl
      exact .recorded none aimed
  | @call request next other _ ih =>
      have unpatched : Trace.patches [.called time request (backend.reply request time state).1] = [] :=
        Trace.patches_eq_nil (fun _ => True) (List.forall_mem_singleton.mpr other)
      exact .after unpatched (ih _ time _)
  | exec _ ih => exact .after rfl (ih _ _ _)
  | query _ ih =>
      exact .after (Trace.patches_of_exchanges (runRows_exchanges backend cancellation _ _ _ _).2) (ih _ _ _)
  | settle _ ih => exact .after rfl (ih _ _ _)
  | look _ ih => exact ih _ _ _

theorem Removal.Summary.delta_eq (summary : Summary) : ∃ removed : Nat, summary.delta = -(removed : Int) := by
  unfold delta
  split
  · exact ⟨0, rfl⟩
  · exact ⟨_, rfl⟩
  · exact ⟨_, rfl⟩

theorem BookieTask.patch_commits {key : SetKey} {aims : Int → Prop} {current target : Int}
    (aimed : target ≠ current → aims target) : (patch key current target).Commits key aims := by
  by_cases same : target = current
  · have kept : patch key current target = .done (.ok ()) := if_pos same
    rw [kept]
    exact .done
  · have recorded : patch key current target = Program.ask (.patchReplicas key target) := if_neg same
    rw [recorded]
    exact .patch (aimed same)

namespace AutoscalerSpec

/-- The counts that an evaluation may record by what it has found. -/
def Aims (current : Int) : (spec : AutoscalerSpec) → spec.Nodes → Int → Prop
  | broker spec, nodes, target => target ≠ current ∧ target = spec.target current (spec.decide nodes)
  | bookkeeper spec, nodes, target => target ≠ current ∧
    match spec.planFor nodes with
    | .hold => False
    | .scaleUp count => target = spec.target current (Decision.up count).delta
    | .scaleDownIfReplicated _ => ∃ removed : Nat, target = spec.target current (-(removed : Int))

theorem carryOut_commits (spec : BookieSpec) (key : SetKey) (settings : ScalingSettings) (current : Int)
    (nodes : List BookieNode) :
    (BookieTask.carryOut key spec settings current nodes (spec.planFor nodes)).Commits key
      ((bookkeeper spec).Aims current nodes) := by
  cases planned : spec.planFor nodes with
  | hold => exact .done
  | scaleUp count => exact BookieTask.patch_commits fun changed => ⟨changed, by simp only [planned]⟩
  | scaleDownIfReplicated magnitude =>
      cases nodes with
      | nil => exact .done
      | cons first rest =>
          refine .exec fun health => ?_
          change Program.Commits _ _ (if Admin.saysHealthy health = true then _ else _)
          split
          · refine .bind (Removal.Protocol.run_heeds _ _).uses fun summary => ?_
            obtain ⟨removed, delta⟩ := summary.delta_eq
            split
            · exact .done
            · refine BookieTask.patch_commits fun changed => ⟨changed, ?_⟩
              simp only [planned]
              exact ⟨removed, by rw [delta]⟩
          · exact .done

theorem act_commits (spec : AutoscalerSpec) (key : SetKey) (settings : ScalingSettings) (current : Int)
    (nodes : spec.Nodes) : (spec.act key settings current nodes).Commits key (spec.Aims current nodes) := by
  cases spec with
  | broker spec => exact BookieTask.patch_commits fun changed => ⟨changed, rfl⟩
  | bookkeeper spec => exact carryOut_commits spec key settings current nodes

end AutoscalerSpec

/-- What an evaluation does from the point where it acts. -/
inductive Concluded (spec : AutoscalerSpec) (key : SetKey) :
    Standing spec.Nodes → Trace → Except Failure Unit → Prop where
  | closed {result : Except Failure Unit} : Concluded spec key (.closed result) [] result
  | acted {current : Int} {nodes : spec.Nodes} {acting : Trace} {result : Except Failure Unit} :
      Committed key (spec.Aims current nodes) acting result →
      Concluded spec key (.surveyed current nodes) acting result

/-- The ways of an evaluation, by where it stands when it acts. -/
inductive Evaluated {σ : Type} (backend : Backend σ) (cancellation : Cancellation) (spec : AutoscalerSpec)
    (key : SetKey) (settings : ScalingSettings) (standing : Standing spec.Nodes) :
    Trace → Except Failure Unit → Prop where
  | intro {opening acting : Trace} {result : Except Failure Unit} :
      Staged backend cancellation spec key settings opening standing →
      Concluded spec key standing acting result →
      Evaluated backend cancellation spec key settings standing (opening ++ acting) result

namespace AutoscalerSpec

variable {σ : Type} (backend : Backend σ) (cancellation : Cancellation) (spec : AutoscalerSpec)
  (key : SetKey) (settings : ScalingSettings)

theorem conclude_run (standing : Standing spec.Nodes) (time : Nat) (state : σ) :
    Concluded spec key standing
      ((spec.conclude key settings standing).run backend cancellation time state).trace
      ((spec.conclude key settings standing).run backend cancellation time state).result := by
  cases standing with
  | closed result => exact .closed
  | surveyed current nodes =>
      exact .acted ((act_commits spec key settings current nodes).run backend cancellation time state)

theorem run_evaluated (time : Nat) (state : σ) :
    Evaluated backend cancellation spec key settings
      ((spec.stages key settings).run backend cancellation time state).result
      ((spec.run key settings).run backend cancellation time state).trace
      ((spec.run key settings).run backend cancellation time state).result := by
  rw [run_eq, Program.run_bind]
  exact .intro (stages_run backend cancellation spec key settings time state)
    (conclude_run backend cancellation spec key settings _ _ _)

end AutoscalerSpec
end SetScaler
