import SetScaler.Proofs.Evaluation.Acts

/-!
# Nothing acts before the gate

An evaluation acts on its set only when the spec is sound and the set has passed the gate, it records a
count at most once and as its last step, and it fails without doing so only if no bookie has been touched
(`run_gated`).
-/

namespace SetScaler

/-- Whether an event acts on a set: a count is recorded, or a command other than the trigger of an audit
is sent. -/
def Event.acts : Event → Bool
  | called _ request _ => request.isPatch
  | sent _ command => command.action != .triggerAudit
  | answered .. | settled .. => false

theorem Event.Idles.acts {event : Event} (idles : event.Idles) : event.acts = false := by
  cases event with
  | called => exact idles
  | sent time command =>
      have audits : command.action = .triggerAudit := idles
      simp [Event.acts, audits]
  | answered | settled => rfl

theorem Event.Idles.spares {event : Event} (idles : event.Idles) : event.Spares := by
  have untouched {command : BookieCommand} (audits : command.action = .triggerAudit) :
      command.action.touches = false := by
    rw [audits]
    rfl
  cases event with
  | called => exact idles
  | sent | answered => exact untouched idles
  | settled => trivial

theorem Trace.not_touched {trace : Trace} (spares : ∀ event ∈ trace, event.Spares)
    {command : BookieCommand} (sent : command ∈ trace.sends) : command.action.touches = false := by
  obtain ⟨time, happened⟩ := mem_sends.mp sent
  exact spares _ happened

theorem Trace.patches_ne_nil {trace before after : Trace} {time : Nat} {key : SetKey} {count : Int}
    {reply : Except Failure Unit}
    (cut : trace = before ++ .called time (.patchReplicas key count) reply :: after) :
    trace.patches ≠ [] := by
  rw [cut, patches_append]
  exact List.append_ne_nil_of_right_ne_nil _ (List.cons_ne_nil _ _)

section Opened

variable {key : SetKey} {container : String} {windowMs : Nat} {current : Int} {opening : Trace}

theorem Opened.idles (opened : Opened key container windowMs current opening) :
    ∀ event ∈ opening, event.Idles := by
  cases opened with
  | intro cleanup passed =>
      refine List.forall_mem_append.mpr ⟨List.forall_mem_cons.mpr ⟨rfl, cleanup⟩, ?_⟩
      cases passed with
      | intro => simp [Event.Within, Request.isPatch]

/-- What acts comes after the gate. -/
theorem Opened.before_acts (opened : Opened key container windowMs current opening)
    {rest before after : Trace} {event : Event} (acts : event.acts = true)
    (cut : opening ++ rest = before ++ event :: after) : opening <+: before := by
  have absent : event ∉ opening := by
    intro early
    rw [(opened.idles event early).acts] at acts
    cases acts
  obtain ⟨later, rfl, -⟩ := Trace.cut_after absent cut
  exact List.prefix_append opening later

end Opened

section Committed

variable {key : SetKey} {aims : Int → Prop} {trace : Trace} {result : Except Failure Unit}

theorem Committed.patches (committed : Committed key aims trace result) :
    trace.patches = [] ∧ result = .ok () ∨ ∃ target, aims target ∧ trace.patches = [(key, target)] := by
  cases committed with
  | kept none => exact .inl ⟨none, rfl⟩
  | recorded none aimed =>
      refine .inr ⟨_, aimed, ?_⟩
      rw [Trace.patches_append, none]
      rfl

/-- The recording of a count is the last step, and its answer is the result. -/
theorem Committed.last (committed : Committed key aims trace result) {before after : Trace} {time : Nat}
    {own : SetKey} {target : Int} {reply : Except Failure Unit}
    (cut : trace = before ++ .called time (.patchReplicas own target) reply :: after) :
    own = key ∧ after = [] ∧ result = reply ∧ aims target := by
  cases committed with
  | kept none => exact absurd none (Trace.patches_ne_nil cut)
  | @recorded early _ _ _ none aimed =>
      have absent : .called time (.patchReplicas own target) reply ∉ early := by
        intro happened
        obtain ⟨_, _, cut⟩ := List.append_of_mem happened
        exact Trace.patches_ne_nil cut none
      obtain ⟨later, rfl, tail⟩ := Trace.cut_after absent cut
      cases later with
      | nil =>
          cases tail
          exact ⟨rfl, rfl, rfl, aimed⟩
      | cons => simp at tail

end Committed

/-- What holds of the events and the result of an evaluation. -/
structure Gated (spec : AutoscalerSpec) (key : SetKey) (settings : ScalingSettings) (trace : Trace)
    (result : Except Failure Unit) : Prop where
  refused : ∀ defect, spec.defect? = some defect → trace = [] ∧ result = .error (.invalidSpec defect)
  opened : ∀ before event after, trace = before ++ event :: after → event.acts = true →
    spec.defect? = none ∧ ∃ current opening, opening <+: before ∧
      Opened key (spec.container settings) spec.stabilizationMs current opening
  /-- A count is recorded by the last event. It is one of the set itself, and it differs from the one that
  was read. -/
  last : ∀ before after time own target reply,
    trace = before ++ .called time (.patchReplicas own target) reply :: after →
    own = key ∧ after = [] ∧ result = reply ∧ ∃ current opening, opening <+: before ∧
      Opened key (spec.container settings) spec.stabilizationMs current opening ∧ target ≠ current
  once : trace.patches.length ≤ 1
  unharmed : ∀ failure, result = .error failure → trace.patches = [] →
    ∀ command ∈ trace.sends, command.action.touches = false

section Gated

variable {σ : Type} {backend : Backend σ} {cancellation : Cancellation} {spec : AutoscalerSpec}
  {key : SetKey} {settings : ScalingSettings} {trace : Trace} {result : Except Failure Unit}

theorem AutoscalerSpec.Aims.ne {current target : Int} {nodes : spec.Nodes}
    (aims : spec.Aims current nodes target) : target ≠ current := by
  cases spec with
  | broker => exact aims.1
  | bookkeeper => exact aims.1

/-- An evaluation that does not come to its gate, or is stopped there. -/
theorem Gated.of_idles (sound : spec.defect? = none) (idles : ∀ event ∈ trace, event.Idles) :
    Gated spec key settings trace result := by
  have unpatched : trace.patches = [] := Trace.patches_eq_nil _ idles
  refine ⟨fun defect flawed => ?_, fun before event after cut acts => ?_,
    fun before after time own target reply cut => ?_, by simp [unpatched], fun _ _ _ command sent => ?_⟩
  · rw [sound] at flawed
    cases flawed
  · rw [(idles event (by rw [cut]; simp)).acts] at acts
    cases acts
  · exact absurd unpatched (Trace.patches_ne_nil cut)
  · exact Trace.not_touched (fun event mem => (idles event mem).spares) sent

/-- An evaluation whose set has passed the gate. -/
theorem Gated.of_opened {current : Int} {opening rest : Trace} {aims : Int → Prop}
    (sound : spec.defect? = none)
    (opened : Opened key (spec.container settings) spec.stabilizationMs current opening)
    (aimed : ∀ target, aims target → target ≠ current)
    (ends : (∀ event ∈ rest, event.Spares) ∨ Committed key aims rest result) :
    Gated spec key settings (opening ++ rest) result := by
  have unpatched : opening.patches = [] := Trace.patches_eq_nil _ opened.idles
  have gentle : ∀ event ∈ opening, event.Spares := fun event mem => (opened.idles event mem).spares
  refine ⟨fun defect flawed => ?_, fun before event after cut acts => ?_,
    fun before after time own target reply cut => ?_, ?_, fun failure failed none command sent => ?_⟩
  · rw [sound] at flawed
    cases flawed
  · exact ⟨sound, current, opening, opened.before_acts acts cut, opened⟩
  · rcases ends with spares | committed
    · have none := Trace.patches_eq_nil _ (List.forall_mem_append.mpr ⟨gentle, spares⟩)
      exact absurd none (Trace.patches_ne_nil cut)
    · obtain ⟨same, final, answered, aim⟩ := (committed.after unpatched).last cut
      exact ⟨same, final, answered, current, opening, opened.before_acts rfl cut, opened, aimed target aim⟩
  · rw [Trace.patches_append, unpatched, List.nil_append]
    rcases ends with spares | committed
    · simp [Trace.patches_eq_nil _ spares]
    · rcases committed.patches with ⟨none, -⟩ | ⟨target, -, one⟩
      · simp [none]
      · simp [one]
  · rcases ends with spares | committed
    · exact Trace.not_touched (List.forall_mem_append.mpr ⟨gentle, spares⟩) sent
    · rcases (committed.after unpatched).patches with ⟨-, succeeded⟩ | ⟨target, -, one⟩
      · rw [failed] at succeeded
        cases succeeded
      · rw [one] at none
        cases none

theorem Evaluated.gated {standing : Standing spec.Nodes}
    (evaluated : Evaluated backend cancellation spec key settings standing trace result) :
    Gated spec key settings trace result := by
  cases evaluated with
  | intro staged concluded =>
      cases staged with
      | refused flawed =>
          cases concluded
          refine ⟨fun defect found => ?_, by simp, by simp, by simp [Trace.patches, Trace.requests],
            by simp [Trace.sends, Trace.commands]⟩
          cases flawed.symm.trans found
          exact ⟨rfl, rfl⟩
      | closed sound idles =>
          cases concluded
          rw [List.append_nil]
          exact .of_idles sound idles
      | @passed opening surveyed current found start finish state state' sound opened ran =>
          have spares := Program.events_of_uses backend cancellation
            (spec.survey_looks key settings).spares start state
          rw [ran] at spares
          have unpatched : surveyed.patches = [] := Trace.patches_eq_nil _ spares
          rw [List.append_assoc]
          cases found with
          | error failure =>
              cases concluded
              rw [List.append_nil]
              exact .of_opened sound opened (fun _ => False.elim) (.inl spares)
          | ok nodes =>
              cases concluded with
              | acted committed =>
                  exact .of_opened sound opened (fun _ => AutoscalerSpec.Aims.ne)
                    (.inr (committed.after unpatched))

end Gated

/-- However the cluster answers and fails, an evaluation acts only on a set that has passed the gate. -/
theorem AutoscalerSpec.run_gated {σ : Type} (backend : Backend σ) (cancellation : Cancellation)
    (spec : AutoscalerSpec) (key : SetKey) (settings : ScalingSettings) (time : Nat) (state : σ) :
    Gated spec key settings ((spec.run key settings).run backend cancellation time state).trace
      ((spec.run key settings).run backend cancellation time state).result :=
  (spec.run_evaluated backend cancellation key settings time state).gated

end SetScaler
