import SetScaler.Proofs.Double
import SetScaler.Proofs.Schedule.Live

/-!
# Looking up the live task of a set

A change of the registry is told by which task it leaves live for each set. An observation replaces what
is live for the sets of its cluster by what its specs want, and leaves the other sets alone
(`find?_observe`). Whether a task is replaced rests on the equality of specs, which is reflexive as
long as no threshold is NaN.
-/

namespace SetScaler

namespace AutoscalerSpec

/-- Whether a threshold of a spec is not a number. -/
def hasNaN : AutoscalerSpec → Bool
  | broker spec => spec.lowerCpuThreshold.isNaN || spec.higherCpuThreshold.isNaN
  | bookkeeper spec => spec.diskUsageToleranceHwm.isNaN || spec.diskUsageToleranceLwm.isNaN

theorem beq_self {spec : AutoscalerSpec} (numbers : spec.hasNaN = false) : (spec == spec) = true := by
  cases spec with
  | broker spec =>
      obtain ⟨lower, higher⟩ := Bool.or_eq_false_iff.mp numbers
      change instBEqBrokerSpec.beq spec spec = true
      simp [instBEqBrokerSpec.beq, Double.beq_self lower, Double.beq_self higher]
  | bookkeeper spec =>
      obtain ⟨high, low⟩ := Bool.or_eq_false_iff.mp numbers
      change instBEqBookieSpec.beq spec spec = true
      simp [instBEqBookieSpec.beq, Double.beq_self high, Double.beq_self low]

theorem enabled_of_beq {spec other : AutoscalerSpec} (equal : (spec == other) = true) :
    spec.enabled = other.enabled := by
  match spec, other with
  | broker spec, broker other =>
      change instBEqBrokerSpec.beq spec other = true at equal
      simp only [instBEqBrokerSpec.beq, Bool.and_eq_true, beq_iff_eq] at equal
      exact equal.1
  | bookkeeper spec, bookkeeper other =>
      change instBEqBookieSpec.beq spec other = true at equal
      simp only [instBEqBookieSpec.beq, Bool.and_eq_true, beq_iff_eq] at equal
      exact equal.1

theorem component_of_beq {spec other : AutoscalerSpec} (equal : (spec == other) = true) :
    spec.component = other.component := by
  match spec, other with
  | broker _, broker _ => rfl
  | bookkeeper _, bookkeeper _ => rfl
  | broker _, bookkeeper _ | bookkeeper _, broker _ => cases equal

end AutoscalerSpec

namespace Schedule

variable {σ ρ : Type} (work : Workload σ ρ)

/-- The live task of a set whose spec is observed: the old one if that has an equal spec, else a new one
if the spec is enabled. -/
def heir (old : Option Scheduled) (key : SetKey) (spec : AutoscalerSpec) (generation : Nat) :
    Option Scheduled :=
  if old.any fun task => task.spec == spec then old
  else if spec.enabled then some ⟨key, spec, generation⟩
  else none

theorem mem_of_lookup {specs : List (SetKey × AutoscalerSpec)} {key : SetKey} {spec : AutoscalerSpec}
    (listed : specs.lookup key = some spec) : (key, spec) ∈ specs := by
  obtain ⟨before, after, rfl, -⟩ := List.lookup_eq_some_iff.mp listed
  exact List.mem_append_right _ List.mem_cons_self

theorem lookup_eq_some_iff {specs : List (SetKey × AutoscalerSpec)}
    (distinct : (specs.map Prod.fst).Nodup) {key : SetKey} {spec : AutoscalerSpec} :
    specs.lookup key = some spec ↔ (key, spec) ∈ specs := by
  refine ⟨mem_of_lookup, fun mem => ?_⟩
  cases listed : specs.lookup key with
  | none =>
      have absent := List.lookup_eq_none_iff.mp listed _ mem
      simp at absent
  | some other =>
      have same := List.inj_on_of_nodup_map distinct (mem_of_lookup listed) mem rfl
      rw [(Prod.mk.inj same).2]

namespace Registry

theorem find?_eq_some_iff {registry : Registry} (distinct : (registry.live.map Scheduled.key).Nodup)
    {key : SetKey} {scheduled : Scheduled} :
    registry.find? key = some scheduled ↔ scheduled ∈ registry.live ∧ scheduled.key = key := by
  constructor
  · intro found
    exact ⟨List.mem_of_find?_eq_some found, by simpa using List.find?_some found⟩
  · rintro ⟨mem, rfl⟩
    cases found : registry.find? scheduled.key with
    | none =>
        have absent := List.find?_eq_none.mp found scheduled mem
        simp at absent
    | some other =>
        have same : other.key = scheduled.key := by simpa using List.find?_some found
        rw [List.inj_on_of_nodup_map distinct (List.mem_of_find?_eq_some found) mem same]

theorem find?_retire (registry : Registry) (key other : SetKey) :
    (registry.retire key).1.find? other = if other = key then none else registry.find? other := by
  unfold retire
  cases found : registry.find? key with
  | none =>
      by_cases same : other = key
      · rw [if_pos same, same]
        exact found
      · rw [if_neg same]
  | some task =>
      simp only [find?, List.find?_filter]
      by_cases same : other = key
      · rw [if_pos same, same]
        exact List.find?_eq_none.mpr (by simp)
      · rw [if_neg same]
        congr 1
        funext scheduled
        by_cases own : scheduled.key = other <;> simp [own, same]

theorem find?_retireAll (registry : Registry) (keys : List SetKey) (other : SetKey) :
    (registry.retireAll keys).1.find? other = if other ∈ keys then none else registry.find? other := by
  induction keys generalizing registry with
  | nil => simp [retireAll]
  | cons key rest ih =>
      simp only [retireAll, ih, find?_retire, List.mem_cons]
      by_cases same : other = key <;> by_cases listed : other ∈ rest <;> simp [same, listed]

theorem find?_launch (registry : Registry) {key : SetKey} (unlive : registry.find? key = none)
    (spec : AutoscalerSpec) (other : SetKey) :
    (registry.launch key spec).1.find? other =
      if other = key then some ⟨key, spec, registry.next⟩ else registry.find? other := by
  change (registry.live ++ [_]).find? _ = _
  rw [List.find?_append]
  change (registry.find? other).or _ = _
  by_cases same : other = key
  · simp [same, unlive]
  · have apart : key ≠ other := Ne.symm same
    simp [same, apart]

theorem find?_align (registry : Registry) (key : SetKey) (spec : AutoscalerSpec) (other : SetKey) :
    (registry.align key spec).1.find? other =
      if other = key then heir (registry.find? key) key spec registry.next
      else registry.find? other := by
  unfold align heir
  dsimp only
  by_cases equal : (registry.find? key).any fun task => task.spec == spec
  · rw [if_pos equal, if_pos equal]
    by_cases same : other = key
    · rw [if_pos same, same]
    · rw [if_neg same]
  · rw [if_neg equal, if_neg equal]
    have retired : (registry.retire key).1.find? key = none := by rw [find?_retire, if_pos rfl]
    by_cases enabled : spec.enabled = true
    · rw [if_pos enabled, if_pos enabled]
      dsimp only
      rw [find?_launch _ retired, find?_retire, (registry.retire_kept key).1]
      by_cases same : other = key <;> simp [same]
    · rw [if_neg enabled, if_neg enabled, find?_retire]

theorem align_next (registry : Registry) (key : SetKey) (spec : AutoscalerSpec) :
    registry.next ≤ (registry.align key spec).1.next := by
  have kept := (registry.retire_kept key).1
  unfold align
  dsimp only
  split
  · exact Nat.le_refl _
  · split
    · simp only [launch, kept]
      omega
    · exact Nat.le_of_eq kept.symm

theorem find?_alignAll (registry : Registry) {specs : List (SetKey × AutoscalerSpec)}
    (distinct : (specs.map Prod.fst).Nodup) (key : SetKey) :
    ∃ generation, registry.next ≤ generation ∧ (registry.alignAll specs).1.find? key =
      match specs.lookup key with
      | none => registry.find? key
      | some spec => heir (registry.find? key) key spec generation := by
  induction specs generalizing registry with
  | nil => exact ⟨registry.next, Nat.le_refl _, rfl⟩
  | cons first rest ih =>
      obtain ⟨name, spec⟩ := first
      obtain ⟨fresh, others⟩ := List.nodup_cons.mp distinct
      obtain ⟨generation, later, found⟩ := ih (registry.align name spec).1 others
      by_cases same : key = name
      · subst same
        have unlisted : rest.lookup key = none :=
          List.lookup_eq_none_iff.mpr fun entry mem => by
            simpa using fun equal => fresh (List.mem_map.mpr ⟨entry, mem, equal.symm⟩)
        refine ⟨registry.next, Nat.le_refl _, ?_⟩
        rw [unlisted] at found
        simp only [alignAll, found, find?_align, if_true, List.lookup_cons_self]
      · have apart : (key == name) = false := by simpa using same
        refine ⟨generation, Nat.le_trans (registry.align_next name spec) later, ?_⟩
        simp only [alignAll, found, find?_align, if_neg same, List.lookup_cons, apart]

theorem mem_gone {registry : Registry} {ns cluster : String} {specs : List (SetKey × AutoscalerSpec)}
    {key : SetKey} : key ∈ registry.gone ns cluster specs ↔ (∃ task ∈ registry.live, task.key = key) ∧
      key.inCluster ns cluster = true ∧ specs.lookup key = none := by
  have unlisted : (specs.any fun entry => entry.1 == key) = false ↔ specs.lookup key = none := by
    rw [List.lookup_eq_none_iff, List.any_eq_false]
    exact forall₂_congr fun entry _ => by simpa using ne_comm
  rw [gone, List.mem_filter, List.mem_map, Bool.and_eq_true, Bool.not_eq_true', unlisted]

theorem lookup_of_outside {ns cluster : String} {specs : List (SetKey × AutoscalerSpec)}
    (inside : ∀ entry ∈ specs, entry.1.inCluster ns cluster = true) {key : SetKey}
    (outside : ¬key.inCluster ns cluster = true) : specs.lookup key = none :=
  List.lookup_eq_none_iff.mpr fun entry mem => by
    have apart : key ≠ entry.1 := fun same => outside (same ▸ inside entry mem)
    simpa using apart

/-- What is live after an observation. -/
theorem find?_observe (registry : Registry) (opened : registry.closed = false)
    (finished : Nat → Bool) {ns cluster : String} {specs : List (SetKey × AutoscalerSpec)}
    (distinct : (specs.map Prod.fst).Nodup)
    (inside : ∀ entry ∈ specs, entry.1.inCluster ns cluster = true) (key : SetKey) :
    ∃ generation, registry.next ≤ generation ∧
      (registry.observe finished ns cluster specs).1.find? key =
        if key.inCluster ns cluster then
          (specs.lookup key).bind fun spec => heir (registry.find? key) key spec generation
        else registry.find? key := by
  let pruned := registry.prune finished
  let retired := (pruned.retireAll (pruned.gone ns cluster specs)).1
  have left : retired.find? key =
      if key ∈ pruned.gone ns cluster specs then none else registry.find? key :=
    pruned.find?_retireAll _ key
  have next : registry.next = retired.next := (pruned.retireAll_next _).symm
  have observed : (registry.observe finished ns cluster specs).1 = (retired.alignAll specs).1 := by
    unfold observe
    rw [if_neg (by simp [opened])]
  obtain ⟨generation, later, found⟩ := retired.find?_alignAll distinct key
  refine ⟨generation, next ▸ later, ?_⟩
  simp only [observed, found, left, mem_gone]
  by_cases own : key.inCluster ns cluster = true
  · rw [if_pos own]
    cases listed : specs.lookup key with
    | some spec => simp
    | none =>
        by_cases live : ∃ task ∈ pruned.live, task.key = key
        · rw [if_pos ⟨live, own, rfl⟩]
          rfl
        · rw [if_neg fun gone => live gone.1]
          exact List.find?_eq_none.mpr fun task mem => by simpa using fun same => live ⟨task, mem, same⟩
  · rw [if_neg own, lookup_of_outside inside own, if_neg fun gone => own gone.2.1]

end Registry
end Schedule
end SetScaler
