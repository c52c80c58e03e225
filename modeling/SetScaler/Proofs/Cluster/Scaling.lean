import SetScaler.Controller.Reconcile
import SetScaler.Proofs.Cluster.Recording

/-!
# The autoscaler of a set

A set has its own autoscaler or else that of its component, and a component without named sets has the
implicit one (`ComponentSpec.Scales`). The autoscalers that a cluster's spec is taken to have are these,
and each is one for the component of its set (`ClusterSpec.Scales.component_eq`).
-/

namespace SetScaler

section Component

variable {settings : Type}

/-- The settings by which a set of a component is scaled. -/
inductive ComponentSpec.Scales (spec : ComponentSpec settings) : String → settings → Prop
  | implicit {its : settings} (unnamed : spec.sets = []) (given : spec.autoscaler = some its) :
      Scales spec defaultSet its
  | own {name : String} {set : SetSpec settings} {its : settings} (named : (name, set) ∈ spec.sets)
      (given : set.autoscaler = some its) : Scales spec name its
  | inherited {name : String} {set : SetSpec settings} {its : settings} (named : (name, set) ∈ spec.sets)
      (lacking : set.autoscaler = none) (given : spec.autoscaler = some its) : Scales spec name its

theorem ComponentSpec.mem_autoscalers {spec : ComponentSpec settings} {name : String} {its : settings} :
    (name, its) ∈ spec.autoscalers ↔ spec.Scales name its := by
  unfold autoscalers
  constructor
  · intro listed
    by_cases unnamed : spec.sets.isEmpty = true
    · rw [if_pos unnamed, Option.mem_toList, Option.map_eq_some_iff] at listed
      obtain ⟨_, given, same⟩ := listed
      cases same
      exact .implicit (List.isEmpty_iff.mp unnamed) given
    · rw [if_neg unnamed] at listed
      obtain ⟨⟨_, set⟩, named, listed⟩ := List.mem_filterMap.mp listed
      obtain ⟨_, given, same⟩ := Option.map_eq_some_iff.mp listed
      cases same
      rcases Option.or_eq_some_iff.mp given with given | ⟨lacking, given⟩
      · exact .own named given
      · exact .inherited named lacking given
  · rintro (⟨unnamed, given⟩ | ⟨named, given⟩ | ⟨named, lacking, given⟩)
    · simp [unnamed, given]
    · rw [if_neg (by simpa using List.ne_nil_of_mem named)]
      exact List.mem_filterMap.mpr ⟨_, named, by simp [given]⟩
    · rw [if_neg (by simpa using List.ne_nil_of_mem named)]
      exact List.mem_filterMap.mpr ⟨_, named, by simp [lacking, given]⟩

end Component

namespace ClusterSpec

variable {spec : ClusterSpec} {component : Component} {name : String} {its : AutoscalerSpec}

/-- The settings by which a set of a cluster is scaled. -/
inductive Scales (spec : ClusterSpec) : Component → String → AutoscalerSpec → Prop
  | broker {part : ComponentSpec BrokerSpec} {name : String} {its : BrokerSpec}
      (present : spec.broker = some part) (scales : part.Scales name its) :
      Scales spec .broker name (.broker its)
  | bookkeeper {part : ComponentSpec BookieSpec} {name : String} {its : BookieSpec}
      (present : spec.bookkeeper = some part) (scales : part.Scales name its) :
      Scales spec .bookkeeper name (.bookkeeper its)

theorem Scales.component_eq (scales : spec.Scales component name its) : its.component = component := by
  cases scales <;> rfl

theorem mem_getD {settings : Type} {part : Option (ComponentSpec settings)} {its : settings} :
    (name, its) ∈ (part.map fun part => part.autoscalers).getD [] ↔
      ∃ present, part = some present ∧ present.Scales name its := by
  cases part with
  | none => simp
  | some present => simp [ComponentSpec.mem_autoscalers]

theorem mem_autoscalers : (component, name, its) ∈ spec.autoscalers ↔ spec.Scales component name its := by
  rw [autoscalers, List.mem_append, List.mem_map, List.mem_map]
  constructor
  · rintro (⟨⟨_, own⟩, listed, same⟩ | ⟨⟨_, own⟩, listed, same⟩)
    · cases same
      obtain ⟨part, present, scales⟩ := mem_getD.mp listed
      exact .broker present scales
    · cases same
      obtain ⟨part, present, scales⟩ := mem_getD.mp listed
      exact .bookkeeper present scales
  · rintro (⟨present, scales⟩ | ⟨present, scales⟩)
    · exact .inl ⟨_, mem_getD.mpr ⟨_, present, scales⟩, rfl⟩
    · exact .inr ⟨_, mem_getD.mpr ⟨_, present, scales⟩, rfl⟩

end ClusterSpec

theorem ref_of_inCluster {key : SetKey} {ref other : ClusterRef} (own : key.inCluster ref.ns ref.name = true)
    (also : key.inCluster other.ns other.name = true) : ref = other := by
  simp only [SetKey.inCluster, Bool.and_eq_true, beq_iff_eq] at own also
  cases ref
  cases other
  rw [ClusterRef.mk.injEq]
  exact ⟨own.1.symm.trans also.1, own.2.symm.trans also.2⟩

namespace Cluster

variable {cluster : Cluster} {key : SetKey} {its : AutoscalerSpec}

/-- The settings by which the set of a key is scaled. -/
structure Scales (cluster : Cluster) (key : SetKey) (its : AutoscalerSpec) : Prop where
  own : key.inCluster cluster.ref.ns cluster.ref.name = true
  scales : cluster.spec.Scales key.component key.set its

theorem mem_autoscalerSpecs_iff : (key, its) ∈ cluster.autoscalerSpecs ↔ cluster.Scales key its := by
  rw [mem_autoscalerSpecs, ClusterSpec.mem_autoscalers]
  constructor
  · rintro ⟨ns, name, scales⟩
    exact ⟨by simp [SetKey.inCluster, ns, name, ref], scales⟩
  · rintro ⟨own, scales⟩
    obtain ⟨ns, name⟩ : key.ns = cluster.space ∧ key.cluster = cluster.displayName := by
      simpa [SetKey.inCluster, ref] using own
    exact ⟨ns, name, scales⟩

/-- What every cluster that has been read from a text is (`Cluster.wellRead_of_read?`). -/
structure WellRead (cluster : Cluster) : Prop where
  ordered : cluster.spec.Ordered
  /-- A NaN would differ from itself, and there is no literal for it. -/
  numbers : ∀ key its, cluster.Scales key its → its.hasNaN = false

end Cluster
end SetScaler
