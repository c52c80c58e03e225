import SetScaler.SetKey

/-!
# Names of stateful sets

A label selector tells the sets of a namespace apart (`selector_inj`): the first comma ends the cluster's name,
which has none. The name of a stateful set joins its parts by dashes, which clusters and sets may have in their
names. It tells the sets of one cluster apart, but those of two clusters only as long as no key shadows another
(`statefulSet_eq_iff`), which happens with ordinary names (`statefulSet_shared`).
-/

namespace SetScaler

namespace Text

variable {mark : Char} {front front' back back' : List Char}

/-- Where a text without a mark is at the front of one that has it, it ends at the mark or before. -/
theorem extends_of_clean (clean : mark ∉ front) (same : front ++ back = front' ++ mark :: back') :
    ∃ gap, front' = front ++ gap ∧ back = gap ++ mark :: back' := by
  rcases List.append_eq_append_iff.mp same with longer | ⟨gap, whole, rest⟩
  · exact longer
  · cases gap with
    | nil => exact ⟨[], by simpa using whole.symm, by simpa using rest.symm⟩
    | cons c gap =>
        obtain ⟨rfl, -⟩ := List.cons_eq_cons.mp rest
        exact absurd (whole ▸ List.mem_append_right front' List.mem_cons_self) clean

/-- A text has one first place where a mark is. -/
theorem cut_unique (clean : mark ∉ front) (clean' : mark ∉ front')
    (same : front ++ mark :: back = front' ++ mark :: back') : front = front' ∧ back = back' := by
  obtain ⟨gap, whole, rest⟩ := extends_of_clean clean same
  cases gap with
  | nil => exact ⟨by simpa using whole.symm, by simpa using rest⟩
  | cons c gap =>
      obtain ⟨rfl, -⟩ := List.cons_eq_cons.mp rest
      exact absurd (whole ▸ List.mem_append_right front List.mem_cons_self) clean'

end Text

namespace Component

theorem no_dash (component : Component) : '-' ∉ component.name.toList := by
  cases component <;> decide

/-- Neither component's name is at the front of the other's. -/
theorem eq_of_append {component component' : Component} {rest rest' : List Char}
    (same : component.name.toList ++ rest = component'.name.toList ++ rest') : component = component' := by
  cases component <;> cases component'
  · rfl
  · simp [name] at same
  · simp [name] at same
  · rfl

end Component

/-- Lower-case letters, digits and inner dashes, as in a DNS label; its length does not matter here. -/
def DnsLabel (name : String) : Prop :=
  name ≠ "" ∧ name.toList.all (fun c => c.isLower || c.isDigit || c == '-') = true ∧
    name.toList.head? ≠ some '-' ∧ name.toList.getLast? ≠ some '-'

instance (name : String) : Decidable (DnsLabel name) := inferInstanceAs (Decidable (_ ∧ _))

theorem DnsLabel.no_comma {name : String} (label : DnsLabel name) : ',' ∉ name.toList := by
  intro comma
  have allowed := List.all_eq_true.mp label.2.1 ',' comma
  revert allowed
  decide

namespace SetKey

variable {key other : SetKey}

/-- Cluster and set have labels for names. -/
def Labelled (key : SetKey) : Prop := DnsLabel key.cluster ∧ DnsLabel key.set

instance (key : SetKey) : Decidable key.Labelled := inferInstanceAs (Decidable (_ ∧ _))

/-- What comes after the component in the name of a stateful set. -/
def ending (key : SetKey) : String := if key.isDefault then "" else "-" ++ key.set

/-- The name of `other`'s cluster goes on after that of `key`'s cluster with `key`'s component, and the rest of
the name of `other`'s stateful set, from `middle` on where there is one, is the name of `key`'s set. -/
inductive Shadows (key other : SetKey) : Prop
  | directly (cluster : other.cluster = key.cluster ++ "-" ++ key.component.name)
      (set : key.set = other.component.name ++ other.ending)
  | apart (middle : String) (cluster : other.cluster = key.cluster ++ "-" ++ key.component.name ++ "-" ++ middle)
      (set : key.set = middle ++ "-" ++ other.component.name ++ other.ending)

theorem statefulSet_eq (key : SetKey) :
    key.statefulSet = key.cluster ++ "-" ++ key.component.name ++ key.ending := by
  unfold statefulSet ending
  split <;> simp [String.append_assoc]

theorem toList_ending (key : SetKey) :
    key.ending.toList = if key.isDefault then [] else '-' :: key.set.toList := by
  unfold ending
  split <;> simp

theorem toList_statefulSet (key : SetKey) : key.statefulSet.toList =
    key.cluster.toList ++ '-' :: (key.component.name.toList ++ key.ending.toList) := by
  simp [statefulSet_eq]

theorem ending_inj (same : key.ending = other.ending) : key.set = other.set := by
  have letters := congrArg String.toList same
  simp only [toList_ending, isDefault, beq_iff_eq] at letters
  split at letters <;> split at letters
  · rename_i implicit implicit'
    exact implicit.trans implicit'.symm
  · cases letters
  · cases letters
  · exact String.toList_inj.mp (List.cons.inj letters).2

theorem named_of_dash (dashed : '-' ∈ key.set.toList) : key.isDefault = false := by
  refine beq_false_of_ne fun same => ?_
  rw [same] at dashed
  revert dashed
  decide

theorem named_of_component {rest : String} (set : key.set = other.component.name ++ rest) :
    key.isDefault = false := by
  refine beq_false_of_ne fun same => ?_
  -- no component has the first letter of the implicit set
  have initial := congrArg (fun text => text.toList.head?) (same.symm.trans set)
  cases component : other.component <;> simp [component, Component.name, defaultSet] at initial

theorem Shadows.named (shadows : key.Shadows other) : key.isDefault = false := by
  cases shadows with
  | directly _ set => exact named_of_component set
  | apart middle _ set => exact named_of_dash (by simp [set])

theorem Shadows.statefulSet_eq (shadows : key.Shadows other) : key.statefulSet = other.statefulSet := by
  have named := shadows.named
  rw [SetKey.statefulSet_eq, SetKey.statefulSet_eq, ending, if_neg (by simp [named])]
  cases shadows with
  | directly cluster set => simp [cluster, set, String.append_assoc]
  | apart middle cluster set => simp [cluster, set, String.append_assoc]

/-- Where one cluster's name is at the front of the other's, the stateful sets have one name only if the keys
have the same parts or the first shadows the second. -/
theorem of_statefulSet_eq {gap : List Char} (longer : other.cluster.toList = key.cluster.toList ++ gap)
    (same : '-' :: (key.component.name.toList ++ key.ending.toList) =
      gap ++ '-' :: (other.component.name.toList ++ other.ending.toList)) :
    key.cluster = other.cluster ∧ key.component = other.component ∧ key.set = other.set ∨ key.Shadows other := by
  cases gap with
  | nil =>
      left
      have clusters : key.cluster = other.cluster := String.toList_inj.mp (by simpa using longer.symm)
      have rest := (List.cons.inj same).2
      have component := Component.eq_of_append rest
      rw [component] at rest
      exact ⟨clusters, component, ending_inj (String.toList_inj.mp (List.append_cancel_left rest))⟩
  | cons dash gap =>
      right
      obtain ⟨rfl, rest⟩ := List.cons.inj same
      -- a component has no dash, so the longer cluster's name has all of it
      obtain ⟨middle, rfl, set⟩ := Text.extends_of_clean key.component.no_dash rest
      rw [toList_ending] at set
      split at set
      · exact absurd set (by simp)
      · cases middle with
        | nil =>
            refine .directly (String.toList_inj.mp (by simpa using longer)) (String.toList_inj.mp ?_)
            simpa using set
        | cons dash middle =>
            obtain ⟨rfl, set⟩ := List.cons.inj set
            refine .apart (String.ofList middle) (String.toList_inj.mp (by simpa using longer))
              (String.toList_inj.mp ?_)
            simpa using set

/-- Stateful sets of one name belong to keys with the same parts, or one of the keys shadows the other. -/
theorem statefulSet_eq_iff : key.statefulSet = other.statefulSet ↔
    (key.cluster = other.cluster ∧ key.component = other.component ∧ key.set = other.set) ∨
      key.Shadows other ∨ other.Shadows key := by
  constructor
  · intro same
    have letters := congrArg String.toList same
    rw [toList_statefulSet, toList_statefulSet] at letters
    rcases List.append_eq_append_iff.mp letters with ⟨gap, longer, rest⟩ | ⟨gap, longer, rest⟩
    · rcases of_statefulSet_eq longer rest with parts | shadows
      · exact .inl parts
      · exact .inr (.inl shadows)
    · rcases of_statefulSet_eq longer rest with ⟨cluster, component, set⟩ | shadows
      · exact .inl ⟨cluster.symm, component.symm, set.symm⟩
      · exact .inr (.inr shadows)
  · rintro (⟨cluster, component, set⟩ | shadows | shadows)
    · simp [statefulSet, isDefault, cluster, component, set]
    · exact shadows.statefulSet_eq
    · exact shadows.statefulSet_eq.symm

theorem Shadows.cluster_ne (shadows : key.Shadows other) : key.cluster ≠ other.cluster := by
  intro same
  have lengths := congrArg (fun text => text.toList.length) same
  cases shadows with
  | directly cluster _ => simp [cluster] at lengths
  | apart middle cluster _ => simp [cluster] at lengths

theorem toList_selector (key : SetKey) : key.selector.toList =
    "app.kubernetes.io/instance=".toList ++ (key.cluster.toList ++ ',' ::
      ("app.kubernetes.io/component=".toList ++ (key.component.name.toList ++
        (",pulsar.oss.dev/resource-set=".toList ++ key.set.toList)))) := by
  have comma : ",app.kubernetes.io/component=".toList = ',' :: "app.kubernetes.io/component=".toList := by decide
  unfold selector
  simp only [String.toList_append, comma, List.append_assoc, List.cons_append]

theorem selector_inj (clean : ',' ∉ key.cluster.toList) (clean' : ',' ∉ other.cluster.toList)
    (same : key.selector = other.selector) :
    key.cluster = other.cluster ∧ key.component = other.component ∧ key.set = other.set := by
  have letters := congrArg String.toList same
  rw [toList_selector, toList_selector] at letters
  obtain ⟨cluster, rest⟩ := Text.cut_unique clean clean' (List.append_cancel_left letters)
  have rest := List.append_cancel_left rest
  have component := Component.eq_of_append rest
  rw [component] at rest
  have set := List.append_cancel_left (List.append_cancel_left rest)
  exact ⟨String.toList_inj.mp cluster, component, String.toList_inj.mp set⟩

theorem parts_ne (differ : key ≠ other) (together : key.ns = other.ns) :
    ¬(key.cluster = other.cluster ∧ key.component = other.component ∧ key.set = other.set) := by
  rintro ⟨cluster, component, set⟩
  apply differ
  cases key
  cases other
  rw [SetKey.mk.injEq]
  exact ⟨together, cluster, component, set⟩

/-- Different keys of one namespace, with labels for names, have different selectors. Their stateful sets have
different names too, unless one of the keys shadows the other, and always within one cluster. -/
theorem keys_told_apart (differ : key ≠ other) (together : key.ns = other.ns) (labelled : key.Labelled)
    (labelled' : other.Labelled) :
    key.selector ≠ other.selector ∧
      (key.statefulSet = other.statefulSet ↔ key.Shadows other ∨ other.Shadows key) ∧
      (key.cluster = other.cluster → key.statefulSet ≠ other.statefulSet) := by
  have apart := parts_ne differ together
  have shared : key.statefulSet = other.statefulSet ↔ key.Shadows other ∨ other.Shadows key :=
    statefulSet_eq_iff.trans (or_iff_right apart)
  refine ⟨fun same => apart (selector_inj labelled.1.no_comma labelled'.1.no_comma same), shared, ?_⟩
  intro cluster same
  rcases shared.mp same with shadows | shadows
  · exact shadows.cluster_ne cluster
  · exact shadows.cluster_ne cluster.symm

/-- Brokers in a named set. -/
def euBrokers : SetKey := ⟨"pulsar", "pulsar", .broker, "eu-bookkeeper"⟩

/-- The bookies of a cluster whose name is that of those brokers' stateful set up to its last word. -/
def euBookies : SetKey := ⟨"pulsar", "pulsar-broker-eu", .bookkeeper, defaultSet⟩

theorem keys_told_apart_nested :
    (euBrokers ≠ euBookies ∧ euBrokers.ns = euBookies.ns ∧ euBrokers.Labelled ∧ euBookies.Labelled) ∧
      euBrokers.selector ≠ euBookies.selector ∧
      (euBrokers.Shadows euBookies ∨ euBookies.Shadows euBrokers) := by
  have differ : euBrokers ≠ euBookies := by decide
  have labelled : euBrokers.Labelled := by decide
  have labelled' : euBookies.Labelled := by decide
  obtain ⟨selectors, shared, -⟩ := keys_told_apart differ rfl labelled labelled'
  exact ⟨⟨differ, rfl, labelled, labelled'⟩, selectors, shared.mp (by decide)⟩

/-- The stateful sets of two keys of one namespace, with labels for names, can have one name. -/
theorem statefulSet_shared :
    euBrokers ≠ euBookies ∧ euBrokers.ns = euBookies.ns ∧ euBrokers.Labelled ∧ euBookies.Labelled ∧
      euBrokers.statefulSet = "pulsar-broker-eu-bookkeeper" ∧
      euBookies.statefulSet = "pulsar-broker-eu-bookkeeper" := by
  decide

end SetKey
end SetScaler
