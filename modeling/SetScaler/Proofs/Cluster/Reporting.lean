import SetScaler.Proofs.Cluster.Scaling

/-!
# Reading back a report

The patch of a report is applied to the resource of a cluster, whatever that has for a status. It is then
read as the same cluster with the reported sets in its status (`Cluster.ofJson?_report`), for which the same
report is not needed again.
-/

namespace SetScaler

theorem Json.list?_str (texts : List String) : list? str? (.arr (texts.map .str)) = some texts := by
  change (texts.map Json.str).mapM str? = some texts
  induction texts with
  | nil => rfl
  | cons text rest ih => rw [List.map_cons, List.mapM_cons, ih]; rfl

/-- The members of an object that a record knows. -/
def Record.known (names : List String) (json : Json) : Record :=
  json.membersOf.filter fun member => names.contains member.1

/-- A value that reads as a record, if it is there, has no member of the record twice. -/
theorem Record.known_distinct {names : List String} {json : Json}
    (reads : json = .null ∨ ∃ record, ofJson? names json = some record) :
    ((known names json).map Prod.fst).Nodup := by
  cases json with
  | obj members =>
      obtain absent | ⟨record, reads⟩ := reads
      · cases absent
      · rw [ofJson?] at reads
        split at reads
        · assumption
        · cases reads
  | null | bool | int | float | str | arr | unreadable => exact List.nodup_nil

namespace ClusterStatus

/-- The status that reports sets at a given time of day. -/
def reporting (sets : List String) (now : String) : ClusterStatus :=
  { autoscaledSets := sets, lastTransitionTime := some now }

/-- A status that is patched to report sets, whatever it was before. -/
theorem option?_merge {current : Json} {status : Option ClusterStatus}
    (reads : Json.option? ofJson? current = some status) (sets : List String) (now : String) :
    Json.option? ofJson? (current.merge
      (.obj [("autoscaledSets", .arr (sets.map .str)), ("lastTransitionTime", .str now)])) =
      some (some (reporting sets now)) := by
  let names := ["autoscaledSets", "lastTransitionTime"]
  let listed : Json := .arr (sets.map .str)
  have distinct : ((Record.known names current).map Prod.fst).Nodup := by
    refine Record.known_distinct ((Json.option?_cases reads).imp_right ?_)
    rintro ⟨status, shown⟩
    obtain ⟨record, recorded, -⟩ := Option.bind_eq_some_iff.mp shown
    exact ⟨record, recorded⟩
  let patched := Json.put "lastTransitionTime" (.str now)
    (Json.put "autoscaledSets" listed (Record.known names current))
  have merged : current.merge (.obj [("autoscaledSets", listed), ("lastTransitionTime", .str now)]) =
      .obj (Json.put "lastTransitionTime" (.str now)
        (Json.put "autoscaledSets" listed current.membersOf)) := by
    rw [Json.merge_obj]
    simp only [Json.mergeMembers, Json.merge, listed]
  have record : Record.ofJson? names (.obj (Json.put "lastTransitionTime" (.str now)
      (Json.put "autoscaledSets" listed current.membersOf))) = some patched := by
    rw [Record.ofJson?, Json.filter_put (by decide), Json.filter_put (by decide)]
    exact if_pos (Json.nodup_put (Json.nodup_put distinct))
  have sets_given : patched.lookup "autoscaledSets" = some listed := by
    rw [Json.lookup_put, if_neg (by decide), Json.lookup_put, if_pos rfl]
  have time_given : patched.lookup "lastTransitionTime" = some (.str now) := by
    rw [Json.lookup_put, if_pos rfl]
  have read : ofJson? (.obj (Json.put "lastTransitionTime" (.str now)
      (Json.put "autoscaledSets" listed current.membersOf))) = some (reporting sets now) := by
    rw [ofJson?, record, Option.bind_eq_bind, Option.bind_some, Record.optional, sets_given, Record.optional,
      time_given]
    dsimp only [listed]
    rw [Json.list?_str]
    rfl
  rw [merged]
  exact congrArg (Option.map some) read

end ClusterStatus

/-- A version of a cluster with the same spec, whose status lists given sets. -/
structure Cluster.Repeats (again cluster : Cluster) (sets : List String) : Prop where
  ref : again.ref = cluster.ref
  spec : again.spec = cluster.spec
  staying : again.isLeaving = false
  lists : again.status.map ClusterStatus.autoscaledSets = some sets

namespace Cluster

variable {cluster : Cluster} {members : List (String × Json)}

/-- A cluster whose status reports sets. -/
def reporting (cluster : Cluster) (sets : List String) (now : String) : Cluster :=
  { cluster with status := some (.reporting sets now) }

theorem maybe?_eq_option? (distinct : (members.map Prod.fst).Nodup) {α : Type} (read : Json → Option α)
    (name : String) :
    (Json.obj members).maybe? name read = Json.option? read (Json.valueOf name members) := by
  rw [Json.maybe?, Json.member?_eq_lookup distinct, Json.valueOf]
  cases members.lookup name <;> rfl

theorem ofJson?_report (distinct : (members.map Prod.fst).Nodup)
    (reads : ofJson? (.obj members) = some cluster) (report : Report) (now : String) :
    ofJson? ((Json.obj members).merge (report.patch now)) = some (cluster.reporting report.sets now) := by
  unfold ofJson? at reads
  rw [maybe?_eq_option? distinct, Json.member?_eq_lookup distinct, Json.member?_eq_lookup distinct] at reads
  obtain ⟨_, -, rest⟩ := Option.bind_eq_some_iff.mp reads
  obtain ⟨metadata, described, rest⟩ := Option.bind_eq_some_iff.mp rest
  obtain ⟨spec, specified, rest⟩ := Option.bind_eq_some_iff.mp rest
  obtain ⟨status, reported, given⟩ := Option.bind_eq_some_iff.mp rest
  cases given
  have again := ClusterStatus.option?_merge reported report.sets now
  rw [Report.patch, Json.merge_member]
  generalize (Json.valueOf "status" members).merge _ = patched at again ⊢
  have still : ((Json.put "status" patched members).map Prod.fst).Nodup := Json.nodup_put distinct
  have metadata_kept : (Json.put "status" patched members).lookup "metadata" = members.lookup "metadata" := by
    rw [Json.lookup_put, if_neg (by decide)]
  have spec_kept : (Json.put "status" patched members).lookup "spec" = members.lookup "spec" := by
    rw [Json.lookup_put, if_neg (by decide)]
  have placed : Json.valueOf "status" (Json.put "status" patched members) = patched := by
    rw [Json.valueOf, Json.lookup_put, if_pos rfl, Option.getD_some]
  rw [ofJson?, maybe?_eq_option? still, Json.member?_eq_lookup still, Json.member?_eq_lookup still, placed,
    metadata_kept, spec_kept, again, described, specified]
  rfl

section Repeats

variable {cluster again : Cluster} {sets : List String}

theorem needsReport_eq_false_iff :
    cluster.needsReport sets = false ↔ cluster.status.map ClusterStatus.autoscaledSets = some sets := by
  cases held : cluster.status <;> simp [needsReport, held]

theorem Repeats.autoscalerSpecs (repeats : again.Repeats cluster sets) :
    again.autoscalerSpecs = cluster.autoscalerSpecs := by
  obtain ⟨space, name⟩ : again.space = cluster.space ∧ again.displayName = cluster.displayName := by
    simpa [Cluster.ref] using repeats.ref
  simp only [Cluster.autoscalerSpecs, space, name, repeats.spec]

theorem Repeats.scales_iff (repeats : again.Repeats cluster sets) {key : SetKey} {its : AutoscalerSpec} :
    again.Scales key its ↔ cluster.Scales key its := by
  rw [← mem_autoscalerSpecs_iff, repeats.autoscalerSpecs, mem_autoscalerSpecs_iff]

theorem Repeats.wellRead (repeats : again.Repeats cluster sets) (read : cluster.WellRead) : again.WellRead :=
  ⟨repeats.spec ▸ read.ordered, fun key its scales => read.numbers key its (repeats.scales_iff.mp scales)⟩

theorem reporting_repeats (staying : cluster.isLeaving = false) (sets : List String) (now : String) :
    (cluster.reporting sets now).Repeats cluster sets :=
  ⟨rfl, rfl, staying, rfl⟩

end Repeats

end Cluster
end SetScaler
