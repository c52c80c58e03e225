import SetScaler.Json.MergePatch

/-!
# What a merge patch leaves of an object

A patch of one member puts that member in its place and leaves the others where they are, as long as no
key of the object is given twice.
-/

namespace SetScaler.Json

@[simp]
theorem merge_int (target : Json) (value : Int) : target.merge (.int value) = .int value := by
  simp only [merge]

@[simp]
theorem merge_obj (target : Json) (patch : List (String × Json)) :
    target.merge (.obj patch) = .obj (mergeMembers (membersOf target) patch) := by
  simp only [merge]

theorem mergeMembers_one (members : List (String × Json)) (key : String) {change : Json}
    (present : change ≠ .null) :
    mergeMembers members [(key, change)] = put key (merge (valueOf key members) change) members := by
  cases change with
  | null => exact absurd rfl present
  | bool | int | float | str | arr | obj | unreadable => simp only [mergeMembers]

/-- A patch of one member that is an object itself. -/
theorem merge_member (members : List (String × Json)) (key : String) (patch : List (String × Json)) :
    (obj members).merge (.obj [(key, .obj patch)]) =
      .obj (put key (merge (valueOf key members) (.obj patch)) members) := by
  rw [merge_obj, membersOf, mergeMembers_one members key fun absent => by cases absent]

theorem lookup_cons_ite {α : Type} (key name : String) (value : α) (rest : List (String × α)) :
    ((key, value) :: rest).lookup name = if name = key then some value else rest.lookup name := by
  by_cases same : name = key
  · rw [if_pos same, same, List.lookup_cons_self]
  · rw [if_neg same, List.lookup_cons, beq_false_of_ne same]

theorem mem_names_iff {α : Type} {name : String} {entries : List (String × α)} :
    name ∈ entries.map Prod.fst ↔ ∃ value, entries.lookup name = some value := by
  constructor
  · intro listed
    cases found : entries.lookup name with
    | some value => exact ⟨value, rfl⟩
    | none =>
        obtain ⟨entry, mem, rfl⟩ := List.mem_map.mp listed
        have absent := List.lookup_eq_none_iff.mp found entry mem
        simp at absent
  · rintro ⟨value, found⟩
    obtain ⟨before, after, rfl, -⟩ := List.lookup_eq_some_iff.mp found
    simp

section Put

variable {key : String} {value : Json} {members : List (String × Json)}

theorem lookup_put (name : String) :
    (put key value members).lookup name = if name = key then some value else members.lookup name := by
  induction members with
  | nil => exact lookup_cons_ite key name value []
  | cons member rest ih =>
      obtain ⟨first, held⟩ := member
      by_cases here : first = key
      · subst here
        rw [put, if_pos rfl, lookup_cons_ite, lookup_cons_ite]
        by_cases same : name = first
        · rw [if_pos same, if_pos same]
        · rw [if_neg same, if_neg same, if_neg same]
      · rw [put, if_neg here, lookup_cons_ite, lookup_cons_ite, ih]
        by_cases same : name = first
        · have other : name ≠ key := fun equal => here (same ▸ equal)
          rw [if_pos same, if_neg other, if_pos same]
        · rw [if_neg same, if_neg same]

theorem names_put (listed : key ∈ members.map Prod.fst) :
    (put key value members).map Prod.fst = members.map Prod.fst := by
  induction members with
  | nil => cases listed
  | cons member rest ih =>
      by_cases here : member.1 = key
      · simp [put, here]
      · have later : key ∈ rest.map Prod.fst :=
          (List.mem_cons.mp listed).resolve_left fun same => here same.symm
        simp [put, here, ih later]

theorem mem_put {member : String × Json} (mem : member ∈ put key value members) :
    member = (key, value) ∨ member ∈ members := by
  induction members with
  | nil => exact .inl (List.mem_singleton.mp mem)
  | cons first rest ih =>
      rw [put] at mem
      split at mem
      · exact (List.mem_cons.mp mem).imp_right (List.mem_cons_of_mem _)
      · rcases List.mem_cons.mp mem with rfl | mem
        · exact .inr List.mem_cons_self
        · exact (ih mem).imp_right (List.mem_cons_of_mem _)

theorem nodup_put (distinct : (members.map Prod.fst).Nodup) :
    ((put key value members).map Prod.fst).Nodup := by
  induction members with
  | nil => simp [put]
  | cons first rest ih =>
      obtain ⟨absent, others⟩ := List.nodup_cons.mp distinct
      rw [put]
      split
      · next here => exact List.nodup_cons.mpr ⟨here ▸ absent, others⟩
      · next apart =>
        refine List.nodup_cons.mpr ⟨fun listed => ?_, ih others⟩
        obtain ⟨member, mem, same⟩ := List.mem_map.mp listed
        rcases mem_put mem with rfl | mem
        · exact apart same.symm
        · exact absent (List.mem_map.mpr ⟨member, mem, same⟩)

/-- Members are picked by their names before or after one of them is put. -/
theorem filter_put {keep : String → Bool} (kept : keep key = true) :
    (put key value members).filter (fun member => keep member.1) =
      put key value (members.filter fun member => keep member.1) := by
  induction members with
  | nil => simp [put, kept]
  | cons first rest ih =>
      by_cases here : first.1 = key
      · simp [put, here, kept]
      · by_cases held : keep first.1 = true <;> simp [put, here, held, ih]

end Put

section Named

variable {α : Type}

theorem lookup_mapped {β : Type} (change : String → α → β) (entries : List (String × α))
    (name : String) : (entries.map fun entry => (entry.1, change entry.1 entry.2)).lookup name =
      (entries.lookup name).map (change name) := by
  induction entries with
  | nil => rfl
  | cons entry rest ih =>
      rw [List.map_cons, lookup_cons_ite, lookup_cons_ite, ih]
      by_cases same : name = entry.1
      · simp [same]
      · simp [same]

/-- Putting another value under the name of one of several that are written out. -/
theorem put_written (write change : α → Json) {key : String} {entries : List (String × α)} {value : α}
    (distinct : (entries.map Prod.fst).Nodup) (found : entries.lookup key = some value) :
    put key (change value) (entries.map fun entry => (entry.1, write entry.2)) =
      entries.map fun entry => (entry.1, if entry.1 = key then change entry.2 else write entry.2) := by
  induction entries with
  | nil => cases found
  | cons entry rest ih =>
      obtain ⟨name, held⟩ := entry
      obtain ⟨absent, others⟩ := List.nodup_cons.mp distinct
      rw [lookup_cons_ite] at found
      by_cases here : key = name
      · rw [if_pos here] at found
        cases found
        have apart : ∀ other ∈ rest, other.1 ≠ key := fun other mem same =>
          absent (List.mem_map.mpr ⟨other, mem, same.trans here⟩)
        have kept : (rest.map fun entry => (entry.1, write entry.2)) = rest.map fun entry =>
            (entry.1, if entry.1 = key then change entry.2 else write entry.2) :=
          List.map_congr_left fun other mem => by rw [if_neg (apart other mem)]
        rw [List.map_cons, List.map_cons, put, if_pos here.symm, kept, if_pos here.symm, here]
      · rw [if_neg here] at found
        rw [List.map_cons, List.map_cons, put, if_neg (Ne.symm here), ih others found,
          if_neg (Ne.symm here)]

/-- A patch of one of several values that are written out, each under its name. -/
theorem merge_written (write change : α → Json) {key : String} {entries : List (String × α)} {value : α}
    {patch : List (String × Json)} (distinct : (entries.map Prod.fst).Nodup)
    (found : entries.lookup key = some value) (changed : (write value).merge (.obj patch) = change value) :
    (obj (entries.map fun entry => (entry.1, write entry.2))).merge (.obj [(key, .obj patch)]) =
      .obj (entries.map fun entry =>
        (entry.1, if entry.1 = key then change entry.2 else write entry.2)) := by
  have written : (entries.map fun entry => (entry.1, write entry.2)).lookup key = some (write value) := by
    rw [lookup_mapped (fun _ => write), found, Option.map_some]
  rw [merge_member, valueOf, written, Option.getD_some, changed, put_written write change distinct found]

end Named

/-- Without a key given twice, the last value of a key is the first one. -/
theorem member?_eq_lookup {members : List (String × Json)} (distinct : (members.map Prod.fst).Nodup)
    (name : String) : (obj members).member? name = members.lookup name := by
  induction members with
  | nil => rfl
  | cons member rest ih =>
      obtain ⟨key, value⟩ := member
      obtain ⟨absent, others⟩ := List.nodup_cons.mp distinct
      have later := ih others
      rw [member?] at later ⊢
      rw [List.reverse_cons, List.find?_append, lookup_cons_ite]
      by_cases same : name = key
      · subst same
        have missing : rest.lookup name = none := by
          cases found : rest.lookup name with
          | none => rfl
          | some value => exact absurd (mem_names_iff.mpr ⟨value, found⟩) absent
        rw [missing, Option.map_eq_none_iff] at later
        simp [later]
      · have skipped : [(key, value)].find? (fun member => member.1 == name) = none := by
          simp [Ne.symm same]
        rw [skipped, Option.or_none, later, if_neg same]

end SetScaler.Json
