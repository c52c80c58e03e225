import Mathlib.Data.List.Nodup
import SetScaler.Proofs.Ordinal

/-!
# Sorting members

Sorting by names keeps the items whose names are the same in their order (`sortByOrdinal_stable`). Items with
distinct names have one order, however they were listed (`sortByOrdinal_perm_eq`), and of two members of one
set the one with the lower ordinal comes first in it (`sortByOrdinal_before`).
-/

namespace SetScaler

namespace MemberName

theorem compare_eq_iff {a b : String} : compare a b = .eq ↔ a = b :=
  ⟨Std.LawfulEqCmp.eq_of_compare, fun same => same ▸ Std.ReflCmp.compare_self⟩

theorem le_self (name : String) : le name name = true := by
  rw [le, compare_eq_iff.mpr rfl]
  rfl

theorem compare_member_iff (stem : String) {n m : Nat} (small : n < UInt32.size) (little : m < UInt32.size) :
    compare (member stem n) (member stem m) = .lt ↔ n < m := by
  refine ⟨fun before => ?_, compare_member stem small little⟩
  rcases Nat.lt_trichotomy n m with lower | rfl | higher
  · exact lower
  · rw [compare_eq_iff.mpr rfl] at before
    cases before
  · have after : compare (member stem n) (member stem m) = (compare (member stem m) (member stem n)).swap :=
      Std.OrientedCmp.eq_swap
    rw [compare_member stem little small higher, before] at after
    cases after

end MemberName

section Sorting

variable {α : Type} {name : α → String} {items others : List α}

theorem sortByOrdinal_perm_eq (same : items.Perm others) (distinct : (items.map name).Nodup) :
    sortByOrdinal name items = sortByOrdinal name others := by
  have listed := sortByOrdinal_perm name items
  have listed' := (sortByOrdinal_perm name others).trans same.symm
  refine (listed.trans listed'.symm).eq_of_pairwise (fun a b here there first second => ?_)
    (sortByOrdinal_pairwise name items) (sortByOrdinal_pairwise name others)
  exact List.inj_on_of_nodup_map distinct (listed.mem_iff.mp here) (listed'.mem_iff.mp there)
    (MemberName.le_antisymm first second)

theorem sortByOrdinal_stable (name : α → String) (items : List α) (text : String) :
    (sortByOrdinal name items).filter (fun item => name item == text) =
      items.filter fun item => name item == text := by
  have named : ∀ item ∈ items.filter (fun item => name item == text), name item = text := fun item mem => by
    simpa using (List.mem_filter.mp mem).2
  have level : (items.filter fun item => name item == text).Pairwise fun a b =>
      MemberName.le (name a) (name b) = true := by
    refine List.pairwise_of_forall_mem_list fun a here b there => ?_
    rw [named a here, named b there]
    exact MemberName.le_self text
  have kept : (items.filter fun item => name item == text).Sublist (sortByOrdinal name items) :=
    List.sublist_mergeSort (fun a b c => MemberName.le_trans (name a) (name b) (name c))
      (fun a b => MemberName.le_total (name a) (name b)) level List.filter_sublist
  have within := kept.filter fun item => name item == text
  rw [List.filter_filter] at within
  simp only [Bool.and_self] at within
  exact (within.eq_of_length ((sortByOrdinal_perm name items).filter _).length_eq.symm).symm

theorem sortByOrdinal_before {stem : String} {n m : Nat} (small : n < UInt32.size) (little : m < UInt32.size)
    (lower : n < m) {a b : α} (here : a ∈ items) (there : b ∈ items) (first : name a = member stem n)
    (second : name b = member stem m) : [a, b].Sublist (sortByOrdinal name items) := by
  have before := MemberName.not_le_of_lt (compare_member stem small little lower)
  rw [← first, ← second] at before
  have sorted := sortByOrdinal_pairwise name items
  obtain ⟨front, back, cut⟩ := List.append_of_mem ((sortByOrdinal_perm name items).mem_iff.mpr here)
  have found := (sortByOrdinal_perm name items).mem_iff.mpr there
  rw [cut] at sorted found ⊢
  -- nothing in front of `a` is after it, and `b` is
  rcases List.mem_append.mp found with ahead | behind
  · have level := (List.pairwise_append.mp sorted).2.2 b ahead a List.mem_cons_self
    rw [before] at level
    cases level
  · rcases List.mem_cons.mp behind with rfl | behind
    · rw [MemberName.le_self] at before
      cases before
    · exact ((List.singleton_sublist.mpr behind).cons_cons a).trans (List.sublist_append_right front _)

end Sorting

/-- Names are in a total order in which only equal names are level. So a list has one sorted form, which keeps
the order of items with one name, and which has the members of a set in the order of their ordinals. -/
theorem sorting_canonical :
    (∀ a b c : String,
      (MemberName.compare a b = .eq ↔ a = b) ∧
      MemberName.compare b a = (MemberName.compare a b).swap ∧
      ((MemberName.compare a b).isLE = true → (MemberName.compare b c).isLE = true →
        (MemberName.compare a c).isLE = true)) ∧
    (∀ (α : Type) (name : α → String) (items : List α),
      (sortByOrdinal name items).Perm items ∧
      ((sortByOrdinal name items).Pairwise fun a b => (MemberName.compare (name a) (name b)).isLE = true) ∧
      (∀ text, (sortByOrdinal name items).filter (fun item => name item == text) =
        items.filter fun item => name item == text) ∧
      ((items.map name).Nodup → ∀ others, items.Perm others →
        sortByOrdinal name items = sortByOrdinal name others)) ∧
    ∀ (stem : String) (n m : Nat), n < UInt32.size → m < UInt32.size →
      ordinal? (member stem n) = some n ∧
      (MemberName.compare (member stem n) (member stem m) = .lt ↔ n < m) ∧
      (n < m → ∀ (α : Type) (name : α → String) (items : List α), ∀ a ∈ items, ∀ b ∈ items,
        name a = member stem n → name b = member stem m → [a, b].Sublist (sortByOrdinal name items)) := by
  refine ⟨fun a b c => ⟨MemberName.compare_eq_iff, Std.OrientedCmp.eq_swap, MemberName.le_trans a b c⟩, ?_, ?_⟩
  · intro α name items
    exact ⟨sortByOrdinal_perm name items, sortByOrdinal_pairwise name items, sortByOrdinal_stable name items,
      fun distinct others same => sortByOrdinal_perm_eq same distinct⟩
  · intro stem n m small little
    exact ⟨ordinal_member stem small, MemberName.compare_member_iff stem small little,
      fun lower α name items a here b there => sortByOrdinal_before small little lower here there⟩

/-- Names of which one is no member's name, and sets whose own names end like a member's. -/
theorem sorting_canonical_nested :
    let names := ["bk-7-10", "bk", "bk-7-9", "bk-7"]
    sortByOrdinal id names = sortByOrdinal id names.reverse ∧
      ["bk-7-9", "bk-7-10"].Sublist (sortByOrdinal id names) ∧
      ordinal? (member "bk-7" 4294967295) = some 4294967295 ∧
      (MemberName.compare (member "bk-7" 10) (member "bk-7" 9) = .lt ↔ 10 < 9) := by
  intro names
  obtain ⟨-, sorted, members⟩ := sorting_canonical
  refine ⟨(sorted String id names).2.2.2 (by decide) _ names.reverse_perm.symm, ?_, ?_, ?_⟩
  · exact (members "bk-7" 9 10 (by decide) (by decide)).2.2 (by decide) String id names _ (by decide) _ (by decide)
      rfl rfl
  · exact (members "bk-7" 4294967295 0 (by decide) (by decide)).1
  · exact (members "bk-7" 10 9 (by decide) (by decide)).2.1

end SetScaler
