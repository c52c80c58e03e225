import Mathlib.Data.List.Perm.Basic
import SetScaler.SetKey

/-!
# The order of keys

Keys are in a total order, so that there is one list of given keys in ascending order (`Ascending.ext`), and
sorting keys that are distinct gives it (`sortKeys_ascending`).
-/

namespace SetScaler

namespace SetKey

theorem compare_eq :
    compare = compareLex (compareLex (compareLex (compareOn SetKey.ns) (compareOn SetKey.cluster))
      (compareOn fun key => key.component.rank)) (compareOn SetKey.set) :=
  rfl

theorem rank_injective {one other : Component} (same : one.rank = other.rank) : one = other := by
  cases one <;> cases other <;> first | rfl | cases same

instance : Std.TransCmp compare := by
  rw [compare_eq]
  infer_instance

instance : Std.LawfulEqCmp compare where
  compare_self {key} := by simp [compare]
  eq_of_compare {one other} same := by
    simp only [compare, Ordering.then_eq_eq, Std.LawfulEqOrd.compare_eq_iff_eq] at same
    obtain ⟨⟨⟨ns, cluster⟩, component⟩, set⟩ := same
    cases one
    cases other
    rw [SetKey.mk.injEq]
    exact ⟨ns, cluster, rank_injective component, set⟩

theorem compare_self (key : SetKey) : key.compare key = .eq := Std.ReflCmp.compare_self

theorem compare_swap (one other : SetKey) : one.compare other = (other.compare one).swap :=
  Std.OrientedCmp.eq_swap

end SetKey

/-- Keys in ascending order, none of them twice. -/
def Ascending (keys : List SetKey) : Prop := keys.Pairwise fun one other => one.compare other = .lt

namespace Ascending

variable {keys others : List SetKey}

theorem nodup (ascending : Ascending keys) : keys.Nodup := by
  refine ascending.imp fun less same => ?_
  rw [same, SetKey.compare_self] at less
  cases less

theorem filter (ascending : Ascending keys) (keep : SetKey → Bool) : Ascending (keys.filter keep) :=
  List.Pairwise.filter keep ascending

/-- Which keys there are decides their list. -/
theorem ext (ascending : Ascending keys) (also : Ascending others) (same : ∀ key, key ∈ keys ↔ key ∈ others) :
    keys = others := by
  have listed : keys.Perm others := (List.perm_ext_iff_of_nodup ascending.nodup also.nodup).mpr same
  refine listed.eq_of_pairwise (fun one other _ _ less more => ?_) ascending also
  rw [SetKey.compare_swap, more] at less
  cases less

end Ascending

theorem sortKeys_perm (keys : List SetKey) : (sortKeys keys).Perm keys := List.mergeSort_perm keys _

theorem sortKeys_ascending {keys : List SetKey} (distinct : keys.Nodup) : Ascending (sortKeys keys) := by
  have sorted : (sortKeys keys).Pairwise fun one other => (one.compare other).isLE = true := by
    refine List.pairwise_mergeSort (fun one other third => Std.TransCmp.isLE_trans) (fun one other => ?_) keys
    rw [other.compare_swap]
    cases one.compare other <;> rfl
  have apart : (sortKeys keys).Nodup := (sortKeys_perm keys).nodup_iff.mpr distinct
  refine (sorted.and apart).imp fun {one other} ⟨less, differ⟩ => ?_
  cases compared : one.compare other with
  | lt => rfl
  | eq => exact absurd (Std.LawfulEqCmp.eq_of_compare compared) differ
  | gt =>
      rw [compared] at less
      cases less

end SetScaler
