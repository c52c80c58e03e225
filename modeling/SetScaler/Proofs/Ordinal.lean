import SetScaler.Ordinal

/-!
# The order of members

Names of members are in a total order (`MemberName.compare`), so that sorting them has one outcome in
whatever order they were listed. The members of one set come in the order of their ordinals, however
many digits those have (`sortByOrdinal_members`).
-/

namespace SetScaler

theorem Decimal.digitsValue_append (digits : List Char) (digit : Char) :
    digitsValue (digits ++ [digit]) = digitsValue digits * 10 + (digit.toNat - '0'.toNat) := by
  rw [digitsValue, List.foldl_append]
  rfl

theorem Decimal.digitsValue_toDigits (value : Nat) : digitsValue (Nat.toDigits 10 value) = value := by
  induction value using Nat.strongRecOn with
  | ind value ih =>
      have digit : ∀ d < 10, (Nat.digitChar d).toNat - '0'.toNat = d := by decide
      by_cases small : value < 10
      · rw [Nat.toDigits_of_lt_base small]
        have whole := digitsValue_append [] (Nat.digitChar value)
        rw [List.nil_append, digit value small] at whole
        rw [whole]
        simp [digitsValue]
      · have front := ih (value / 10) (by omega)
        rw [Nat.toDigits_of_base_le (by omega) (by omega), digitsValue_append, front,
          digit (value % 10) (by omega)]
        omega

namespace MemberName

theorem compareOptions_eq {α : Type} [Ord α] (a b : Option α) :
    compareOptions Ord.compare a b = Ord.compare a b := by
  cases a <;> cases b <;> rfl

theorem Key.compare_eq :
    Key.compare =
      compareLex (compareLex (compareOn Key.stem) (compareOn Key.ordinal)) (compareOn Key.name) := by
  funext a b
  simp only [Key.compare, compareOptions_eq]
  rfl

instance : Std.TransCmp Key.compare := by
  rw [Key.compare_eq]
  infer_instance

instance : Std.TransCmp compare where
  eq_swap := by
    intro a b
    exact @Std.OrientedCmp.eq_swap _ Key.compare _ (.ofName a) (.ofName b)
  isLE_trans := by
    intro a b c first second
    exact @Std.TransCmp.isLE_trans _ Key.compare _ (.ofName a) (.ofName b) (.ofName c) first second

instance : Std.LawfulEqCmp compare where
  compare_self := by
    intro a
    exact @Std.ReflCmp.compare_self _ Key.compare _ (.ofName a)
  eq_of_compare := by
    intro a b same
    rw [compare, Key.compare_eq, compareLex, Ordering.then_eq_eq] at same
    exact Std.LawfulEqOrd.eq_of_compare same.2

/-- Whether a name comes before another or is the same. -/
def le (a b : String) : Bool := (compare a b).isLE

theorem le_trans (a b c : String) (first : le a b = true) (second : le b c = true) : le a c = true :=
  Std.TransCmp.isLE_trans first second

theorem le_antisymm {a b : String} (first : le a b = true) (second : le b a = true) : a = b :=
  Std.LawfulEqCmp.eq_of_compare (Std.OrientedCmp.isLE_antisymm first second)

theorem le_total (a b : String) : (le a b || le b a) = true := by
  have swapped : compare a b = (compare b a).swap := Std.OrientedCmp.eq_swap
  rw [le, le, swapped]
  cases compare b a <;> rfl

theorem not_le_of_lt {a b : String} (before : compare a b = .lt) : le b a = false := by
  have swapped : compare b a = (compare a b).swap := Std.OrientedCmp.eq_swap
  rw [le, swapped, before]
  rfl

end MemberName

section Sorting

variable {α : Type} (name : α → String) (items : List α)

theorem sortByOrdinal_perm : (sortByOrdinal name items).Perm items := List.mergeSort_perm items _

theorem sortByOrdinal_pairwise :
    (sortByOrdinal name items).Pairwise fun a b => MemberName.le (name a) (name b) = true :=
  List.pairwise_mergeSort (fun a b c => MemberName.le_trans (name a) (name b) (name c))
    (fun a b => MemberName.le_total (name a) (name b)) items

theorem map_sortByOrdinal : (sortByOrdinal name items).map name = sortByOrdinal id (items.map name) :=
  List.map_mergeSort fun _ _ _ _ => rfl

/-- The order in which names were listed makes no difference. -/
theorem sortByOrdinal_eq {names sorted : List String} (same : names.Perm sorted)
    (ordered : sorted.Pairwise fun a b => MemberName.le a b = true) : sortByOrdinal id names = sorted :=
  ((sortByOrdinal_perm id names).trans same).eq_of_pairwise
    (fun _ _ _ _ first second => MemberName.le_antisymm first second) (sortByOrdinal_pairwise id names)
    ordered

end Sorting

/-- The name of a member of a stateful set. -/
def member (set : String) (ordinal : Nat) : String := set ++ "-" ++ toString ordinal

theorem splitLast_member (set : String) (ordinal : Nat) :
    Text.splitLast '-' (member set ordinal).toList = some (set.toList, Nat.toDigits 10 ordinal) := by
  have clean : '-' ∉ Nat.toDigits 10 ordinal := by
    intro mem
    have digit := Nat.isDigit_of_mem_toDigits (by omega) (by omega) mem
    revert digit
    decide
  have letters : (member set ordinal).toList = set.toList ++ '-' :: Nat.toDigits 10 ordinal := by
    simp [member]
  rw [letters]
  exact Text.splitLast_append clean

theorem ordinalValue_toDigits {ordinal : Nat} (small : ordinal < UInt32.size) :
    ordinalValue? (Nat.toDigits 10 ordinal) = some ordinal := by
  have digits : ∀ c ∈ Nat.toDigits 10 ordinal, c.isDigit = true := fun c mem =>
    Nat.isDigit_of_mem_toDigits (by omega) (by omega) mem
  have unsigned : ∀ rest, Nat.toDigits 10 ordinal ≠ '+' :: rest := by
    intro rest same
    have plus := digits '+' (same ▸ List.mem_cons_self)
    revert plus
    decide
  unfold ordinalValue?
  split
  · exact absurd ‹_› (unsigned _)
  · have some_digit : (Nat.toDigits 10 ordinal).isEmpty = false := by
      simp [Nat.toDigits_ne_nil]
    simp [some_digit, List.all_eq_true.mpr digits, Decimal.digitsValue_toDigits, small]

theorem ordinal_member (set : String) {ordinal : Nat} (small : ordinal < UInt32.size) :
    ordinal? (member set ordinal) = some ordinal := by
  rw [ordinal?, splitLast_member]
  exact ordinalValue_toDigits small

theorem compare_member (set : String) {i j : Nat} (small : i < UInt32.size) (little : j < UInt32.size)
    (lower : i < j) : MemberName.compare (member set i) (member set j) = .lt := by
  have before : Ord.compare (some i) (some j) = .lt := Nat.compare_eq_lt.mpr lower
  simp only [MemberName.compare, MemberName.Key.compare_eq, compareLex, compareOn,
    MemberName.Key.ofName, splitLast_member, ordinal_member set small, ordinal_member set little]
  simp [before]

theorem member_injective (set : String) {i j : Nat} (small : i < UInt32.size)
    (little : j < UInt32.size) (same : member set i = member set j) : i = j := by
  have ordinals := ordinal_member set small
  rw [same, ordinal_member set little] at ordinals
  exact (Option.some.inj ordinals).symm

/-- The members of a stateful set with so many replicas. -/
def members (set : String) (count : Nat) : List String := (List.range count).map (member set)

theorem members_pairwise (set : String) {count : Nat} (small : count ≤ UInt32.size) :
    (members set count).Pairwise fun a b => MemberName.le a b = true := by
  refine List.pairwise_map.mpr (List.pairwise_lt_range.imp_of_mem fun first second lower => ?_)
  have below := List.mem_range.mp first
  have within := List.mem_range.mp second
  have before := compare_member set (by omega) (by omega) lower
  rw [MemberName.le, before]
  rfl

@[simp]
theorem length_members (set : String) (count : Nat) : (members set count).length = count := by
  simp [members]

theorem members_nodup (set : String) {count : Nat} (small : count ≤ UInt32.size) :
    (members set count).Nodup := by
  refine List.pairwise_map.mpr (List.nodup_range.imp_of_mem fun first second distinct same => ?_)
  have below := List.mem_range.mp first
  have within := List.mem_range.mp second
  exact distinct (member_injective set (by omega) (by omega) same)

/-- The last members of a set are those of the highest ordinals. -/
theorem mem_drop_members {set name : String} {count dropped : Nat} :
    name ∈ (members set count).drop dropped ↔
      ∃ ordinal, dropped ≤ ordinal ∧ ordinal < count ∧ name = member set ordinal := by
  rw [members, ← List.map_drop, List.range_eq_range', List.drop_range', List.mem_map]
  constructor
  · rintro ⟨ordinal, listed, rfl⟩
    have bounds := List.mem_range'_1.mp listed
    exact ⟨ordinal, by omega, by omega, rfl⟩
  · rintro ⟨ordinal, low, high, rfl⟩
    exact ⟨ordinal, List.mem_range'_1.mpr (by omega), rfl⟩

/-- However the members of a set are listed, sorting puts them in the order of their ordinals. -/
theorem sortByOrdinal_members (set : String) {count : Nat} (small : count ≤ UInt32.size)
    {names : List String} (listed : names.Perm (members set count)) :
    sortByOrdinal id names = members set count :=
  sortByOrdinal_eq listed (members_pairwise set small)

end SetScaler
