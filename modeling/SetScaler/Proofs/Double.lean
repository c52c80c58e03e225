import Mathlib.Data.Prod.Lex
import Mathlib.Order.Compare

/-!
# The order of doubles

Doubles that are numbers compare as their ranks do (`compareOf_rank`), and ranks are in a linear order. The
two zeros have one rank.
-/

namespace SetScaler.Double

open Float.Model

/-- What a number is ordered by: its kind and sign, then its exponent, then its significand. -/
def rankOf : UnpackedFloat → Int ×ₗ Int ×ₗ Int
  | .infinity .negative => toLex (-2, toLex (0, 0))
  | .finite .negative significand exponent _ => toLex (-1, toLex (-exponent, -significand))
  | .notANumber | .zero _ => toLex (0, toLex (0, 0))
  | .finite .positive significand exponent _ => toLex (1, toLex (exponent, significand))
  | .infinity .positive => toLex (2, toLex (0, 0))

def rank (x : Float) : Int ×ₗ Int ×ₗ Int := rankOf x.toModel.unpack

theorem compare_natCast (m n : Nat) : compare (m : Int) n = compare m n := by
  cases order : compare m n with
  | lt => exact compare_lt_iff_lt.mpr (by exact_mod_cast compare_lt_iff_lt.mp order)
  | eq => exact compare_eq_iff_eq.mpr (by exact_mod_cast compare_eq_iff_eq.mp order)
  | gt => exact compare_gt_iff_gt.mpr (by exact_mod_cast compare_gt_iff_gt.mp order)

theorem compare_neg (m n : Int) : compare (-m) (-n) = (compare m n).swap := by
  have swapped : (compare m n).swap = compare n m := Std.OrientedOrd.eq_swap.symm
  rw [swapped]
  cases order : compare n m with
  | lt => exact compare_lt_iff_lt.mpr (Int.neg_lt_neg (compare_lt_iff_lt.mp order))
  | eq => exact compare_eq_iff_eq.mpr (congrArg _ (compare_eq_iff_eq.mp order).symm)
  | gt => exact compare_gt_iff_gt.mpr (Int.neg_lt_neg (compare_gt_iff_gt.mp order))

theorem compareOf_rank {x y : UnpackedFloat} (number : x.isNaN = false) (other : y.isNaN = false) :
    x.compare y = some (compare (rankOf x) (rankOf y)) := by
  cases x with
  | notANumber => cases number
  | infinity sign =>
      cases y with
      | notANumber => cases other
      | zero => cases sign <;> rfl
      | infinity its | finite its => cases sign <;> cases its <;> rfl
  | zero =>
      cases y with
      | notANumber => cases other
      | zero => rfl
      | infinity its | finite its => cases its <;> rfl
  | finite sign m e =>
      cases y with
      | notANumber => cases other
      | zero => cases sign <;> rfl
      | infinity its => cases sign <;> cases its <;> rfl
      | finite its n f =>
          cases sign with
          | positive =>
              cases its with
              | negative => rfl
              | positive =>
                  change _ = some ((compare e f).then (compare (m : Int) n))
                  rw [compare_natCast]
                  rfl
          | negative =>
              cases its with
              | positive => rfl
              | negative =>
                  change _ = some ((compare (-e) (-f)).then (compare (-(m : Int)) (-(n : Int))))
                  rw [compare_neg, compare_neg, compare_natCast, ← Ordering.swap_then]
                  rfl

section Numbers

variable {x y z : Float}

theorem lt_iff (number : x.isNaN = false) (other : y.isNaN = false) : x < y ↔ rank x < rank y := by
  change decide ((x.toModel.unpack.compare y.toModel.unpack == some .lt) = true) = true ↔ _
  rw [compareOf_rank number other, decide_eq_true_eq, beq_iff_eq, Option.some_inj]
  exact compare_lt_iff_lt

theorem le_iff (number : x.isNaN = false) (other : y.isNaN = false) : x ≤ y ↔ rank x ≤ rank y := by
  change decide ((x.toModel.unpack.compare y.toModel.unpack).any Ordering.isLE = true) = true ↔ _
  rw [compareOf_rank number other, decide_eq_true_eq, Option.any_some, Ordering.isLE_iff_ne_gt]
  exact compare_le_iff_le

theorem beq_iff (number : x.isNaN = false) (other : y.isNaN = false) :
    (x == y) = true ↔ rank x = rank y := by
  change (x.toModel.unpack.compare y.toModel.unpack == some .eq) = true ↔ _
  rw [compareOf_rank number other, beq_iff_eq, Option.some_inj]
  exact compare_eq_iff_eq

theorem beq_self (number : x.isNaN = false) : (x == x) = true := (beq_iff number number).mpr rfl

theorem compare_nan (x : UnpackedFloat) : x.compare .notANumber = none := by
  cases x with
  | infinity sign | finite sign => cases sign <;> rfl
  | notANumber | zero => rfl

theorem nan_compare (x : UnpackedFloat) : UnpackedFloat.notANumber.compare x = none := by
  cases x <;> rfl

theorem numbers_of_compare {x y : UnpackedFloat} (ordered : x.compare y ≠ none) :
    x.isNaN = false ∧ y.isNaN = false := by
  cases x with
  | notANumber => exact absurd (nan_compare y) ordered
  | infinity sign | finite sign | zero sign =>
      cases y with
      | notANumber => exact absurd (compare_nan _) ordered
      | infinity | finite | zero => exact ⟨rfl, rfl⟩

theorem numbers_of_le (le : x ≤ y) : x.isNaN = false ∧ y.isNaN = false := by
  change decide ((x.toModel.unpack.compare y.toModel.unpack).any Ordering.isLE = true) = true at le
  apply numbers_of_compare
  intro unordered
  rw [unordered] at le
  exact absurd le (by decide)

theorem numbers_of_lt (lt : x < y) : x.isNaN = false ∧ y.isNaN = false := by
  change decide ((x.toModel.unpack.compare y.toModel.unpack == some .lt) = true) = true at lt
  apply numbers_of_compare
  intro unordered
  rw [unordered] at lt
  exact absurd lt (by decide)

theorem lt_trans (first : x < y) (second : y < z) : x < z := by
  obtain ⟨low, middle⟩ := numbers_of_lt first
  obtain ⟨-, high⟩ := numbers_of_lt second
  exact (lt_iff low high).mpr (((lt_iff low middle).mp first).trans ((lt_iff middle high).mp second))

end Numbers

end SetScaler.Double
