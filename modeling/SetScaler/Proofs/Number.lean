import Mathlib.Algebra.Group.Nat.Defs
import SetScaler.Decimal.Numeral

/-!
# Doubles that are numbers

No arithmetic that a numeral is read by leaves the numbers: a whole number is rounded to one
(`Double.isNaN_ofInt`), and a number stays one when it is negated, or is multiplied or divided by a power of
ten (`Double.ordinary_power`).
-/

namespace SetScaler.Double

open Float.Model

section Unpacked

variable {spec : Format} {x y : UnpackedFloat}

theorem isNaN_dite {p : Prop} [Decidable p] {yes : p → UnpackedFloat} {no : ¬p → UnpackedFloat}
    (left : ∀ held, (yes held).isNaN = false) (right : ∀ failed, (no failed).isNaN = false) :
    (dite p yes no).isNaN = false := by
  by_cases held : p
  · rw [dif_pos held]
    exact left held
  · rw [dif_neg held]
    exact right held

theorem isNaN_ite {p : Prop} [Decidable p] (left : x.isNaN = false) (right : y.isNaN = false) :
    (ite p x y).isNaN = false := by
  rw [← dite_eq_ite]
  exact isNaN_dite (fun _ => left) fun _ => right

theorem isNaN_unpack {bits : BitVec spec.numBits}
    (numeric : UnpackedFloat.unpackExponent bits = -1#_ → UnpackedFloat.unpackMantissa bits = 0#_) :
    (UnpackedFloat.unpack spec bits).isNaN = false := by
  unfold UnpackedFloat.unpack
  dsimp only
  by_cases special : UnpackedFloat.unpackExponent bits = -1#_
  · rw [if_pos special, if_pos (numeric special)]
    rfl
  · rw [if_neg special]
    by_cases tiny : UnpackedFloat.unpackExponent bits = 0#_
    · rw [if_pos tiny]
      exact isNaN_dite (fun _ => rfl) fun _ => rfl
    · rw [if_neg tiny]
      rfl

theorem isNaN_unpack_pack (number : x.isNaN = false) :
    (UnpackedFloat.unpack spec (UnpackedFloat.pack spec x)).isNaN = false := by
  refine isNaN_unpack ?_
  fun_cases UnpackedFloat.pack with
  | case1 => cases number
  | case2 sign => exact fun _ => UnpackedFloat.unpackMantissa_packComponents
  | case3 sign => exact fun _ => UnpackedFloat.unpackMantissa_packComponents
  | case4 sign => exact fun _ => UnpackedFloat.unpackMantissa_packComponents
  | case5 sign m e positive bits biased small normal =>
      -- the exponent of a normal number is below the special one
      intro special
      rw [UnpackedFloat.unpackExponent_packComponents, BitVec.neg_one_eq_allOnes, ← BitVec.toNat_inj,
        BitVec.toNat_ofNat, BitVec.toNat_allOnes, Nat.mod_eq_of_lt (by omega)] at special
      omega
  | case6 sign m e positive bits biased small subnormal =>
      intro special
      rw [UnpackedFloat.unpackExponent_packComponents, BitVec.neg_one_eq_allOnes, ← BitVec.toNat_inj,
        BitVec.toNat_allOnes] at special
      have top : 0 < 2 ^ spec.exponentBits - 1 := Nat.sub_pos_of_lt (Nat.one_lt_two_pow (Nat.ne_of_gt spec.he))
      exact absurd special (Nat.ne_of_lt top)

theorem isNaN_roundWithAccuracy (sign : UnpackedFloat.Sign) (m : Nat) (e : Int) (accuracy : UnpackedFloat.Accuracy) :
    (UnpackedFloat.roundWithAccuracy spec sign m e accuracy).isNaN = false := by
  unfold UnpackedFloat.roundWithAccuracy
  exact isNaN_dite (fun _ => rfl) fun _ => rfl

theorem isNaN_normalize (m e : Int) (sign : UnpackedFloat.Sign) :
    (UnpackedFloat.normalize spec m e sign).isNaN = false := by
  unfold UnpackedFloat.normalize
  split
  · exact isNaN_roundWithAccuracy ..
  · rfl
  · exact isNaN_roundWithAccuracy ..

theorem isNaN_unpackedNeg (number : x.isNaN = false) : x.neg.isNaN = false := by
  cases x with
  | notANumber => cases number
  | infinity | zero | finite => rfl

/-- Whether a double is finite and not zero. -/
def isOrdinary : UnpackedFloat → Bool
  | .finite .. => true
  | .infinity _ | .notANumber | .zero _ => false

theorem isNaN_unpackedMul (number : x.isNaN = false) (ordinary : isOrdinary y = true) :
    (UnpackedFloat.mul spec x y).isNaN = false := by
  cases y with
  | notANumber | infinity | zero => cases ordinary
  | finite =>
      cases x with
      | notANumber => cases number
      | infinity | zero => rfl
      | finite => exact isNaN_roundWithAccuracy ..

theorem isNaN_unpackedDiv (number : x.isNaN = false) (ordinary : isOrdinary y = true) :
    (UnpackedFloat.div spec x y).isNaN = false := by
  cases y with
  | notANumber | infinity | zero => cases ordinary
  | finite =>
      cases x with
      | notANumber => cases number
      | infinity | zero => rfl
      | finite => exact isNaN_roundWithAccuracy ..

theorem isNaN_ofScientific (m : Nat) (e : Int) : (UnpackedFloat.ofScientific spec m e).isNaN = false := by
  unfold UnpackedFloat.ofScientific
  refine isNaN_dite (fun _ => rfl) fun _ => isNaN_ite rfl (isNaN_ite rfl ?_)
  exact isNaN_ite (isNaN_unpackedMul rfl rfl) (isNaN_unpackedDiv rfl rfl)

end Unpacked

section Packed

variable {x y : Float}

/-- Whether a double is finite and not zero. -/
def ordinary (x : Float) : Bool := isOrdinary x.toModel.unpack

theorem isNaN_neg (number : x.isNaN = false) : (-x).isNaN = false :=
  isNaN_unpack_pack (isNaN_unpackedNeg number)

theorem isNaN_mul (number : x.isNaN = false) (finite : ordinary y = true) : (x * y).isNaN = false :=
  isNaN_unpack_pack (isNaN_unpackedMul number finite)

theorem isNaN_div (number : x.isNaN = false) (finite : ordinary y = true) : (x / y).isNaN = false :=
  isNaN_unpack_pack (isNaN_unpackedDiv number finite)

theorem isNaN_ofNat (n : Nat) : (Float.ofNat n).isNaN = false := by
  change (Float.ofScientific n false 0).isNaN = false
  unfold Float.ofScientific
  split
  · have whole : n.toUInt64.toFloat.isNaN = false := isNaN_unpack_pack (isNaN_normalize ..)
    have one : ordinary Float.exactlyRepresentablePowersOfTen[0] = true := by decide +kernel
    exact isNaN_mul whole one
  · exact isNaN_unpack_pack (isNaN_ofScientific ..)

theorem isNaN_ofInt (n : Int) : (Float.ofInt n).isNaN = false := by
  cases n with
  | ofNat n => exact isNaN_ofNat n
  | negSucc n => exact isNaN_neg (isNaN_ofNat _)

end Packed

section Powers

theorem mantissa_repeat (extended : UnpackedFloat.ExtendedMantissa) (n : Nat) :
    (n.repeat UnpackedFloat.ExtendedMantissa.shiftRightOne extended).mantissa = extended.mantissa / 2 ^ n := by
  induction n with
  | zero => exact (Nat.div_one _).symm
  | succ n ih =>
      rw [Nat.repeat, UnpackedFloat.ExtendedMantissa.shiftRightOne, ih, Nat.div_div_eq_div_mul, ← Nat.pow_succ]

theorem roundedMantissa_cases (extended : UnpackedFloat.ExtendedMantissa) :
    extended.roundedMantissa = extended.mantissa ∨ extended.roundedMantissa = extended.mantissa + 1 := by
  obtain ⟨m, half, sticky⟩ := extended
  cases half with
  | false => cases sticky <;> exact .inl rfl
  | true =>
      cases sticky with
      | false =>
          change m + m % 2 = m ∨ m + m % 2 = m + 1
          omega
      | true => exact .inr rfl

/-- A significand cut down to 53 bits. -/
theorem div_bounds {m : Nat} (wide : 52 ≤ m.log2) :
    2 ^ 52 ≤ m / 2 ^ (m.log2 - 52) ∧ m / 2 ^ (m.log2 - 52) < 2 ^ 53 := by
  have positive : m ≠ 0 := by
    rintro rfl
    exact absurd wide (by decide)
  have low : 2 ^ (52 + (m.log2 - 52)) ≤ m := by
    rw [Nat.add_sub_cancel' wide]
    exact Nat.log2_self_le positive
  have high : m < 2 ^ (m.log2 - 52 + 53) := by
    rw [show m.log2 - 52 + 53 = m.log2 + 1 by omega]
    exact Nat.lt_log2_self
  rw [Nat.pow_add] at low high
  exact ⟨(Nat.le_div_iff_mul_le (Nat.two_pow_pos _)).mpr low, Nat.div_lt_of_lt_mul high⟩

theorem log2_eq {m : Nat} (low : 2 ^ 52 ≤ m) (high : m < 2 ^ 53) : m.log2 = 52 :=
  (Nat.log2_eq_iff (by omega)).mpr ⟨low, high⟩

theorem isOrdinary_pack {sign : UnpackedFloat.Sign} {m : Nat} {e : Int} (positive : 0 < m)
    (full : m.log2 = 52) (low : -1074 ≤ e) (high : e ≤ 971) :
    isOrdinary (UnpackedFloat.unpack .binary64
      (UnpackedFloat.pack .binary64 (.finite sign m e positive))) = true := by
  let biased := (e + (Format.exponentBias .binary64 : Nat) + (52 : Nat)).toNat
  have bias : (Format.exponentBias .binary64 : Nat) = 1023 := rfl
  have packed : UnpackedFloat.pack .binary64 (.finite sign m e positive) =
      UnpackedFloat.packComponents .binary64 sign (BitVec.ofNat _ biased) (BitVec.ofNat _ m) := by
    unfold UnpackedFloat.pack
    dsimp only
    rw [if_neg (by omega), full]
    exact if_pos rfl
  have exponent : (BitVec.ofNat 11 biased).toNat = biased := by
    rw [BitVec.toNat_ofNat, Nat.mod_eq_of_lt (by omega)]
  rw [packed]
  unfold UnpackedFloat.unpack
  dsimp only
  rw [UnpackedFloat.unpackExponent_packComponents, if_neg, if_neg]
  · rfl
  · intro zero
    rw [zero] at exponent
    change 0 = biased at exponent
    omega
  · intro top
    rw [top] at exponent
    change 2047 = biased at exponent
    omega

theorem shiftToTargetExponent_eq {m n : Nat} {e : Int}
    (amount : (max (m.log2 + 1 + e - 53) (-1074) - e).toNat = n) :
    UnpackedFloat.shiftToTargetExponent .binary64 m e .exact =
      (n.repeat UnpackedFloat.ExtendedMantissa.shiftRightOne ⟨m, false, false⟩, e + n) := by
  subst amount
  rfl

/-- A rounded significand is shifted once more if it has been carried to a 54th bit. -/
theorem shift_of_rounded {r : Nat} {e : Int} (least : 2 ^ 52 ≤ r) (most : r ≤ 2 ^ 53) (low : -1074 ≤ e) :
    ∃ n : Nat, (max (r.log2 + 1 + e - 53) (-1074) - e).toNat = n ∧ (r / 2 ^ n).log2 = 52 ∧ n ≤ 1 := by
  by_cases fits : r < 2 ^ 53
  · have full : r.log2 = 52 := log2_eq least fits
    exact ⟨0, by omega, by rw [Nat.pow_zero, Nat.div_one, full], by omega⟩
  · have carried : r = 2 ^ 53 := by omega
    have full : r.log2 = 53 := by rw [carried, Nat.log2_two_pow]
    exact ⟨1, by omega, log2_eq (by omega) (by omega), by omega⟩

/-- What is rounded stays finite as long as it is well below the largest double. -/
theorem isOrdinary_round (sign : UnpackedFloat.Sign) {m : Nat} {e : Int} (wide : 52 ≤ m.log2)
    (low : -1021 ≤ totalExponent m e) (high : totalExponent m e ≤ 1023) :
    isOrdinary (UnpackedFloat.unpack .binary64 (UnpackedFloat.pack .binary64
      (UnpackedFloat.roundWithAccuracy .binary64 sign m e .exact))) = true := by
  unfold totalExponent at low high
  have first := shiftToTargetExponent_eq (n := m.log2 - 52) (m := m) (e := e) (by omega)
  -- this leaves 53 bits, to which rounding may add one
  obtain ⟨least, most⟩ := div_bounds wide
  have rounded := roundedMantissa_cases
    ((m.log2 - 52).repeat UnpackedFloat.ExtendedMantissa.shiftRightOne ⟨m, false, false⟩)
  rw [mantissa_repeat] at rounded
  dsimp only at rounded
  unfold UnpackedFloat.roundWithAccuracy
  rw [first]
  dsimp only
  generalize UnpackedFloat.ExtendedMantissa.roundedMantissa _ = r at rounded ⊢
  obtain ⟨e', reached⟩ : ∃ e', e + (m.log2 - 52 : Nat) = e' := ⟨_, rfl⟩
  rw [reached]
  obtain ⟨n, amount, full, below⟩ := shift_of_rounded (r := r) (e := e') (by omega) (by omega) (by omega)
  rw [shiftToTargetExponent_eq amount]
  dsimp only
  rw [← mantissa_repeat ⟨r, false, false⟩ n] at full
  have positive : (n.repeat UnpackedFloat.ExtendedMantissa.shiftRightOne ⟨r, false, false⟩).mantissa ≠ 0 := by
    intro zero
    rw [zero] at full
    exact absurd full (by decide)
  rw [dif_neg positive]
  exact isOrdinary_pack _ full (by omega) (by omega)

/-- Powers of ten below the last one that is finite. -/
theorem isOrdinary_ofScientific {n : Nat} (small : n < 308) :
    isOrdinary (UnpackedFloat.unpack .binary64 (UnpackedFloat.pack .binary64
      (UnpackedFloat.ofScientific .binary64 1 n))) = true := by
  have power {k : Nat} (le : n ≤ k) : 2 ^ 53 * 10 ^ n ≤ 2 ^ 53 * 10 ^ k :=
    Nat.mul_le_mul_left _ (Nat.pow_le_pow_right (by decide) le)
  have positive : 2 ^ 53 * 10 ^ n ≠ 0 := Nat.mul_ne_zero (by decide) (Nat.ne_of_gt (Nat.pow_pos (by decide)))
  have least : 53 ≤ (2 ^ 53 * 10 ^ n).log2 :=
    (Nat.le_log2 positive).mpr (Nat.le_mul_of_pos_right _ (Nat.pow_pos (by decide)))
  have most : (2 ^ 53 * 10 ^ n).log2 < 1076 :=
    (Nat.log2_lt positive).mpr (Nat.lt_of_le_of_lt (power (Nat.le_of_lt_succ small)) (by decide +kernel))
  have product : UnpackedFloat.ofScientific .binary64 1 n =
      UnpackedFloat.roundWithAccuracy .binary64 .positive (2 ^ 53 * 10 ^ n) (-53) .exact := by
    unfold UnpackedFloat.ofScientific
    rw [dif_neg (by decide), if_neg (by dsimp only; omega), if_neg (by dsimp only; omega), if_pos (by omega)]
    rfl
  rw [product]
  exact isOrdinary_round _ (by omega) (by unfold totalExponent; omega) (by unfold totalExponent; omega)

theorem ordinary_power {n : Nat} (small : n ≤ 308) : ordinary (Float.ofScientific 1 false n) = true := by
  by_cases exact : n ≤ 22
  · have table : ∀ n ≤ 22, ordinary (Float.ofScientific 1 false n) = true := by decide +kernel
    exact table n exact
  · by_cases last : n = 308
    · subst last
      decide +kernel
    · unfold Float.ofScientific
      rw [dif_neg (by omega)]
      exact isOrdinary_ofScientific (by omega)

end Powers
end SetScaler.Double
