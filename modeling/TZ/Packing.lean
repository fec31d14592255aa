import TZ.Floats

/-!
# The bits of a double

A `Float` is packed into 64 bits after every operation, and unpacked before the
next one. What is packed is a number again when it is unpacked, unless it is too
large for the exponent (`Ieee.unpack_pack`), so that the operations of `Float` compute
what those of `TZ.Floats` do: the exact result, rounded (`Ieee.number_add`,
`Ieee.number_mul`, `Ieee.number_div`).

The numbers of a format have no largest one (`TZ.Nearest`), and the results of
`TZ.Floats` are numbers of the format whatever their size. The bits have only eleven
places for the exponent. So the one thing that packing adds is a bound, and everything
that is said of a sum or a quotient in doubles has to be accompanied by the fact that
the result is below it. For the sums of the server this is easy to have, as the
coordinates are small and the rows are counted by 32 bits.

A double-precision number is coded in three ways: zero, a number with an implicit
leading bit, and one below the normal range without it. The cases are treated one by
one, and `isNumber_finite_iff` says that these are all there are.
-/

open Float.Model Float.Model.UnpackedFloat

namespace Ieee

/-! ## Numbers

A number in the form of the format that is below the bound has an exponent of at most
971, and the other way round, because its mantissa uses all bits unless the exponent
is the least. So the bound on the value and the bound on the exponent say the same. -/

/-- **A float is a number**: it is in the form of the format, and not too large.

Infinities and NaNs are not, and they are not needed: the operations are only
followed as long as the results are numbers. -/
structure IsNumber (f : UnpackedFloat) : Prop where
  /-- The form of the format. -/
  canonical : Canonical .binary64 f
  /-- The bound that the exponent sets. -/
  lt : |value f| < 2 ^ (1024 : ℤ)

theorem isNumber_zero (s : Sign) : IsNumber (.zero s) :=
  ⟨trivial, abs_zero.trans_lt (zpow_pos two_pos _)⟩

/-- The magnitude of a number. -/
theorem abs_value_finite (s : Sign) (m : ℕ) (e : ℤ) (hm : 0 < m) :
    |value (.finite s m e hm)| = m * 2 ^ e := by
  have hnonneg : (0 : ℚ) ≤ m * 2 ^ e := mul_nonneg (Nat.cast_nonneg m) (zpow_pos two_pos e).le
  have hsgn : |sgn s| = 1 := by cases s <;> decide +kernel
  show |sgn s * _| = _
  rw [abs_mul, hsgn, one_mul, abs_of_nonneg hnonneg]

/-- **A number is one that its exponent does not make too large.**

The right-hand side is in terms of the mantissa and exponent alone, which is
what the bits are made from. -/
theorem isNumber_finite_iff {s : Sign} {m : ℕ} {e : ℤ} {hm : 0 < m} :
    IsNumber (.finite s m e hm) ↔ m < 2 ^ 53 ∧ -1074 ≤ e ∧ e ≤ 971
      ∧ (2 ^ 52 ≤ m ∨ e = -1074) := by
  constructor
  · rintro ⟨⟨hlt, hmin, hform⟩, hbound⟩
    refine ⟨hlt, hmin, ?_, hform⟩
    by_contra he
    rcases hform with hbits | hleast
    · have hbits : ((2 : ℚ) ^ (52 : ℤ)) ≤ m := by
        rw [show (52 : ℤ) = (52 : ℕ) from rfl, zpow_natCast]
        exact_mod_cast hbits
      rw [abs_value_finite] at hbound
      refine hbound.not_ge ?_
      calc (2 : ℚ) ^ (1024 : ℤ) = 2 ^ (52 : ℤ) * 2 ^ (972 : ℤ) := by
            rw [← zpow_add₀ two_ne_zero]
            rfl
        _ ≤ m * 2 ^ e := mul_le_mul hbits (zpow_le_zpow_right₀ one_le_two (by omega))
            (zpow_pos two_pos _).le (Nat.cast_nonneg m)
    · have : e = -1074 := hleast
      omega
  · rintro ⟨hlt, hmin, he, hform⟩
    refine ⟨⟨hlt, hmin, hform⟩, ?_⟩
    have hbits : (m : ℚ) < 2 ^ (53 : ℤ) := by
      rw [show (53 : ℤ) = (53 : ℕ) from rfl, zpow_natCast]
      exact_mod_cast hlt
    rw [abs_value_finite]
    calc (m * 2 ^ e : ℚ) < 2 ^ (53 : ℤ) * 2 ^ e :=
          mul_lt_mul_of_pos_right hbits (zpow_pos two_pos e)
      _ ≤ 2 ^ (53 : ℤ) * 2 ^ (971 : ℤ) :=
          mul_le_mul_of_nonneg_left (zpow_le_zpow_right₀ one_le_two he) (zpow_pos two_pos _).le
      _ = 2 ^ (1024 : ℤ) := by
          rw [← zpow_add₀ two_ne_zero]
          rfl

/-! ## Packing

Sign, exponent and mantissa are put side by side and cut apart again. The exponent is
stored with an offset, and in the lowest one the mantissa has no implicit bit; these
two conventions are where packing could go wrong. -/

/-- The sign of what is packed. -/
theorem sign_packComponents {spec : Format} (s : Sign) (e : BitVec spec.exponentBits)
    (m : BitVec spec.mantissaBitsWithoutImplicit) :
    Sign.ofBitVec (unpackSign (packComponents spec s e m)) = s := by
  rw [unpackSign_packComponents, Sign.ofBitVec_toBitVec]

theorem toNat_implicit (m : BitVec 52) : (1#1 ++ m).toNat = 2 ^ 52 + m.toNat := by
  have := m.isLt
  rw [BitVec.toNat_append, ← Nat.shiftLeft_add_eq_or_of_lt m.isLt]
  rfl

theorem unpack_normal {b : BitVec Format.binary64.numBits} {s : Sign} {m : ℕ} {e : ℤ} (hm : 0 < m)
    (hs : Sign.ofBitVec (unpackSign b) = s) (hinf : unpackExponent b ≠ -1#_)
    (hzero : unpackExponent b ≠ 0#_) (hmant : 2 ^ 52 + (unpackMantissa b).toNat = m)
    (hexp : ((unpackExponent b).toNat : ℤ) - 1075 = e) :
    UnpackedFloat.unpack .binary64 b = .finite s m e hm := by
  subst hs hexp
  unfold UnpackedFloat.unpack
  dsimp only
  rw [if_neg hinf, if_neg hzero]
  congr 1
  exact (toNat_implicit _).trans hmant

theorem unpack_subnormal {b : BitVec Format.binary64.numBits} {s : Sign} {m : ℕ} (hm : 0 < m)
    (hs : Sign.ofBitVec (unpackSign b) = s) (hzero : unpackExponent b = 0#_)
    (hmant : (unpackMantissa b).toNat = m) :
    UnpackedFloat.unpack .binary64 b = .finite s m (-1074) hm := by
  subst hs hmant
  have hne : unpackMantissa b ≠ 0#_ := fun h => by
    rw [h] at hm
    exact absurd hm (by decide)
  have hinf : unpackExponent b ≠ -1#_ := fun h => absurd (hzero.symm.trans h) (by decide)
  unfold UnpackedFloat.unpack
  dsimp only
  rw [if_neg hinf, if_pos hzero, dif_neg hne]
  congr 1
  rw [hzero]
  rfl

theorem unpack_zero {b : BitVec Format.binary64.numBits} (hzero : unpackExponent b = 0#_)
    (hmant : unpackMantissa b = 0#_) :
    UnpackedFloat.unpack .binary64 b = .zero (Sign.ofBitVec (unpackSign b)) := by
  have hinf : unpackExponent b ≠ -1#_ := fun h => absurd (hzero.symm.trans h) (by decide)
  unfold UnpackedFloat.unpack
  dsimp only
  rw [if_neg hinf, if_pos hzero, dif_pos hmant]

theorem toNat_unpackExponent (b : BitVec Format.binary64.numBits) :
    (unpackExponent b).toNat = b.toNat / 2 ^ 52 % 2 ^ 11 := by
  unfold unpackExponent
  rw [BitVec.toNat_cast, BitVec.extractLsb_toNat, Nat.shiftRight_eq_div_pow]
  rfl

theorem toNat_unpackMantissa (b : BitVec Format.binary64.numBits) :
    (unpackMantissa b).toNat = b.toNat % 2 ^ 52 := by
  unfold unpackMantissa
  rw [BitVec.toNat_cast, BitVec.extractLsb_toNat]
  rfl

/-- **The bits of a NaN.**

The pattern is the one with which the database recognises a NaN. -/
theorem unpack_eq_notANumber {b : UInt64} (h : 0x7FF0000000000000 < b &&& 0x7FFFFFFFFFFFFFFF) :
    UnpackedFloat.unpack .binary64 b.toBitVec = .notANumber := by
  have hmask : (b &&& 0x7FFFFFFFFFFFFFFF).toNat = b.toNat % 2 ^ 63 := by
    rw [UInt64.toNat_and]
    exact Nat.and_two_pow_sub_one_eq_mod _ 63
  have hlt : 0x7FF0000000000000 < b.toNat % 2 ^ 63 := hmask ▸ UInt64.lt_iff_toNat_lt.mp h
  have hb : b.toBitVec.toNat = b.toNat := rfl
  have hexp : @unpackExponent .binary64 b.toBitVec = -1#_ := by
    refine BitVec.eq_of_toNat_eq ((toNat_unpackExponent _).trans ?_)
    show b.toBitVec.toNat / 2 ^ 52 % 2 ^ 11 = 2047
    omega
  have hmant : @unpackMantissa .binary64 b.toBitVec ≠ 0#_ := by
    intro hzero
    have := (toNat_unpackMantissa _).symm.trans (congrArg BitVec.toNat hzero)
    have : b.toBitVec.toNat % 2 ^ 52 = 0 := this
    omega
  unfold UnpackedFloat.unpack
  dsimp only
  rw [if_pos hexp, if_neg hmant]

/-- **What is unpacked is a number**, unless it is an infinity or none.

So every double that is finite is a number, wherever it comes from – also one
that was received over the wire or read from the file. -/
theorem isNumber_unpack {b : BitVec Format.binary64.numBits}
    (h : (UnpackedFloat.unpack .binary64 b).isFinite = true) :
    IsNumber (UnpackedFloat.unpack .binary64 b) := by
  have hexp := (unpackExponent b).isLt
  have hmantissa : (unpackMantissa b).toNat < 2 ^ 52 := (unpackMantissa b).isLt
  by_cases hzero : unpackExponent b = 0#_
  · by_cases hm : unpackMantissa b = 0#_
    · rw [unpack_zero hzero hm]
      exact isNumber_zero _
    · have hpos : 0 < (unpackMantissa b).toNat := by
        rwa [BitVec.toNat_pos, BitVec.pos_iff_ne_zero]
      rw [unpack_subnormal hpos rfl hzero rfl]
      exact isNumber_finite_iff.mpr ⟨by omega, by omega, by omega, Or.inr rfl⟩
  · by_cases hinf : unpackExponent b = -1#_
    · exfalso
      unfold UnpackedFloat.unpack at h
      dsimp only at h
      rw [if_pos hinf] at h
      split_ifs at h <;> exact Bool.false_ne_true h
    · have hne : (unpackExponent b).toNat ≠ 0 := fun h => hzero (BitVec.eq_of_toNat_eq h)
      have hmax : (unpackExponent b).toNat ≠ 2047 := fun h => hinf (BitVec.eq_of_toNat_eq h)
      have hlt : (unpackExponent b).toNat < 2048 := hexp
      rw [unpack_normal (by omega) rfl hinf hzero rfl rfl]
      exact isNumber_finite_iff.mpr ⟨by omega, by omega, by omega, Or.inl (by omega)⟩

/-- **What is packed is unpacked again.**

By the three ways in which a number is coded. Nothing is lost because the form
of the format leaves only one of them. -/
theorem unpack_pack {f : UnpackedFloat} (h : IsNumber f) :
    UnpackedFloat.unpack .binary64 (UnpackedFloat.pack .binary64 f) = f := by
  cases f with
  | infinity s => exact h.canonical.elim
  | notANumber => exact h.canonical.elim
  | zero s =>
    exact unpack_packedZero
  | finite s m e hm =>
    obtain ⟨hlt, hmin, he, hform⟩ := isNumber_finite_iff.mp h
    have hbias : (e + Format.binary64.exponentBias + Format.binary64.mantissaBitsWithoutImplicit)
        = e + 1075 := by
      show e + 1023 + 52 = _
      omega
    unfold UnpackedFloat.pack
    dsimp only
    rw [hbias]
    rw [if_neg (show ¬ 2 ^ 11 ≤ (e + 1075).toNat + 1 by omega)]
    by_cases hbits : 2 ^ 52 ≤ m
    · have hlog : m.log2 + 1 = Format.binary64.mantissaBits := by
        have := (Nat.le_log2 hm.ne').mpr hbits
        have := (Nat.log2_lt hm.ne').mpr hlt
        show m.log2 + 1 = 53
        omega
      rw [if_pos hlog]
      have hexp : (BitVec.ofNat 11 (e + 1075).toNat).toNat = (e + 1075).toNat :=
        Nat.mod_eq_of_lt (by omega)
      refine unpack_normal hm (sign_packComponents _ _ _) ?_ ?_ ?_ ?_
      · rw [unpackExponent_packComponents]
        intro h
        have h := congrArg BitVec.toNat h
        rw [hexp] at h
        have : (e + 1075).toNat = 2047 := h
        omega
      · rw [unpackExponent_packComponents]
        intro h
        have h := congrArg BitVec.toNat h
        rw [hexp] at h
        have : (e + 1075).toNat = 0 := h
        omega
      · rw [unpackMantissa_packComponents]
        show 2 ^ 52 + m % 2 ^ 52 = m
        omega
      · rw [unpackExponent_packComponents, hexp]
        omega
    · have hlog : ¬ m.log2 + 1 = Format.binary64.mantissaBits := by
        have := (Nat.log2_lt hm.ne').mpr (not_le.mp hbits)
        show ¬ m.log2 + 1 = 53
        omega
      rw [if_neg hlog]
      obtain rfl := hform.resolve_left hbits
      refine unpack_subnormal hm (sign_packComponents _ _ _) unpackExponent_packComponents ?_
      rw [unpackMantissa_packComponents]
      exact Nat.mod_eq_of_lt (not_le.mp hbits)

/-! ## Operations

Each operation of `Float` unpacks, computes, and packs. With the lemmas above it is
the operation of `TZ.Floats`, provided that the rounded result can be packed. -/

/-- The format of a double. -/
def double : BinaryFormat := format .binary64

/-- **The number a double stands for.**

It is 0 for what is no number. All lemmas have a hypothesis that excludes this
case. -/
def number (x : Float) : ℚ := value x.toModel.unpack

variable {x y : Float}

theorem isNumber_of_isFinite (h : x.isFinite = true) : IsNumber x.toModel.unpack :=
  isNumber_unpack h

/-- **What is computed is a number**, and the one that has been packed. -/
theorem number_pack {f : UnpackedFloat} (h : IsNumber f) :
    (Float.ofModel (.pack f)).isFinite = true ∧ number (.ofModel (.pack f)) = value f := by
  have hsame : (Float.ofModel (.pack f)).toModel.unpack = f := unpack_pack h
  refine ⟨?_, congrArg value hsame⟩
  show (Float.ofModel (.pack f)).toModel.unpack.isFinite = true
  rw [hsame]
  cases f with
  | infinity s => exact h.canonical.elim
  | notANumber => exact h.canonical.elim
  | _ => rfl

/-- A result that is not too large.

The hypothesis is on the rounded result, which the caller knows from bounds on
the operands. -/
theorem number_result {f : UnpackedFloat} {q : ℚ} (h : Canonical .binary64 f ∧ value f = q)
    (hlt : |q| < 2 ^ (1024 : ℤ)) :
    (Float.ofModel (.pack f)).isFinite = true ∧ number (.ofModel (.pack f)) = q := by
  have hnumber := number_pack ⟨h.1, h.2 ▸ hlt⟩
  rwa [h.2] at hnumber

/-- There is no case for an overflow: what would overflow is excluded by the
bound. -/
theorem number_add (hx : x.isFinite = true) (hy : y.isFinite = true)
    (h : |double.round (number x + number y)| < 2 ^ (1024 : ℤ)) :
    (x + y).isFinite = true ∧ number (x + y) = double.round (number x + number y) :=
  number_result (add_spec (isNumber_of_isFinite hx).canonical (isNumber_of_isFinite hy).canonical) h

theorem number_mul (hx : x.isFinite = true) (hy : y.isFinite = true)
    (h : |double.round (number x * number y)| < 2 ^ (1024 : ℤ)) :
    (x * y).isFinite = true ∧ number (x * y) = double.round (number x * number y) :=
  number_result (mul_spec (by decide) (isNumber_of_isFinite hx).canonical
    (isNumber_of_isFinite hy).canonical) h

/-- Division by a zero is not a number, so the divisor must have another
value. For the means of the server it is a count that is not zero. -/
theorem number_div (hx : x.isFinite = true) (hy : y.isFinite = true) (hne : number y ≠ 0)
    (h : |double.round (number x / number y)| < 2 ^ (1024 : ℤ)) :
    (x / y).isFinite = true ∧ number (x / y) = double.round (number x / number y) :=
  number_result (div_spec (isNumber_of_isFinite hx).canonical
    (isNumber_of_isFinite hy).canonical hne) h

theorem number_abs (hx : x.isFinite = true) :
    x.abs.isFinite = true ∧ number x.abs = |number x| := by
  have hnumber := isNumber_of_isFinite hx
  refine number_result (abs_spec hnumber.canonical) ?_
  rw [abs_abs]
  exact hnumber.lt

/-- A NaN is not finite. -/
theorem isFinite_nan {b : UInt64} (h : 0x7FF0000000000000 < b &&& 0x7FFFFFFFFFFFFFFF) :
    (Float.ofBits b).isFinite = false := by
  have hnan : (Float.ofBits b).toModel = .pack .notANumber :=
    congrArg Float.Model.pack (unpack_eq_notANumber h)
  show (Float.ofBits b).toModel.unpack.isFinite = false
  rw [hnan]
  decide +kernel

theorem number_one : (Float.ofBits 0x3FF0000000000000).isFinite = true
    ∧ number (Float.ofBits 0x3FF0000000000000) = 1 := by
  decide +kernel

/-- Integers of so many bits are numbers of the format. -/
theorem round_natCast {n : ℕ} (h : n ≤ 2 ^ 53) : double.round (n : ℚ) = n := by
  have := BinaryFormat.exact_intCast (K := ℚ) (F := double) (by decide) (k := n)
    (by rw [Nat.abs_cast]; exact_mod_cast h)
  rwa [Int.cast_natCast] at this

/-- A double-precision number is larger than such integers. -/
theorem abs_natCast_lt {n : ℕ} (h : n ≤ 2 ^ 53) : |(n : ℚ)| < 2 ^ (1024 : ℤ) := by
  rw [Nat.abs_cast]
  calc (n : ℚ) ≤ 2 ^ (53 : ℤ) := by
        rw [show (53 : ℤ) = (53 : ℕ) from rfl, zpow_natCast]
        exact_mod_cast h
    _ < 2 ^ (1024 : ℤ) := zpow_lt_zpow_right₀ one_lt_two (by decide)

/-- An integer of a machine word. -/
theorem number_toFloat {n : UInt64} (h : n.toNat ≤ 2 ^ 53) :
    n.toFloat.isFinite = true ∧ number n.toFloat = n.toNat := by
  refine number_result (f := ofUInt64 .binary64 n) ?_ (abs_natCast_lt h)
  obtain ⟨hcanonical, hval⟩ := @normalize_spec .binary64 n.toNat 0 .positive
  refine ⟨hcanonical, hval.trans ?_⟩
  rw [zpow_zero, mul_one, Int.cast_natCast]
  exact round_natCast h

/-- **An integer is converted exactly**, if it has few enough bits.

The count of a mean is converted in this way, and it has at most 31 bits. -/
theorem number_ofNat {n : ℕ} (h : n < 2 ^ 53) :
    (Float.ofNat n).isFinite = true ∧ number (Float.ofNat n) = n := by
  have hword : n.toUInt64.toNat = n := Nat.mod_eq_of_lt (by omega)
  have hsame : Float.ofNat n = n.toUInt64.toFloat * Float.ofBits 0x3FF0000000000000 := by
    show Float.ofScientific n false 0 = _
    unfold Float.ofScientific
    rw [dif_pos ⟨h, by decide⟩]
    rfl
  obtain ⟨hfinite, hval⟩ := number_toFloat (n := n.toUInt64) (by omega)
  rw [hword] at hval
  have hprod : number n.toUInt64.toFloat * number (Float.ofBits 0x3FF0000000000000) = n := by
    rw [hval, number_one.2, mul_one]
  have hmul := number_mul hfinite number_one.1 (by
    rw [hprod, round_natCast h.le]
    exact abs_natCast_lt h.le)
  rw [hprod, round_natCast h.le] at hmul
  rwa [hsame]

end Ieee
