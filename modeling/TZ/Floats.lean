import Mathlib
import TZ.Nearest

/-!
# What Lean's floats compute

A `Float` is 64 bits, and its operations have definitions: the bits are unpacked
into a sign, a mantissa and an exponent, and what is computed from them is rounded
with the help of two more bits and packed again. This module says what they compute
as rational numbers: the exact result, rounded to the nearest number of the format
(`Ieee.add_spec`, `Ieee.mul_spec`, `Ieee.div_spec`). What is too large for the bits is a
matter of `TZ.Packing`.

The two bits are read as what they are about the number they stand for
(`Ieee.Reads`), and so the step that rounds is one to the nearest even integer
(`Ieee.Reads.roundedMantissa`). The exponent it is done with is that of the last place
of the number (`Ieee.targetExponent_eq`).

Why this has to be done at all: the program computes means and sums in doubles, and a
bound on the error of a sum needs to know that each addition is the exact sum, rounded
to nearest. Since `Float` is defined by `Float.Model`, on bits, this can be proved, and
the bounds on what is printed (`TZ.Accuracy`) rest on a computation and on no assumption
about hardware.

The difficulty is that the implementation never has the exact result. It has a mantissa
that is as long as it needs to be, and of everything below it two bits, of which the
second has forgotten where it came from. Whether two bits suffice is the question, and
the answer is the invariant of this module: they say how the part that is cut off
compares with one half, shifting right preserves that, and nothing else is needed to
round to even. Two roundings one after the other would be wrong in general; the second
shift here is not a second rounding, because it only moves a mantissa that has become a
power of two (`Ieee.settle`).
-/

open Float.Model Float.Model.UnpackedFloat

namespace Ieee

/-! ## The two bits

The first bit tells whether the part that is cut off is at least a half, the second
whether there is anything apart from it. Together they tell less than, exactly, and
more than a half from each other, and also zero from the rest. The statements are in
terms of the rational number, whose fractional part is not stored anywhere. -/

/-- **An extended mantissa stands for a number**: it has its integral part, and its
bits say whether the fractional part is a half at least, and whether there is
anything else.

The number is a parameter and not a field: the same mantissa and bits stand
for many numbers, and which of them is meant is what the operation has
computed exactly. -/
structure Reads (em : ExtendedMantissa) (t : ℚ) : Prop where
  /-- The integral part. -/
  floor : ⌊t⌋ = em.mantissa
  /-- The first bit after the point. -/
  roundBit : em.roundBit = true ↔ 1 / 2 ≤ Int.fract t
  /-- The others. -/
  stickyBit : em.stickyBit = true ↔ Int.fract t ≠ 0 ∧ Int.fract t ≠ 1 / 2

namespace Reads

variable {em : ExtendedMantissa} {t : ℚ}

theorem nonneg (h : Reads em t) : 0 ≤ t :=
  Int.floor_nonneg.mp (h.floor ▸ Int.natCast_nonneg _)

/-- A number by its parts.

The fractional part is what the two bits are about. -/
theorem eq_add (h : Reads em t) : t = em.mantissa + Int.fract t := by
  have := Int.floor_add_fract t
  rw [h.floor, Int.cast_natCast] at this
  exact this.symm

/-- A number is read from its parts. -/
theorem of_eq_add {m : ℕ} {f : ℚ} {roundBit stickyBit : Bool} (ht : t = m + f) (hnonneg : 0 ≤ f)
    (hlt : f < 1) (hround : roundBit = true ↔ 1 / 2 ≤ f)
    (hsticky : stickyBit = true ↔ f ≠ 0 ∧ f ≠ 1 / 2) : Reads ⟨m, roundBit, stickyBit⟩ t := by
  have hfract : Int.fract t = f := by
    rw [ht, Int.fract_natCast_add, Int.fract_eq_self.mpr ⟨hnonneg, hlt⟩]
  refine ⟨?_, hfract ▸ hround, hfract ▸ hsticky⟩
  rw [ht, Int.floor_natCast_add, Int.floor_eq_zero_iff.mpr ⟨hnonneg, hlt⟩, add_zero]

/-- A natural number.

Sums and products are computed exactly before they are rounded, so they begin
with both bits unset. -/
theorem exact (m : ℕ) : Reads (.ofMantissaAndAccuracy m .exact) m :=
  of_eq_add (add_zero _).symm le_rfl one_pos (by norm_num) (by norm_num)

/-- A natural number and a proper fraction.

A quotient cannot be computed exactly; it begins with what the remainder says
about the fraction that is left. -/
theorem fraction {m num den : ℕ} (h : num < den) :
    Reads (.ofMantissaAndAccuracy m (accuracyOfFraction num den)) (m + num / den) := by
  have hden : (0 : ℚ) < den := Nat.cast_pos.mpr (by omega)
  have hnonneg : (0 : ℚ) ≤ num / den := by positivity
  have hlt : (num / den : ℚ) < 1 := by
    rw [div_lt_one hden]
    exact_mod_cast h
  have hround : (1 / 2 : ℚ) ≤ num / den ↔ den ≤ 2 * num := by
    rw [div_le_div_iff₀ two_pos hden, one_mul, mul_comm]
    exact_mod_cast Iff.rfl
  have hhalf : (num / den : ℚ) = 1 / 2 ↔ 2 * num = den := by
    rw [div_eq_div_iff hden.ne' two_ne_zero, one_mul, mul_comm]
    exact_mod_cast Iff.rfl
  unfold accuracyOfFraction
  split_ifs with hnum
  · subst hnum
    rw [Nat.cast_zero, zero_div, add_zero]
    exact exact m
  · have hne : (num / den : ℚ) ≠ 0 := div_ne_zero (Nat.cast_ne_zero.mpr hnum) hden.ne'
    rcases lt_trichotomy (2 * num) den with hcmp | hcmp | hcmp
    · rw [compare_lt_iff_lt.mpr hcmp]
      exact of_eq_add rfl hnonneg hlt ⟨nofun, fun h => absurd (hround.mp h) hcmp.not_ge⟩
        ⟨fun _ => ⟨hne, fun h => hcmp.ne (hhalf.mp h)⟩, fun _ => rfl⟩
    · rw [compare_eq_iff_eq.mpr hcmp]
      exact of_eq_add rfl hnonneg hlt ⟨fun _ => hround.mpr hcmp.ge, fun _ => rfl⟩
        ⟨nofun, fun h => absurd (hhalf.mpr hcmp) h.2⟩
    · rw [compare_gt_iff_gt.mpr hcmp]
      exact of_eq_add rfl hnonneg hlt ⟨fun _ => hround.mpr hcmp.le, fun _ => rfl⟩
        ⟨fun _ => ⟨hne, fun h => hcmp.ne' (hhalf.mp h)⟩, fun _ => rfl⟩

/-- **One bit less.**

The last bit of the mantissa becomes the first after the point, and what was
there joins the others. This is the only step in which the second bit loses
something, and the three cases it has to keep apart are kept apart. -/
theorem shiftRightOne (h : Reads em t) : Reads em.shiftRightOne (t / 2) := by
  have ht := h.eq_add
  have hnonneg := Int.fract_nonneg t
  have hlt := Int.fract_lt_one t
  have hparts : (em.mantissa : ℚ) = (em.mantissa % 2 : ℕ) + 2 * (em.mantissa / 2 : ℕ) := by
    exact_mod_cast (Nat.mod_add_div em.mantissa 2).symm
  have hsticky : (em.roundBit || em.stickyBit) = true ↔ Int.fract t ≠ 0 := by
    rw [Bool.or_eq_true, h.roundBit, h.stickyBit]
    refine ⟨fun h => h.elim (fun h => ((by norm_num : (0 : ℚ) < 1 / 2).trans_le h).ne') And.left,
      fun h => ?_⟩
    by_cases hhalf : Int.fract t = 1 / 2
    · exact Or.inl hhalf.ge
    · exact Or.inr ⟨h, hhalf⟩
  have hsum : t / 2 = (em.mantissa / 2 : ℕ) + ((em.mantissa % 2 : ℕ) + Int.fract t) / 2 := by
    linarith
  rcases Nat.mod_two_eq_zero_or_one em.mantissa with hbit | hbit
  · rw [hbit, Nat.cast_zero, zero_add] at hsum
    refine of_eq_add hsum (by linarith) (by linarith) ?_ ?_
    · rw [hbit]
      exact ⟨nofun, fun h => absurd h (by linarith)⟩
    · rw [hsticky]
      exact ⟨fun h => ⟨div_ne_zero h two_ne_zero, by linarith⟩,
        fun h h' => h.1 (by rw [h', zero_div])⟩
  · rw [hbit, Nat.cast_one] at hsum
    refine of_eq_add hsum (by linarith) (by linarith) ?_ ?_
    · rw [hbit]
      exact ⟨fun _ => by linarith, fun _ => rfl⟩
    · rw [hsticky]
      exact ⟨fun h => ⟨by linarith, fun h' => h (by linarith)⟩,
        fun h h' => h.2 (by rw [h', add_zero])⟩

/-- Any number of bits less.

By induction on the bits. In the end the mantissa is short enough for the
format. -/
theorem shiftRight (h : Reads em t) (n : ℕ) : Reads (em >>> n) (t / 2 ^ n) := by
  show Reads (n.repeat ExtendedMantissa.shiftRightOne em) _
  induction n with
  | zero => rwa [pow_zero, div_one]
  | succ n ih =>
    rw [pow_succ, ← div_div]
    exact ih.shiftRightOne

/-- **The mantissa is rounded to the nearest integer.**

The tie is decided by the mantissa, and everything else by the two bits:
rounding up exactly if the first is set and either the second is set or the
mantissa is odd. -/
theorem roundedMantissa (h : Reads em t) : (em.roundedMantissa : ℤ) = roundEven t := by
  obtain ⟨m, roundBit, stickyBit⟩ := em
  obtain ⟨hfloor, hround, hsticky⟩ := h
  unfold roundEven
  rw [hfloor]
  cases roundBit with
  | false =>
    have hlt : Int.fract t < 1 / 2 := not_le.mp fun h => Bool.false_ne_true (hround.mpr h)
    rw [if_pos hlt]
    cases stickyBit <;> rfl
  | true =>
    have hge := hround.mp rfl
    rw [if_neg hge.not_gt]
    cases stickyBit with
    | false =>
      have hhalf : Int.fract t = 1 / 2 := by
        by_contra hne
        exact Bool.false_ne_true (hsticky.mpr ⟨by linarith, hne⟩)
      rw [if_neg hhalf.not_gt]
      rfl
    | true => exact (if_pos (hge.lt_of_ne' (hsticky.mp rfl).2)).symm

end Reads

/-! ## The exponent of the last place

The number of bits to be cut off is known from the length of the mantissa, the
exponent of the last place from the logarithm of the number. That the two agree is
what makes the shift the right one. Below the normal range it is the least exponent
that counts, in both. -/

/-- The numbers of a format. -/
def format (spec : Format) : BinaryFormat where
  precision := spec.mantissaBits
  precision_pos := Nat.lt_add_right _ Nat.one_pos
  minExponent := spec.minExponent

/-- The factor of a sign. -/
def sgn : Sign → ℚ
  | .negative => -1
  | .positive => 1

/-- **The number a float stands for**, or 0 if there is none.

An infinity and NaN stand for no number. They get the value 0 here, which is
harmless since every statement about values is also about the form of a float,
and these two are not in it. -/
def value : UnpackedFloat → ℚ
  | .finite s m e _ => sgn s * (m * 2 ^ e)
  | _ => 0

/-- **A float is a number in the form of the format**: it uses all bits of the
mantissa, or has the least exponent.

Two floats in this form that have the same value are equal but for the sign of
a zero. It is the form the packed bits can hold, apart from a bound on the
exponent, of which nothing is said here: an overflow is a matter of packing. -/
def Canonical (spec : Format) : UnpackedFloat → Prop
  | .zero _ => True
  | .finite _ m e _ => m < 2 ^ spec.mantissaBits ∧ spec.minExponent ≤ e
    ∧ (2 ^ spec.mantissaBitsWithoutImplicit ≤ m ∨ e = spec.minExponent)
  | _ => False

variable {spec : Format} {em : ExtendedMantissa} {t : ℚ} {e : ℤ}

/-- The logarithm is that of the mantissa.

The fractional part does not matter, as long as the mantissa is not zero. -/
theorem log_eq (h : Reads em t) (hm : em.mantissa ≠ 0) (e : ℤ) :
    Int.log 2 |t * 2 ^ e| = em.mantissa.log2 + e := by
  have hpow : (0 : ℚ) < 2 ^ e := zpow_pos two_pos e
  have hge : (em.mantissa : ℚ) ≤ t := by
    have := Int.floor_le t
    rwa [h.floor, Int.cast_natCast] at this
  have hlt : t < (em.mantissa + 1 : ℕ) := by
    have := Int.lt_floor_add_one t
    rw [h.floor, Int.cast_natCast] at this
    exact_mod_cast this
  have hpos : 0 < t := (Nat.cast_pos.mpr (Nat.pos_of_ne_zero hm)).trans_le hge
  have hx : 0 < t * 2 ^ e := mul_pos hpos hpow
  rw [abs_of_pos hx]
  refine le_antisymm (Int.lt_add_one_iff.mp ?_) ?_
  · refine (Int.lt_zpow_iff_log_lt one_lt_two hx).mp ?_
    have hbits : (em.mantissa + 1 : ℕ) ≤ 2 ^ (em.mantissa.log2 + 1) := Nat.lt_log2_self
    rw [show (em.mantissa.log2 : ℤ) + e + 1 = (em.mantissa.log2 + 1 : ℕ) + e by push_cast; ring,
      zpow_add₀ (by norm_num), Nat.cast_ofNat, zpow_natCast]
    exact mul_lt_mul_of_pos_right (hlt.trans_le (by exact_mod_cast hbits)) hpow
  · refine (Int.zpow_le_iff_le_log one_lt_two hx).mp ?_
    have hbits : 2 ^ em.mantissa.log2 ≤ em.mantissa := Nat.log2_self_le hm
    rw [zpow_add₀ (by norm_num), Nat.cast_ofNat, zpow_natCast]
    exact mul_le_mul_of_nonneg_right (le_trans (by exact_mod_cast hbits) hge) hpow.le

/-- The target exponent of what has a mantissa is that of the last place. -/
theorem targetExponent_of_ne (h : Reads em t) (hm : em.mantissa ≠ 0) (e : ℤ) :
    spec.targetExponent (totalExponent em.mantissa e) = (format spec).exponent (t * 2 ^ e) := by
  unfold Format.targetExponent totalExponent BinaryFormat.exponent format
  rw [log_eq h hm]
  dsimp only
  congr 1
  ring

/-- **The target exponent is that of the last place**, if there are enough bits.

A number may have so few bits that its mantissa is zero, and then its
logarithm is not that of the mantissa. The hypothesis says that this happens
only where the least exponent is the one that counts. -/
theorem targetExponent_eq (h : Reads em t) (ht : t ≠ 0)
    (he : e ≤ (format spec).exponent (t * 2 ^ e)) :
    spec.targetExponent (totalExponent em.mantissa e) = (format spec).exponent (t * 2 ^ e) := by
  by_cases hm : em.mantissa = 0
  · -- the number is less than `2 ^ e`, so it has the least exponent
    have hpos := (format spec).precision_pos
    have hx : t * 2 ^ e ≠ 0 := mul_ne_zero ht (zpow_ne_zero _ two_ne_zero)
    have hlt : |t * 2 ^ e| < 2 ^ e := by
      have hone : t < 1 := by
        have := Int.lt_floor_add_one t
        rwa [h.floor, hm, Nat.cast_zero, Int.cast_zero, zero_add] at this
      rw [abs_mul, abs_of_nonneg h.nonneg, abs_of_pos (zpow_pos two_pos e : (0 : ℚ) < 2 ^ e)]
      exact mul_lt_of_lt_one_left (zpow_pos two_pos e) hone
    have hlog := BinaryFormat.log_lt_of_lt hx hlt
    have hlog2 : Nat.log2 0 = 0 := rfl
    unfold BinaryFormat.exponent format at *
    unfold Format.targetExponent totalExponent
    rw [hm, hlog2]
    dsimp only at *
    omega
  · exact targetExponent_of_ne h hm e

/-! ## Rounding

The implementation shifts twice: once before it rounds, and once after, because
rounding up may have made the mantissa one bit longer. The first shift is the one that
rounds and the second one loses nothing. -/

/-- How a shift of an exact mantissa ends. -/
theorem shiftToTargetExponent_eq {m n : ℕ}
    (h : (spec.targetExponent (totalExponent m e) - e).toNat = n) :
    shiftToTargetExponent spec m e .exact
      = ((⟨m, false, false⟩ : ExtendedMantissa) >>> n, e + n) := by
  unfold shiftToTargetExponent shiftToExponent
  dsimp only
  rw [h]
  rfl

/-- **The second shift** only serves to bring the next power of two into form.

The mantissa that has become too long is a power of two, so the bit that falls
off is 0. -/
theorem settle {m : ℕ} (hm : m ≤ 2 ^ spec.mantissaBits) (he : spec.minExponent ≤ e) :
    ∃ em e', shiftToTargetExponent spec m e .exact = (em, e')
      ∧ (em.mantissa * 2 ^ e' : ℚ) = m * 2 ^ e
      ∧ em.mantissa < 2 ^ spec.mantissaBits ∧ spec.minExponent ≤ e'
      ∧ (em.mantissa = m ∧ e' = e ∨ 2 ^ spec.mantissaBitsWithoutImplicit ≤ em.mantissa) := by
  rcases hm.lt_or_eq with hm | hm
  · have hlog : m.log2 < spec.mantissaBits := by
      rcases eq_or_ne m 0 with rfl | hne
      · exact (format spec).precision_pos
      · exact (Nat.log2_lt hne).mpr hm
    have hshift : (spec.targetExponent (totalExponent m e) - e).toNat = 0 := by
      unfold Format.targetExponent totalExponent
      omega
    exact ⟨_, _, shiftToTargetExponent_eq hshift, by rw [Nat.cast_zero, add_zero]; rfl, hm,
      he.trans (le_add_of_nonneg_right (Int.natCast_nonneg _)),
      Or.inl ⟨rfl, by rw [Nat.cast_zero, add_zero]⟩⟩
  · have hshift : (spec.targetExponent (totalExponent m e) - e).toNat = 1 := by
      unfold Format.targetExponent totalExponent
      rw [hm, Nat.log2_two_pow]
      omega
    have hpow : 2 ^ spec.mantissaBits = 2 * 2 ^ spec.mantissaBitsWithoutImplicit := by
      unfold Format.mantissaBits
      rw [pow_add, pow_one]
    have hhalf : m / 2 = 2 ^ spec.mantissaBitsWithoutImplicit := by omega
    have hpos := Nat.two_pow_pos spec.mantissaBitsWithoutImplicit
    refine ⟨_, _, shiftToTargetExponent_eq hshift, ?_, ?_, by omega, Or.inr hhalf.ge⟩
    · show ((m / 2 : ℕ) : ℚ) * 2 ^ (e + (1 : ℕ)) = m * 2 ^ e
      rw [hhalf, hm, hpow, zpow_add₀ two_ne_zero]
      push_cast
      ring
    · show m / 2 < _
      omega

/-- **The first shift** rounds.

The mantissa that results is at most the next power of two. It is all bits
long, or the exponent is the least one, or nothing is left of it. -/
theorem shiftToTargetExponent_round {m : ℕ} {acc : Accuracy}
    (h : Reads (.ofMantissaAndAccuracy m acc) t)
    (he : t ≠ 0 → e ≤ (format spec).exponent (t * 2 ^ e)) :
    ∃ em e', shiftToTargetExponent spec m e acc = (em, e')
      ∧ (em.roundedMantissa * 2 ^ e' : ℚ) = (format spec).round (t * 2 ^ e)
      ∧ em.roundedMantissa ≤ 2 ^ spec.mantissaBits ∧ spec.minExponent ≤ e'
      ∧ (em.roundedMantissa = 0 ∨ 2 ^ spec.mantissaBitsWithoutImplicit ≤ em.roundedMantissa
        ∨ e' = spec.minExponent) := by
  have hmantissa : (ExtendedMantissa.ofMantissaAndAccuracy m acc).mantissa = m := by
    rcases acc with _ | _ | _ | _ <;> rfl
  obtain ⟨n, hn⟩ : ∃ n, n = (spec.targetExponent (totalExponent m e) - e).toNat := ⟨_, rfl⟩
  have hmin : spec.minExponent ≤ e + n := by
    have : spec.minExponent ≤ spec.targetExponent (totalExponent m e) := le_max_right _ _
    omega
  have hround := (h.shiftRight n).roundedMantissa
  refine ⟨ExtendedMantissa.ofMantissaAndAccuracy m acc >>> n, e + n, by rw [hn]; rfl, ?_⟩
  by_cases ht : t = 0
  · subst ht
    rw [zero_div, ← Int.cast_zero, roundEven_intCast, Int.natCast_eq_zero] at hround
    rw [hround, zero_mul, BinaryFormat.round_zero, Nat.cast_zero, zero_mul]
    exact ⟨rfl, Nat.zero_le _, hmin, Or.inl rfl⟩
  · have htarget := @targetExponent_eq spec _ _ _ h ht (he ht)
    rw [hmantissa] at htarget
    have hexp : e + n = (format spec).exponent (t * 2 ^ e) := by
      have := he ht
      omega
    have hshift : t / 2 ^ n = t * 2 ^ e / 2 ^ (format spec).exponent (t * 2 ^ e) := by
      rw [← hexp, zpow_add₀ two_ne_zero, zpow_natCast]
      have : (2 : ℚ) ^ e ≠ 0 := zpow_ne_zero _ two_ne_zero
      field_simp
    rw [hshift] at hround
    have hbits := BinaryFormat.abs_roundEven_le (F := format spec) (t * 2 ^ e)
    rw [← hround, Nat.abs_cast] at hbits
    refine ⟨?_, by exact_mod_cast hbits, hmin, Or.inr ?_⟩
    · rw [BinaryFormat.round, ← hround, hexp, Int.cast_natCast]
    · by_cases hleast : e + n = spec.minExponent
      · exact Or.inr hleast
      · -- a number whose exponent is not the least uses all bits
        left
        have hx : t * 2 ^ e ≠ 0 := mul_ne_zero ht (zpow_ne_zero _ two_ne_zero)
        have hlog : Int.log 2 |t * 2 ^ e|
            = (format spec).exponent (t * 2 ^ e) + spec.mantissaBitsWithoutImplicit := by
          have hbits : (spec.mantissaBits : ℤ) = 1 + spec.mantissaBitsWithoutImplicit := by
            unfold Format.mantissaBits
            push_cast
            rfl
          rw [hexp] at hleast
          unfold BinaryFormat.exponent format at *
          dsimp only at *
          omega
        have hge := BinaryFormat.zpow_log_le hx
        rw [hlog, zpow_add₀ two_ne_zero, abs_mul, abs_of_nonneg h.nonneg,
          abs_of_pos (zpow_pos two_pos e : (0 : ℚ) < 2 ^ e), mul_comm, zpow_natCast] at hge
        have hle : (2 ^ spec.mantissaBitsWithoutImplicit : ℤ)
            ≤ roundEven (t * 2 ^ e / 2 ^ (format spec).exponent (t * 2 ^ e)) := by
          refine le_roundEven ?_
          rw [le_div_iff₀ (BinaryFormat.unit_pos _)]
          exact_mod_cast hge
        rw [← hround] at hle
        exact_mod_cast hle

/-- **What is rounded is rounded to the nearest number of the format**, and comes in
its form, if the mantissa and the accuracy stand for a number and have enough
bits.

Everything the operations need of rounding is in this statement; after it
nobody looks at a shift again. -/
theorem roundWithAccuracy_spec {s : Sign} {m : ℕ} {acc : Accuracy}
    (h : Reads (.ofMantissaAndAccuracy m acc) t)
    (he : t ≠ 0 → e ≤ (format spec).exponent (t * 2 ^ e)) :
    Canonical spec (roundWithAccuracy spec s m e acc)
      ∧ value (roundWithAccuracy spec s m e acc) = sgn s * (format spec).round (t * 2 ^ e) := by
  obtain ⟨em, e₁, hfirst, hround, hle, hmin, hform⟩ := shiftToTargetExponent_round h he
  obtain ⟨em', e', hsecond, hval, hlt, hmin', hform'⟩ := settle hle hmin
  have hvalue : (em'.mantissa * 2 ^ e' : ℚ) = (format spec).round (t * 2 ^ e) := hval.trans hround
  unfold roundWithAccuracy
  rw [hfirst]
  dsimp only
  rw [hsecond]
  dsimp only
  split_ifs with hzero
  · rw [hzero, Nat.cast_zero, zero_mul] at hvalue
    exact ⟨trivial, by rw [← hvalue, mul_zero]; rfl⟩
  · refine ⟨⟨hlt, hmin', ?_⟩, congrArg (sgn s * ·) hvalue⟩
    rcases hform' with ⟨hm, rfl⟩ | hm
    · rw [hm] at hzero ⊢
      exact hform.resolve_left hzero
    · exact Or.inl hm

/-- More bits after the point do not change a number.

Before an addition both numbers are brought to the smaller exponent, and
before a division the dividend is made long enough. -/
theorem decreaseExponent_eq (m : ℕ) (e target : ℤ) :
    ∃ m' e', decreaseExponent m e target = (m', e') ∧ (m' * 2 ^ e' : ℚ) = m * 2 ^ e
      ∧ (e' ≤ target) ∧ (target ≤ e → e' = target) := by
  obtain ⟨n, hn⟩ : ∃ n, n = (e - target).toNat := ⟨_, rfl⟩
  refine ⟨m <<< n, e - n, by rw [hn]; rfl, ?_, by omega, by omega⟩
  rw [Nat.shiftLeft_eq, Nat.cast_mul, Nat.cast_pow, Nat.cast_ofNat, mul_assoc, ← zpow_natCast,
    ← zpow_add₀ two_ne_zero, add_sub_cancel]

/-- **A mantissa and an exponent are rounded.**

An exact mantissa always has enough bits: those that are missing are zero. -/
theorem round_spec (s : Sign) (m : ℕ) (e : ℤ) :
    Canonical spec (UnpackedFloat.round spec s m e)
      ∧ value (UnpackedFloat.round spec s m e) = sgn s * (format spec).round (m * 2 ^ e : ℚ) := by
  obtain ⟨m', e', heq, hval, hle, -⟩ :=
    decreaseExponent_eq m e (spec.targetExponent (totalExponent m e))
  unfold UnpackedFloat.round
  dsimp only
  rw [heq, ← hval]
  refine roundWithAccuracy_spec (Reads.exact m') fun ht => ?_
  have hm : m ≠ 0 := by
    rintro rfl
    rw [Nat.cast_zero, zero_mul] at hval
    exact ht ((mul_eq_zero.mp hval).resolve_right (zpow_ne_zero _ two_ne_zero))
  rw [hval]
  exact hle.trans (targetExponent_of_ne (Reads.exact m) hm e).le

theorem cast_apply (s : Sign) (n : ℕ) : ((s.apply n : ℤ) : ℚ) = sgn s * n := by
  cases s with
  | negative => exact (Int.cast_neg _).trans (neg_one_mul _).symm
  | positive => exact (one_mul _).symm

/-- **An integer and an exponent are rounded.** -/
theorem normalize_spec (m : ℤ) (e : ℤ) (zeroSign : Sign) :
    Canonical spec (UnpackedFloat.normalize spec m e zeroSign)
      ∧ value (UnpackedFloat.normalize spec m e zeroSign)
        = (format spec).round (m * 2 ^ e : ℚ) := by
  unfold UnpackedFloat.normalize
  rcases lt_trichotomy m 0 with hm | rfl | hm
  · rw [compare_lt_iff_lt.mpr hm]
    obtain ⟨hcanonical, hval⟩ := @round_spec spec .negative (-m).toNat e
    refine ⟨hcanonical, hval.trans ?_⟩
    have hcast : (((-m).toNat : ℕ) : ℚ) = -m := by
      exact_mod_cast Int.toNat_of_nonneg (show 0 ≤ -m by omega)
    rw [hcast, neg_mul, BinaryFormat.round_neg]
    exact neg_one_mul _ |>.trans (neg_neg _)
  · rw [compare_eq_iff_eq.mpr rfl, Int.cast_zero, zero_mul, BinaryFormat.round_zero]
    exact ⟨trivial, rfl⟩
  · rw [compare_gt_iff_gt.mpr hm]
    obtain ⟨hcanonical, hval⟩ := @round_spec spec .positive m.toNat e
    refine ⟨hcanonical, hval.trans ?_⟩
    have hcast : ((m.toNat : ℕ) : ℚ) = m := by
      exact_mod_cast Int.toNat_of_nonneg hm.le
    rw [hcast]
    exact one_mul _

/-! ## Operations

Each of them computes an exact result, or one with two more bits, and rounds it. So
each statement has the same form, and each proof is about how the exact result comes
about and what sign it has. -/

variable {a b : UnpackedFloat}

/-- A number of the format is not changed.

What is in the form of the format can be represented. In particular rounding
twice is rounding once. -/
theorem Canonical.round_value (h : Canonical spec a) :
    (format spec).round (value a) = value a := by
  cases a with
  | finite s m e hm =>
    have hval : value (.finite s m e hm) = ((s.apply m : ℤ) : ℚ) * 2 ^ e := by
      rw [cast_apply, mul_assoc]
      rfl
    have hbits : |(s.apply m : ℤ)| ≤ 2 ^ spec.mantissaBits := by
      have : (m : ℤ) < 2 ^ spec.mantissaBits := by exact_mod_cast h.1
      cases s with
      | negative => exact (abs_neg _).le.trans ((Nat.abs_cast m).le.trans this.le)
      | positive => exact (Nat.abs_cast m).le.trans this.le
    rw [hval]
    exact BinaryFormat.round_eq_self hbits h.2.1
  | _ => exact BinaryFormat.round_zero

/-- **A sum is the exact sum, rounded.**

The mantissas are added as integers, at the smaller of the two exponents, so
nothing is lost before the one rounding. -/
theorem add_spec (ha : Canonical spec a) (hb : Canonical spec b) :
    Canonical spec (UnpackedFloat.add spec a b)
      ∧ value (UnpackedFloat.add spec a b) = (format spec).round (value a + value b) := by
  cases a with
  | infinity s => exact ha.elim
  | notANumber => exact ha.elim
  | zero s =>
    cases b with
    | infinity s' => exact hb.elim
    | notANumber => exact hb.elim
    | zero s' =>
      have hround : (format spec).round (value (.zero s) + value (.zero s')) = 0 := by
        rw [show value (.zero s) + value (.zero s') = 0 from add_zero 0, BinaryFormat.round_zero]
      rw [hround]
      unfold UnpackedFloat.add
      dsimp only
      split_ifs <;> exact ⟨trivial, rfl⟩
    | finite s' m e hm =>
      refine ⟨hb, ?_⟩
      rw [show value (.zero s) = 0 from rfl, zero_add, hb.round_value]
      rfl
  | finite s m e hm =>
    cases b with
    | infinity s' => exact hb.elim
    | notANumber => exact hb.elim
    | zero s' =>
      refine ⟨ha, ?_⟩
      rw [show value (.zero s') = 0 from rfl, add_zero, ha.round_value]
      rfl
    | finite s' m' e' hm' =>
      obtain ⟨n, k, heq, hval, -, hk⟩ := decreaseExponent_eq m e (min e e')
      obtain ⟨n', k', heq', hval', -, hk'⟩ := decreaseExponent_eq m' e' (min e e')
      obtain rfl := hk (min_le_left _ _)
      obtain rfl := hk' (min_le_right _ _)
      obtain ⟨hcanonical, hsum⟩ := @normalize_spec spec
        (s.apply n + s'.apply n') (min e e') .positive
      have hexact : ((s.apply n + s'.apply n' : ℤ) : ℚ) * 2 ^ min e e'
          = value (.finite s m e hm) + value (.finite s' m' e' hm') := by
        rw [Int.cast_add, cast_apply, cast_apply, add_mul, mul_assoc, mul_assoc, hval, hval']
        rfl
      rw [hexact] at hsum
      unfold UnpackedFloat.add
      dsimp only
      rw [heq, heq']
      exact ⟨hcanonical, hsum⟩

theorem round_sgn (s : Sign) (x : ℚ) :
    (format spec).round (sgn s * x) = sgn s * (format spec).round x := by
  cases s with
  | negative =>
    show (format spec).round (-1 * x) = -1 * _
    rw [neg_one_mul, BinaryFormat.round_neg, neg_one_mul]
  | positive =>
    show (format spec).round (1 * x) = 1 * _
    rw [one_mul, one_mul]

theorem sgn_mul (s s' : Sign) : sgn (s * s') = sgn s * sgn s' := by
  cases s <;> cases s' <;> decide +kernel

theorem sgn_div (s s' : Sign) : sgn (s / s') = sgn s / sgn s' := by
  cases s <;> cases s' <;> decide +kernel

/-- **A product is the exact product, rounded.**

The product of the mantissas is twice as long as the format has room for, and
exact. -/
theorem mul_spec (hspec : spec.minExponent ≤ 0) (ha : Canonical spec a) (hb : Canonical spec b) :
    Canonical spec (UnpackedFloat.mul spec a b)
      ∧ value (UnpackedFloat.mul spec a b) = (format spec).round (value a * value b) := by
  cases a with
  | infinity s => exact ha.elim
  | notANumber => exact ha.elim
  | zero s =>
    have hround : (format spec).round (value (.zero s) * value b) = 0 := by
      rw [show value (.zero s) = 0 from rfl, zero_mul, BinaryFormat.round_zero]
    rw [hround]
    cases b with
    | infinity s' => exact hb.elim
    | notANumber => exact hb.elim
    | _ => exact ⟨trivial, rfl⟩
  | finite s m e hm =>
    cases b with
    | infinity s' => exact hb.elim
    | notANumber => exact hb.elim
    | zero s' =>
      have hround : (format spec).round (value (.finite s m e hm) * value (.zero s')) = 0 := by
        rw [show value (.zero s') = 0 from rfl, mul_zero, BinaryFormat.round_zero]
      rw [hround]
      exact ⟨trivial, rfl⟩
    | finite s' m' e' hm' =>
      have hpos : 0 < m * m' := Nat.mul_pos hm hm'
      have hbits : spec.mantissaBits = spec.mantissaBitsWithoutImplicit + 1 := Nat.add_comm _ _
      have henough : e + e' ≤ (format spec).exponent (((m * m' : ℕ) : ℚ) * 2 ^ (e + e')) := by
        rw [← targetExponent_of_ne (Reads.exact (m * m')) hpos.ne' (e + e')]
        show e + e' ≤ max (((m * m').log2 : ℤ) + 1 + (e + e') - spec.mantissaBits)
          spec.minExponent
        by_cases hlog : spec.mantissaBitsWithoutImplicit ≤ (m * m').log2
        · omega
        · -- both are less than the least number that uses all bits
          have hsmall : m * m' < 2 ^ spec.mantissaBitsWithoutImplicit :=
            (Nat.log2_lt hpos.ne').mp (by omega)
          have hle := Nat.le_mul_of_pos_right m hm'
          have hle' := Nat.le_mul_of_pos_left m' hm
          have he := ha.2.2.resolve_left (by omega)
          have he' := hb.2.2.resolve_left (by omega)
          omega
      obtain ⟨hcanonical, hval⟩ := roundWithAccuracy_spec (s := s * s')
        (Reads.exact (m * m')) fun _ => henough
      have hexact : sgn (s * s') * (((m * m' : ℕ) : ℚ) * 2 ^ (e + e'))
          = value (.finite s m e hm) * value (.finite s' m' e' hm') := by
        rw [sgn_mul, zpow_add₀ two_ne_zero]
        show _ = sgn s * (m * 2 ^ e) * (sgn s' * (m' * 2 ^ e'))
        push_cast
        ring
      rw [← hexact, round_sgn]
      exact ⟨hcanonical, hval⟩

/-- **A quotient is the exact quotient, rounded.**

The dividend is extended until the quotient has at least as many bits as the
mantissa, which is what the rounding asks for. That it has is the longest part
of the proof. -/
theorem div_spec (ha : Canonical spec a) (hb : Canonical spec b) (hne : value b ≠ 0) :
    Canonical spec (UnpackedFloat.div spec a b)
      ∧ value (UnpackedFloat.div spec a b) = (format spec).round (value a / value b) := by
  cases b with
  | infinity s' => exact hb.elim
  | notANumber => exact hb.elim
  | zero s' => exact absurd rfl hne
  | finite s' m' e' hm' =>
    cases a with
    | infinity s => exact ha.elim
    | notANumber => exact ha.elim
    | zero s =>
      have hround : (format spec).round (value (.zero s) / value (.finite s' m' e' hm')) = 0 := by
        rw [show value (.zero s) = 0 from rfl, zero_div, BinaryFormat.round_zero]
      rw [hround]
      exact ⟨trivial, rfl⟩
    | finite s m e hm =>
      obtain ⟨target, htarget⟩ : ∃ target, target = min (e - e')
        (spec.targetExponent (totalExponent m e - totalExponent m' e')) := ⟨_, rfl⟩
      obtain ⟨n, hn⟩ : ∃ n, n = (e - e' - target).toNat := ⟨_, rfl⟩
      have hm'pos : (0 : ℚ) < m' := Nat.cast_pos.mpr hm'
      have hle : target ≤ e - e' := htarget ▸ min_le_left _ _
      have hcore : divCore spec m e m' e'
          = (m <<< n / m', target, accuracyOfFraction (m <<< n % m') m') := by
        unfold divCore
        dsimp only
        rw [← htarget, ← hn]
      have hreads := Reads.fraction (m := m <<< n / m') (Nat.mod_lt (m <<< n) hm')
      have hquot : ((m <<< n / m' : ℕ) : ℚ) + ((m <<< n % m' : ℕ) : ℚ) / m' = m * 2 ^ n / m' := by
        rw [eq_div_iff hm'pos.ne', add_mul, div_mul_cancel₀ _ hm'pos.ne']
        have hdiv := Nat.div_add_mod' (m <<< n) m'
        rw [Nat.shiftLeft_eq] at hdiv ⊢
        exact_mod_cast hdiv
      have hexact : (((m <<< n / m' : ℕ) : ℚ) + ((m <<< n % m' : ℕ) : ℚ) / m') * 2 ^ target
          = m / m' * 2 ^ (e - e') := by
        rw [hquot, show e - e' = n + target by omega, zpow_add₀ two_ne_zero, zpow_natCast]
        ring
      have henough : target ≤ (format spec).exponent
          ((((m <<< n / m' : ℕ) : ℚ) + ((m <<< n % m' : ℕ) : ℚ) / m') * 2 ^ target) := by
        rw [hexact]
        have hpow : (0 : ℚ) < 2 ^ (e - e') := zpow_pos two_pos _
        have hx : (0 : ℚ) < m / m' * 2 ^ (e - e') :=
          mul_pos (div_pos (Nat.cast_pos.mpr hm) hm'pos) hpow
        -- the quotient is at least the quotient of the powers of two around the mantissas
        have hlog : (m.log2 : ℤ) - (m'.log2 + 1) + (e - e')
            ≤ Int.log 2 |(m / m' * 2 ^ (e - e') : ℚ)| := by
          rw [abs_of_pos hx]
          refine (Int.zpow_le_iff_le_log one_lt_two hx).mp ?_
          have hbits : ((2 ^ m.log2 : ℕ) : ℚ) ≤ m := by exact_mod_cast Nat.log2_self_le hm.ne'
          have hbits' : (m' : ℚ) ≤ (2 ^ (m'.log2 + 1) : ℕ) := by
            exact_mod_cast (Nat.lt_log2_self (n := m')).le
          rw [Nat.cast_ofNat, zpow_add₀ two_ne_zero, zpow_sub₀ two_ne_zero]
          refine mul_le_mul_of_nonneg_right ?_ hpow.le
          rw [div_le_div_iff₀ (zpow_pos two_pos _) hm'pos]
          push_cast at hbits hbits'
          rw [zpow_natCast]
          exact mul_le_mul hbits (by exact_mod_cast hbits') hm'pos.le (Nat.cast_nonneg m)
        have htarget := min_le_right (e - e')
          (spec.targetExponent (totalExponent m e - totalExponent m' e'))
        unfold Format.targetExponent totalExponent at *
        unfold BinaryFormat.exponent format
        dsimp only
        omega
      obtain ⟨hcanonical, hval⟩ := roundWithAccuracy_spec (s := s / s') hreads fun _ => henough
      have hvalue : sgn (s / s') * (m / m' * 2 ^ (e - e') : ℚ)
          = value (.finite s m e hm) / value (.finite s' m' e' hm') := by
        rw [sgn_div, zpow_sub₀ two_ne_zero]
        show _ = sgn s * (m * 2 ^ e) / (sgn s' * (m' * 2 ^ e'))
        rw [mul_div_mul_comm, mul_div_mul_comm]
      rw [hexact] at hval
      rw [← hvalue, round_sgn]
      unfold UnpackedFloat.div
      dsimp only
      rw [hcore]
      exact ⟨hcanonical, hval⟩

/-- **A magnitude is exact.** -/
theorem abs_spec (ha : Canonical spec a) :
    Canonical spec a.abs ∧ value a.abs = |value a| := by
  cases a with
  | infinity s => exact ha.elim
  | notANumber => exact ha.elim
  | zero s => exact ⟨trivial, abs_zero.symm⟩
  | finite s m e hm =>
    refine ⟨ha, ?_⟩
    have hnonneg : (0 : ℚ) ≤ m * 2 ^ e := mul_nonneg (Nat.cast_nonneg m) (zpow_pos two_pos e).le
    have hsgn : |sgn s| = 1 := by cases s <;> decide +kernel
    show 1 * _ = |sgn s * _|
    rw [abs_mul, hsgn, abs_of_nonneg hnonneg]

end Ieee
