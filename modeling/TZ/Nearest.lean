import Mathlib.Algebra.Order.Floor.Ring
import Mathlib.Data.Int.Log
import TZ.Rounding

/-!
# Rounding to the nearest binary number

A binary format has numbers `m * 2 ^ e` with at most so many bits in `m`, and with
`e` not below some exponent; what is too large for a format is not a matter of this
module. A number is rounded to the nearest one, and of two that are equally near to
the one whose `m` is even (`BinaryFormat.round`). This is a rounding with a relative
error of half a unit in the last place (`BinaryFormat.rounding`).

Monotonicity is where some care is needed, since the exponent depends on the number
that is rounded: between two numbers with different exponents there is a power of
two, which is a multiple of either unit (`BinaryFormat.round_mono_pos`).

The module names no bits. A format is a set of rationals, or of elements of any ordered
field with integral parts, and a rounding is a function on them; how many bits a
mantissa has is a parameter. This is what makes the error bounds of `TZ.Rounding`
applicable without a word about representation, and it is what `TZ.Floats` has to meet.

The definition is by scaling: divide by the unit of the last place, take the nearest
integer, multiply. For numbers with the same unit everything follows from the same fact
about integers. The unit is not constant, though, and near a power of two the two sides
of it have different ones; that is the only difficulty, and the powers of two resolve
it, since each of them is a number of the format for either side.
-/

section Integers

variable {K : Type} [Field K] [LinearOrder K] [FloorRing K]

/-- **The nearest integer**, and the even one of two.

Ties go to the even neighbour, which is the rounding mode of IEEE 754 that is
in force unless a program changes it. This program does not. -/
def roundEven (x : K) : ℤ :=
  if Int.fract x < 1 / 2 then ⌊x⌋
  else if 1 / 2 < Int.fract x then ⌊x⌋ + 1
  else ⌊x⌋ + ⌊x⌋ % 2

variable {x y : K}

theorem floor_le_roundEven (x : K) : ⌊x⌋ ≤ roundEven x := by
  unfold roundEven
  split_ifs <;> omega

theorem roundEven_le_floor (x : K) : roundEven x ≤ ⌊x⌋ + 1 := by
  unfold roundEven
  split_ifs <;> omega

variable [IsStrictOrderedRing K]

@[simp] theorem roundEven_intCast (k : ℤ) : roundEven (k : K) = k := by
  rw [roundEven, Int.fract_intCast, if_pos (by norm_num), Int.floor_intCast]

/-- **The order is kept.** -/
theorem roundEven_mono (h : x ≤ y) : roundEven x ≤ roundEven y := by
  rcases (Int.floor_mono h).lt_or_eq with hlt | heq
  · exact (roundEven_le_floor x).trans ((Int.add_one_le_of_lt hlt).trans (floor_le_roundEven y))
  · have hfract : Int.fract x ≤ Int.fract y := by
      unfold Int.fract
      rw [heq]
      linarith
    have hmod := Int.emod_two_eq_zero_or_one ⌊y⌋
    unfold roundEven
    rw [heq]
    split_ifs <;> first | omega | linarith

/-- An integer that bounds a number bounds the integer that is nearest to it. -/
theorem le_roundEven {k : ℤ} (h : (k : K) ≤ x) : k ≤ roundEven x := by
  rw [← roundEven_intCast (K := K) k]
  exact roundEven_mono h

theorem roundEven_le {k : ℤ} (h : x ≤ k) : roundEven x ≤ k := by
  rw [← roundEven_intCast (K := K) k]
  exact roundEven_mono h

/-- **At most one half is lost.** -/
theorem abs_roundEven_sub_le (x : K) : |(roundEven x : K) - x| ≤ 1 / 2 := by
  have hx := Int.floor_add_fract x
  have hnonneg := Int.fract_nonneg x
  have hlt := Int.fract_lt_one x
  unfold roundEven
  rw [abs_le]
  rcases lt_trichotomy (Int.fract x) (1 / 2) with h | h | h
  · rw [if_pos h]
    constructor <;> linarith
  · rw [if_neg h.not_lt, if_neg h.not_gt]
    rcases Int.emod_two_eq_zero_or_one ⌊x⌋ with hmod | hmod <;> rw [hmod] <;> push_cast <;>
      constructor <;> linarith
  · rw [if_neg h.le.not_gt, if_pos h]
    push_cast
    constructor <;> linarith

/-- Both signs are rounded alike. -/
theorem roundEven_neg (x : K) : roundEven (-x) = -roundEven x := by
  by_cases hfract : Int.fract x = 0
  · obtain ⟨k, rfl⟩ : ∃ k : ℤ, (k : K) = x := ⟨⌊x⌋, by
      have := Int.floor_add_fract x
      rwa [hfract, add_zero] at this⟩
    rw [← Int.cast_neg, roundEven_intCast, roundEven_intCast]
  · have hneg := Int.fract_neg hfract
    have hfloor : ⌊-x⌋ = -⌊x⌋ - 1 := by
      have hx := Int.floor_add_fract x
      have hx' := Int.floor_add_fract (-x)
      have hcast : ((⌊-x⌋ : ℤ) : K) = ((-⌊x⌋ - 1 : ℤ) : K) := by
        push_cast
        linarith
      exact Int.cast_injective hcast
    have hmod := Int.emod_two_eq_zero_or_one ⌊x⌋
    unfold roundEven
    rw [hneg, hfloor]
    split_ifs <;> first | omega | linarith

end Integers

/-- **A binary format**: how many bits there are, and which exponent is the least. -/
structure BinaryFormat where
  /-- The number of bits. -/
  precision : ℕ
  /-- There is one. -/
  precision_pos : 0 < precision
  /-- The least exponent. -/
  minExponent : ℤ

namespace BinaryFormat

variable {K : Type} [Field K] [LinearOrder K] [FloorRing K] [IsStrictOrderedRing K]

/-! ## Powers of two -/

omit [LinearOrder K] [FloorRing K] [IsStrictOrderedRing K] in
/-- A power of two is a multiple of a smaller one. -/
theorem zpow_multiple [NeZero (2 : K)] {e t : ℤ} (h : e ≤ t) :
    (2 : K) ^ t = ((2 ^ (t - e).toNat : ℤ) : K) * 2 ^ e := by
  rw [Int.cast_pow, Int.cast_ofNat, ← zpow_natCast, Int.toNat_of_nonneg (sub_nonneg.mpr h),
    ← zpow_add₀ two_ne_zero, sub_add_cancel]

theorem zpow_log_le {x : K} (hx : x ≠ 0) : (2 : K) ^ Int.log 2 |x| ≤ |x| := by
  have := Int.zpow_log_le_self one_lt_two (abs_pos.mpr hx)
  rwa [Nat.cast_ofNat] at this

theorem lt_zpow_log (x : K) : |x| < (2 : K) ^ (Int.log 2 |x| + 1) := by
  have := Int.lt_zpow_succ_log_self one_lt_two |x|
  rwa [Nat.cast_ofNat] at this

/-- A bound on a number bounds its logarithm. -/
theorem log_lt_of_lt {x : K} {t : ℤ} (hx : x ≠ 0) (h : |x| < 2 ^ t) : Int.log 2 |x| < t :=
  (zpow_lt_zpow_iff_right₀ one_lt_two).mp ((zpow_log_le hx).trans_lt h)

theorem log_le_log {x y : K} (hx : 0 < x) (h : x ≤ y) : Int.log 2 |x| ≤ Int.log 2 |y| :=
  Int.log_mono_right (abs_pos.mpr hx.ne') (by rwa [abs_of_pos hx, abs_of_pos (hx.trans_le h)])

/-! ## Rounding -/

variable (F : BinaryFormat)

/-- **The exponent of the last place** of a number.

The maximum is what makes small numbers lose precision gradually: below the
normal range the unit stays the same. -/
def exponent (x : K) : ℤ := max (Int.log 2 |x| + 1 - F.precision) F.minExponent

/-- **The nearest number of the format**, if it is not too large. -/
def round (x : K) : K := (roundEven (x / 2 ^ F.exponent x) : K) * 2 ^ F.exponent x

variable {F} {x y : K}

omit [IsStrictOrderedRing K] in
theorem minExponent_le (x : K) : F.minExponent ≤ F.exponent x := le_max_right _ _

theorem exponent_mono (hx : 0 < x) (h : x ≤ y) : F.exponent x ≤ F.exponent y :=
  max_le_max_right _ (by have := log_le_log hx h; omega)

theorem unit_pos (x : K) : (0 : K) < 2 ^ F.exponent x := zpow_pos two_pos _

@[simp] theorem round_zero : F.round (0 : K) = 0 := by
  rw [round, zero_div, ← Int.cast_zero (R := K), roundEven_intCast, Int.cast_zero, zero_mul]

omit [IsStrictOrderedRing K] in
theorem exponent_neg (x : K) : F.exponent (-x) = F.exponent x := by
  rw [exponent, exponent, abs_neg]

theorem round_neg (x : K) : F.round (-x) = -F.round x := by
  rw [round, round, exponent_neg, neg_div, roundEven_neg, Int.cast_neg, neg_mul]

/-- **A multiple of the last place bounds what is rounded.** -/
theorem round_le_multiple {k : ℤ} (h : x ≤ k * 2 ^ F.exponent x) :
    F.round x ≤ k * 2 ^ F.exponent x :=
  mul_le_mul_of_nonneg_right
    (Int.cast_le.mpr (roundEven_le ((div_le_iff₀ (unit_pos x)).mpr h))) (unit_pos x).le

theorem multiple_le_round {k : ℤ} (h : k * 2 ^ F.exponent x ≤ x) :
    k * 2 ^ F.exponent x ≤ F.round x :=
  mul_le_mul_of_nonneg_right
    (Int.cast_le.mpr (le_roundEven ((le_div_iff₀ (unit_pos x)).mpr h))) (unit_pos x).le

/-- A multiple of the last place is not changed. -/
theorem round_multiple {k : ℤ} (h : x = k * 2 ^ F.exponent x) : F.round x = x := by
  have hdiv : x / 2 ^ F.exponent x = k := by rw [div_eq_iff (unit_pos x).ne', ← h]
  rw [round, hdiv, roundEven_intCast, ← h]

theorem round_nonneg (h : 0 ≤ x) : 0 ≤ F.round x := by
  have hzero : ((0 : ℤ) : K) * 2 ^ F.exponent x ≤ x := by rwa [Int.cast_zero, zero_mul]
  have hround := multiple_le_round hzero
  rwa [Int.cast_zero, zero_mul] at hround

/-- The order is kept where the numbers are positive. -/
theorem round_mono_pos (hx : 0 < x) (h : x ≤ y) : F.round x ≤ F.round y := by
  rcases (exponent_mono (F := F) hx h).eq_or_lt with heq | hlt
  · rw [round, round, heq]
    exact mul_le_mul_of_nonneg_right (Int.cast_le.mpr (roundEven_mono
      (div_le_div_of_nonneg_right h (unit_pos y).le))) (unit_pos y).le
  · -- the power of two below `y` is a multiple of the last place of both numbers
    have hy : 0 < y := hx.trans_le h
    have hpos := F.precision_pos
    have hmin := minExponent_le (F := F) x
    have hlog : F.exponent y = Int.log 2 |y| + 1 - F.precision := by
      unfold exponent at hlt hmin ⊢
      omega
    have hlogs : Int.log 2 |x| + 1 ≤ Int.log 2 |y| := by
      unfold exponent at hlt hlog
      omega
    have hle : F.round x ≤ 2 ^ Int.log 2 |y| := by
      rw [zpow_multiple (show F.exponent x ≤ Int.log 2 |y| by omega)]
      refine round_le_multiple ?_
      rw [← zpow_multiple (show F.exponent x ≤ Int.log 2 |y| by omega)]
      exact (le_abs_self x).trans ((lt_zpow_log x).le.trans
        (zpow_le_zpow_right₀ one_le_two hlogs))
    have hge : 2 ^ Int.log 2 |y| ≤ F.round y := by
      rw [zpow_multiple (show F.exponent y ≤ Int.log 2 |y| by omega)]
      refine multiple_le_round ?_
      rw [← zpow_multiple (show F.exponent y ≤ Int.log 2 |y| by omega)]
      exact (zpow_log_le hy.ne').trans (abs_of_pos hy).le
    exact hle.trans hge

/-- **The order is kept.**

The sums of non-negative numbers rely on it: a partial sum is not larger than
a longer one, rounded at every step. -/
theorem round_mono : Monotone (F.round : K → K) := by
  intro x y h
  rcases lt_or_ge 0 x with hx | hx
  · exact round_mono_pos hx h
  · have hround : F.round x ≤ 0 := by
      have := round_nonneg (F := F) (neg_nonneg.mpr hx)
      rw [round_neg] at this
      exact neg_nonneg.mp this
    rcases le_or_gt 0 y with hy | hy
    · exact hround.trans (round_nonneg hy)
    · have := round_mono_pos (F := F) (neg_pos.mpr hy) (neg_le_neg h)
      rw [round_neg, round_neg] at this
      exact neg_le_neg_iff.mp this

/-- **What has few enough bits is not changed.**

The bound is not strict: the next power of two has a mantissa of one bit more,
but it can be written with one bit. -/
theorem round_eq_self {m e : ℤ} (hm : |m| ≤ 2 ^ F.precision) (he : F.minExponent ≤ e) :
    F.round (m * 2 ^ e : K) = m * 2 ^ e := by
  -- a number of so many bits is a multiple of the last place
  have hlt : ∀ m e : ℤ, |m| < 2 ^ F.precision → F.minExponent ≤ e →
      F.round (m * 2 ^ e : K) = m * 2 ^ e := by
    intro m e hm he
    rcases eq_or_ne m 0 with rfl | hne
    · rw [Int.cast_zero, zero_mul, round_zero]
    · have hx : (m * 2 ^ e : K) ≠ 0 := mul_ne_zero (Int.cast_ne_zero.mpr hne)
        (zpow_ne_zero _ two_ne_zero)
      have hbound : |(m * 2 ^ e : K)| < 2 ^ (F.precision + e) := by
        rw [abs_mul, abs_of_pos (zpow_pos two_pos e : (0 : K) < 2 ^ e), zpow_add₀ two_ne_zero]
        refine mul_lt_mul_of_pos_right ?_ (zpow_pos two_pos e)
        rw [← Int.cast_abs, zpow_natCast]
        exact_mod_cast hm
      have hlog := log_lt_of_lt hx hbound
      have hexp : F.exponent (m * 2 ^ e : K) ≤ e := by
        unfold exponent
        omega
      refine round_multiple (k := m * 2 ^ (e - F.exponent (m * 2 ^ e : K)).toNat) ?_
      rw [Int.cast_mul, mul_assoc, ← zpow_multiple hexp]
  rcases hm.lt_or_eq with hm | hm
  · exact hlt m e hm he
  · -- the next power of two has one bit
    obtain ⟨n, hn⟩ := Nat.exists_eq_add_one.mpr F.precision_pos
    obtain ⟨s, hs, hsm⟩ : ∃ s : ℤ, |s| = 1 ∧ m = s * 2 ^ n * 2 := by
      rw [hn, pow_succ] at hm
      rcases abs_eq (by positivity) |>.mp hm with h | h
      · exact ⟨1, rfl, by rw [h, one_mul]⟩
      · exact ⟨-1, rfl, by rw [h]; ring⟩
    have hhalf := hlt (s * 2 ^ n) (e + 1) (by
      rw [abs_mul, hs, one_mul, abs_of_pos (by positivity), hn]
      exact pow_lt_pow_right₀ one_lt_two (Nat.lt_succ_self n)) (by omega)
    have hsame : (m * 2 ^ e : K) = ((s * 2 ^ n : ℤ) : K) * 2 ^ (e + 1) := by
      rw [hsm, zpow_add_one₀ two_ne_zero]
      push_cast
      ring
    rw [hsame, hhalf]

/-- The integer of what is rounded has few enough bits. -/
theorem abs_roundEven_le (x : K) :
    |roundEven (x / 2 ^ F.exponent x)| ≤ 2 ^ F.precision := by
  have hbound : |x / 2 ^ F.exponent x| ≤ ((2 ^ F.precision : ℤ) : K) := by
    rw [abs_div, abs_of_pos (unit_pos x), div_le_iff₀ (unit_pos x), Int.cast_pow, Int.cast_ofNat,
      ← zpow_natCast, ← zpow_add₀ two_ne_zero]
    refine (lt_zpow_log x).le.trans (zpow_le_zpow_right₀ one_le_two ?_)
    unfold exponent
    omega
  obtain ⟨hge, hle⟩ := abs_le.mp hbound
  rw [abs_le]
  refine ⟨le_roundEven ?_, roundEven_le hle⟩
  rwa [Int.cast_neg]

theorem round_round (x : K) : F.round (F.round x) = F.round x :=
  round_eq_self (abs_roundEven_le x) (minExponent_le x)

/-- **Half a unit in the last place is lost** at most.

Relative for numbers in the normal range and absolute below it. Both terms are
there, so that no case has to be distinguished where it is used. -/
theorem round_error (x : K) :
    |F.round x - x| ≤ 2 ^ (-F.precision : ℤ) * |x| + 2 ^ (F.minExponent - 1) := by
  have hunit := unit_pos (F := F) x
  have hsplit : F.round x - x
      = ((roundEven (x / 2 ^ F.exponent x) : K) - x / 2 ^ F.exponent x) * 2 ^ F.exponent x := by
    rw [sub_mul, div_mul_cancel₀ _ hunit.ne']
    rfl
  have hhalf : |F.round x - x| ≤ 2 ^ (F.exponent x - 1) := by
    rw [hsplit, abs_mul, abs_of_pos hunit, zpow_sub_one₀ two_ne_zero, mul_comm (2 ^ F.exponent x)]
    refine mul_le_mul_of_nonneg_right ((abs_roundEven_sub_le _).trans ?_) hunit.le
    rw [one_div]
  have htiny : (0 : K) < 2 ^ (F.minExponent - 1) := zpow_pos two_pos _
  have hrel : (0 : K) ≤ 2 ^ (-F.precision : ℤ) * |x| :=
    mul_nonneg (zpow_pos two_pos _).le (abs_nonneg x)
  rcases eq_or_ne x 0 with rfl | hx
  · rw [round_zero, sub_zero, abs_zero, mul_zero, zero_add]
    exact htiny.le
  rcases max_choice (Int.log 2 |x| + 1 - F.precision) F.minExponent with h | h
  · have hexp : F.exponent x - 1 = -F.precision + Int.log 2 |x| := by
      unfold exponent
      omega
    rw [hexp, zpow_add₀ two_ne_zero] at hhalf
    have := mul_le_mul_of_nonneg_left (zpow_log_le hx)
      (zpow_pos two_pos (-F.precision : ℤ) : (0 : K) < _).le
    linarith
  · rw [show F.exponent x = F.minExponent from h] at hhalf
    linarith

/-- **Rounding to a binary format.**

From here on nothing is used of the format but that it is a rounding with this
error. -/
def rounding (F : BinaryFormat) : Rounding K where
  round := F.round
  mono := round_mono
  idem := round_round
  unit := 2 ^ (-F.precision : ℤ)
  unit_nonneg := (zpow_pos two_pos _).le
  tiny := 2 ^ (F.minExponent - 1)
  error := round_error

/-- Integers of so many bits are numbers of the format. -/
theorem exact_intCast (h : F.minExponent ≤ 0) {k : ℤ} (hk : |k| ≤ 2 ^ F.precision) :
    (F.rounding : Rounding K).Exact (k : K) := by
  have := round_eq_self (K := K) hk h
  rwa [zpow_zero, mul_one] at this

end BinaryFormat
