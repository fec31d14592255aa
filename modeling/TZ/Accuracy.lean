import TZ.Packing
import TZ.Shown

/-!
# How accurate the statistics are

The server computes with doubles. Every operation is rounded, the order of the rows
matters, and a sum may leave the finite numbers. This module says what that comes to:
where the coordinates are finite and bounded, so is every figure, and it differs from
the exact one by no more than the bounds of `TZ.Rounding`, in whatever order the rows
are listed (`Statistics.entryOf_close`). So a client that asks prints figures that are
accurate for what the others have drawn (`statistics_accurate`).

The bounds on the errors are numbers (`Statistics.meanError`, `Statistics.sumError`): the
mean of `n` coordinates that are at most `b` is exact up to about `b * n * 2 ^ (-54)`.

What has to be excluded first is that there is no number at all. A sum of finite doubles
may overflow, and from then on every figure is infinite or a NaN. Here the bound on the
coordinates and the 32 bits of the counter do it, and the same bound makes the partial
sums, whose magnitudes enter the error, small.

The order of the rows is not known, and a sum of doubles depends on it. So no statement
is made about the figure itself; it is shown to be close to an exact figure that does
not depend on the order, and for every order the distance is the same bound.
-/

open Server

/-! ## Doubles that stand for numbers

The doubles of the server are 64 bits, and its operations those of Lean's floats, of
which `TZ.Packing` says what they compute. Here this is put in the form in which the
loop uses it: if the operands stand for numbers and the result is not too large, it
stands for the rounded number. -/

namespace Binary64

/-- It is no infinity, and no NaN. -/
def Finite (x : Binary64) : Prop := x.toFloat.isFinite = true

/-- **The number a double stands for.** -/
def value (x : Binary64) : ℚ := Ieee.number x.toFloat

/-- **A double stands for a number.**

A relation and not a function, so that a statement about a double that is no
number cannot be made by accident. -/
structure StandsFor (x : Binary64) (q : ℚ) : Prop where
  /-- It is finite. -/
  finite : x.Finite
  /-- Its number. -/
  value : x.value = q

/-- What is finite is no NaN. -/
theorem Finite.isNaN_eq_false {x : Binary64} (h : x.Finite) : Double.isNaN x = false := by
  refine Bool.eq_false_iff.mpr fun hnan => Bool.false_ne_true ?_
  exact (Ieee.isFinite_nan (of_decide_eq_true hnan)).symm.trans h

theorem bits_of_isZero {x : Binary64} (h : Double.isZero x = true) :
    x = ⟨0⟩ ∨ x = ⟨0x8000000000000000⟩ := by
  have hmask : (x.bits &&& 0x7FFFFFFFFFFFFFFF).toNat = x.bits.toNat % 2 ^ 63 := by
    rw [UInt64.toNat_and]
    exact Nat.and_two_pow_sub_one_eq_mod _ 63
  have hbits : x.bits &&& 0x7FFFFFFFFFFFFFFF = 0 := eq_of_beq h
  rw [hbits] at hmask
  have hzero : x.bits.toNat % 2 ^ 63 = 0 := hmask.symm
  have hlt := x.bits.toNat_lt
  obtain ⟨bits⟩ := x
  have : bits.toNat = 0 ∨ bits.toNat = 2 ^ 63 := by
    have : bits.toNat % 2 ^ 63 = 0 := hzero
    have : bits.toNat < 2 ^ 64 := hlt
    omega
  exact this.imp (fun h => congrArg mk (UInt64.toNat_inj.mp h))
    fun h => congrArg mk (UInt64.toNat_inj.mp h)

/-- How a double is rounded. -/
def rounding : Rounding ℚ := Ieee.double.rounding

variable {x y : Binary64} {p q : ℚ}

theorem Finite.standsFor (h : x.Finite) : x.StandsFor x.value := ⟨h, rfl⟩

@[simp] theorem toFloat_ofFloat (f : Float) : (ofFloat f).toFloat = f := Float.ofBits_toBits f

theorem standsFor_ofFloat {f : Float} (h : f.isFinite = true ∧ Ieee.number f = q) :
    (ofFloat f).StandsFor q :=
  ⟨show (ofFloat f).toFloat.isFinite = true by rw [toFloat_ofFloat, h.1],
    show Ieee.number (ofFloat f).toFloat = q by rw [toFloat_ofFloat, h.2]⟩

theorem standsFor_zero : (Double.zero : Binary64).StandsFor 0 :=
  ⟨show (Float.ofBits 0).isFinite = true by decide +kernel,
    show Ieee.number (Float.ofBits 0) = 0 by decide +kernel⟩

/-- **The wire keeps the number**, though not the sign of a zero. -/
theorem StandsFor.received (h : x.StandsFor q) : (ServerStatistic.received x).StandsFor q := by
  unfold ServerStatistic.received
  split_ifs with hzero
  · have hval : x.value = 0 := by
      rcases bits_of_isZero hzero with rfl | rfl
      · show Ieee.number (Float.ofBits 0) = 0
        decide +kernel
      · show Ieee.number (Float.ofBits 0x8000000000000000) = 0
        decide +kernel
    rw [← h.value, hval]
    exact standsFor_zero
  · exact h

/-- **A sum is rounded.** -/
theorem StandsFor.add (hx : x.StandsFor p) (hy : y.StandsFor q)
    (h : |rounding.round (p + q)| < 2 ^ (1024 : ℤ)) :
    (Double.add x y).StandsFor (rounding.round (p + q)) := by
  obtain ⟨hx, rfl⟩ := hx
  obtain ⟨hy, rfl⟩ := hy
  exact standsFor_ofFloat (Ieee.number_add hx hy h)

/-- **A quotient is rounded.** -/
theorem StandsFor.divInt (hx : x.StandsFor p) {n : ℕ} (hpos : 0 < n) (hn : n < 2 ^ 53)
    (h : |rounding.round (p / n)| < 2 ^ (1024 : ℤ)) :
    (Double.divInt x (n : ℤ)).StandsFor (rounding.round (p / n)) := by
  obtain ⟨hx, rfl⟩ := hx
  obtain ⟨hfinite, hval⟩ := Ieee.number_ofNat hn
  have hdiv := Ieee.number_div hx hfinite (by rw [hval]; exact Nat.cast_ne_zero.mpr hpos.ne')
    (by rw [hval]; exact h)
  rw [hval] at hdiv
  exact standsFor_ofFloat hdiv

/-- **A magnitude is exact.** -/
theorem StandsFor.abs (hx : x.StandsFor p) : (Double.abs x).StandsFor |p| := by
  obtain ⟨hx, rfl⟩ := hx
  exact standsFor_ofFloat (Ieee.number_abs hx)

/-- **The multiples of a bound are exact**, for as many as an `int` counts.

This is what bounds the sums: the bound times a count is a number of the
format, so a rounded sum does not get beyond it, however often it was rounded
up. -/
theorem multiples {b : ℕ} (hb : b ≤ 2 ^ 22) : rounding.Multiples (b : ℚ) (2 ^ 31) := by
  have hexact : ∀ k : ℕ, k ≤ 2 ^ 31 → rounding.Exact ((k : ℚ) * b) := by
    intro k hk
    have hle : k * b ≤ 2 ^ 31 * 2 ^ 22 := Nat.mul_le_mul hk hb
    rw [← Nat.cast_mul]
    exact Ieee.round_natCast hle
  refine ⟨hexact, fun k hk => ?_⟩
  exact (BinaryFormat.round_neg _).trans (congrArg (- ·) (hexact k hk))

end Binary64

/-! ## Samples of doubles

A sample of doubles says something exactly, and that is a sample of rationals, to
which the definitions of `TZ.Statistics` apply. The exact figures are theirs. -/

namespace Sample

/-- What a sample says exactly. -/
def exact (p : Sample Binary64) : Sample ℚ := ⟨p.timestamp, p.x.value, p.y.value⟩

/-- **The coordinates are finite and bounded.** -/
structure Within (b : ℕ) (p : Sample Binary64) : Prop where
  /-- The first is finite. -/
  finite_x : p.x.Finite
  /-- The second is finite. -/
  finite_y : p.y.Finite
  /-- The first is bounded. -/
  abs_x_le : |p.x.value| ≤ b
  /-- The second is bounded. -/
  abs_y_le : |p.y.value| ≤ b

/-- The coordinates of samples are bounded. -/
def Bounded (b : ℕ) (l : List (Sample ℚ)) : Prop := ∀ q ∈ l, |q.x| ≤ b ∧ |q.y| ≤ b

theorem Bounded.since {b : ℕ} {l : List (Sample ℚ)} (h : Bounded b l) (start : Int) :
    Bounded b (since start l) :=
  fun q hq => h q (List.mem_of_mem_filter hq)

theorem Bounded.concat {b : ℕ} {l : List (Sample ℚ)} (h : Bounded b l) {p : Sample Binary64}
    (hp : p.Within b) : Bounded b (l ++ [p.exact]) := fun q hq =>
  (List.mem_append.mp hq).elim (h q) fun hq =>
    List.mem_singleton.mp hq ▸ ⟨hp.abs_x_le, hp.abs_y_le⟩

/-- A later window is a part of an earlier one. -/
theorem since_sublist {K : Type} {start start' : Int} (h : start ≤ start')
    (l : List (Sample K)) : (since start' l).Sublist (since start l) :=
  List.monotone_filter_right l fun p hp => by
    rw [decide_eq_true_eq] at *
    exact h.trans hp

end Sample

namespace Statistics

open Sample Binary64

/-- What the packets of a list say exactly. -/
def exactSamples (packets : List (Packet Binary64)) : List (Sample ℚ) :=
  packets.map fun p => p.sample.exact

theorem bounded_exactSamples {b : ℕ} {packets : List (Packet Binary64)}
    (h : ∀ p ∈ packets, p.sample.Within b) : Bounded b (exactSamples packets) :=
  List.forall_mem_map.mpr fun p hp => ⟨(h p hp).abs_x_le, (h p hp).abs_y_le⟩

/-- The first coordinates of a window. -/
def xs (l : List (Sample ℚ)) : List ℚ := l.map Sample.x

/-- The magnitudes of the second coordinates of a window. -/
def ys (l : List (Sample ℚ)) : List ℚ := l.map fun p => |p.y|

/-- **The bound on the error of a mean** of so many coordinates that are at most `b`.

Relative to the bound on the coordinates, and of the first order in the number
of rows. The last term is for results below the normal range. -/
def meanError (b n : ℕ) : ℚ := 2 ^ (-54 : ℤ) * (b * (n + 3)) + 2 ^ (-1074 : ℤ)

/-- **The bound on the error of a sum.** -/
def sumError (b n : ℕ) : ℚ := 2 ^ (-54 : ℤ) * (b * (n * (n + 1))) + n * 2 ^ (-1075 : ℤ)

/-- The rounding of a double has this relative error, and this absolute one. -/
theorem rounding_unit : rounding.unit = 2 ^ (-54 : ℤ) * 2 :=
  (show rounding.unit = 2 ^ (-54 + 1 : ℤ) from rfl).trans (zpow_add_one₀ two_ne_zero (-54))

theorem rounding_tiny : rounding.tiny = 2 ^ (-1075 : ℤ) := rfl

theorem sumError_eq (b n : ℕ) : rounding.sumError b n = sumError b n := by
  unfold Rounding.sumError sumError
  rw [rounding_unit, rounding_tiny]
  -- powers of two with such exponents are not to be computed
  generalize (2 : ℚ) ^ (-54 : ℤ) = unit
  generalize (2 : ℚ) ^ (-1075 : ℤ) = tiny
  induction n with
  | zero =>
    rw [Finset.sum_range_zero, Nat.cast_zero]
    ring
  | succ n ih =>
    rw [Finset.sum_range_succ, ih]
    push_cast
    ring

theorem meanError_eq (b : ℕ) {n : ℕ} (hn : n ≠ 0) :
    rounding.meanError b n = meanError b n := by
  have hn : (n : ℚ) ≠ 0 := Nat.cast_ne_zero.mpr hn
  unfold Rounding.meanError meanError
  rw [sumError_eq, sumError, rounding_unit, rounding_tiny, show (-1074 : ℤ) = -1075 + 1 from rfl,
    zpow_add_one₀ two_ne_zero]
  generalize (2 : ℚ) ^ (-54 : ℤ) = unit
  generalize (2 : ℚ) ^ (-1075 : ℤ) = tiny
  field_simp
  ring

theorem meanError_nonneg (b n : ℕ) : 0 ≤ meanError b n := by
  have hunit : (0 : ℚ) < 2 ^ (-54 : ℤ) := zpow_pos two_pos _
  have htiny : (0 : ℚ) < 2 ^ (-1074 : ℤ) := zpow_pos two_pos _
  unfold meanError
  generalize (2 : ℚ) ^ (-54 : ℤ) = unit at *
  generalize (2 : ℚ) ^ (-1074 : ℤ) = tiny at *
  positivity

/-- **The figures of a window are accurate.** They are finite, the mean is within the
bound of the coordinates, the sum is not negative and at most what they allow, and
both differ from the exact ones by the errors of rounding.

The figures are sandwiched as well as close: a mean that is within the error
could otherwise be beyond the bound of what it is the mean of. -/
structure Close (b : ℕ) (l : List (Sample ℚ)) (x y : Binary64) : Prop where
  /-- The mean is finite. -/
  finite_x : x.Finite
  /-- The sum is finite. -/
  finite_y : y.Finite
  /-- The mean is within the bound. -/
  abs_x_le : |x.value| ≤ b
  /-- The sum is not negative. -/
  y_nonneg : 0 ≤ y.value
  /-- The sum is at most what the coordinates allow. -/
  y_le : y.value ≤ l.length * b
  /-- The error of the mean. -/
  x_error : |x.value - meanX l| ≤ meanError b l.length
  /-- The error of the sum. -/
  y_error : |y.value - totalY l| ≤ sumError b l.length

/-! ## The loop over the packets of a client

The loop is the one of the source, on doubles. Its state is described by the rounded
sums of what it has gone over, in the order in which it has. -/

/-- **The local variables of the loop about one window**, in terms of what the rows it
has gone over say. -/
structure Rounded (l : List (Sample ℚ)) (sumX y : Binary64) (count : Int) (needToAdd : Bool) :
    Prop where
  /-- The sum of the first coordinates. -/
  sumX : sumX.StandsFor (rounding.sum (xs l))
  /-- The sum of the magnitudes of the second ones. -/
  y : y.StandsFor (rounding.sum (ys l))
  /-- The number of rows. -/
  count : count = l.length
  /-- Whether there is one. -/
  needToAdd : needToAdd = !l.isEmpty

variable {b : ℕ} {l : List (Sample ℚ)} {sumX y : Binary64} {count : Int} {needToAdd : Bool}

theorem rounded_nil : Rounded [] (Double.zero : Binary64) Double.zero 0 false :=
  ⟨standsFor_zero, standsFor_zero, rfl, rfl⟩

/-- A sum of so many terms is not too large. -/
theorem abs_sum_lt (hb : b ≤ 2 ^ 22) {l : List ℚ} (hl : ∀ x ∈ l, |x| ≤ b)
    (hlen : l.length ≤ 2 ^ 31) : |rounding.sum l| < 2 ^ (1024 : ℤ) := by
  have hle : l.length * b ≤ 2 ^ 31 * 2 ^ 22 := Nat.mul_le_mul hlen hb
  refine (Rounding.abs_sum_le (multiples hb) hl hlen).trans_lt ?_
  rw [← Nat.cast_mul, ← Nat.abs_cast]
  exact Ieee.abs_natCast_lt hle

/-- The next term is added. -/
theorem standsFor_sum_concat (hb : b ≤ 2 ^ 22) {l : List ℚ} {q : ℚ} {s x : Binary64}
    (hs : s.StandsFor (rounding.sum l)) (hx : x.StandsFor q) (hl : ∀ x ∈ l ++ [q], |x| ≤ b)
    (hlen : (l ++ [q]).length ≤ 2 ^ 31) :
    (Double.add s x).StandsFor (rounding.sum (l ++ [q])) := by
  have hlt := abs_sum_lt hb hl hlen
  rw [Rounding.sum_concat] at hlt ⊢
  exact hs.add hx hlt

/-- **A row of the window.**

Three operations on doubles – two additions and a magnitude – and one on the
counter. -/
theorem Rounded.concat (h : Rounded l sumX y count needToAdd) (hb : b ≤ 2 ^ 22)
    {p : Sample Binary64} (hp : p.Within b) (hl : Bounded b l) (hlen : l.length + 1 < 2 ^ 31) :
    Rounded (l ++ [p.exact]) (Double.add sumX p.x) (Double.add y (Double.abs p.y))
      (increment count) true := by
  have hall := hl.concat hp
  refine ⟨?_, ?_, ?_, by simp⟩
  · have hxs : xs (l ++ [p.exact]) = xs l ++ [p.x.value] := List.map_append
    rw [hxs]
    refine standsFor_sum_concat hb h.sumX hp.finite_x.standsFor ?_ ?_
    · rw [← hxs]
      exact List.forall_mem_map.mpr fun q hq => (hall q hq).1
    · rw [List.length_append, xs, List.length_map]
      exact hlen.le
  · have hys : ys (l ++ [p.exact]) = ys l ++ [|p.y.value|] := List.map_append
    rw [hys]
    refine standsFor_sum_concat hb h.y hp.finite_y.standsFor.abs ?_ ?_
    · rw [← hys]
      exact List.forall_mem_map.mpr fun q hq => (abs_abs q.y).trans_le (hall q hq).2
    · rw [List.length_append, ys, List.length_map]
      exact hlen.le
  · rw [h.count, increment_natCast hlen, List.length_append, List.length_singleton]

/-- The local variables of the loop about both windows. -/
structure RoundedSums (start1 start2 : Int) (l : List (Sample ℚ)) (sums : Sums Binary64) :
    Prop where
  /-- The shorter window. -/
  short : Rounded (since start1 l) sums.sumX1 sums.y1 sums.countX1 sums.needToAdd1
  /-- The longer window. -/
  long : Rounded (since start2 l) sums.sumX5 sums.y5 sums.countX5 sums.needToAdd5

/-- **One iteration.** -/
theorem RoundedSums.addPacket {start1 start2 : Int} {sums : Sums Binary64}
    (h : RoundedSums start1 start2 l sums) (hb : b ≤ 2 ^ 22) {p : Packet Binary64}
    (hp : p.sample.Within b) (hl : Bounded b l)
    (hlen : l.length + 1 < 2 ^ 31) :
    RoundedSums start1 start2 (l ++ [p.sample.exact])
      (Collecting.addPacket start1 start2 sums p) := by
  have hcount : ∀ start, (since start l).length + 1 < 2 ^ 31 := fun start =>
    (Nat.succ_le_succ (length_since_le start l)).trans_lt hlen
  have htime : p.sample.exact.timestamp = p.timestamp := rfl
  obtain ⟨hshort, hlong⟩ := h
  unfold Collecting.addPacket Sums.add1 Sums.add5
  constructor
  · rw [since_concat, htime]
    by_cases h₁ : start1 ≤ p.timestamp
    · rw [if_pos h₁, if_pos h₁]
      have := hshort.concat hb hp (hl.since start1) (hcount start1)
      split_ifs <;> exact this
    · rw [if_neg h₁, if_neg h₁, List.append_nil]
      split_ifs <;> exact hshort
  · rw [since_concat, htime]
    by_cases h₂ : start2 ≤ p.timestamp
    · rw [if_pos h₂, if_pos h₂]
      have := hlong.concat hb hp (hl.since start2) (hcount start2)
      split_ifs <;> exact this
    · rw [if_neg h₂, if_neg h₂, List.append_nil]
      split_ifs <;> exact hlong

/-- **The whole loop.**

By induction from the end, as the loop adds at the end. -/
theorem roundedSums_foldl (hb : b ≤ 2 ^ 22) (start1 start2 : Int) {packets : List (Packet Binary64)}
    (hp : ∀ p ∈ packets, p.sample.Within b) (hlen : packets.length < 2 ^ 31) :
    RoundedSums start1 start2 (exactSamples packets)
      (packets.foldl (Collecting.addPacket start1 start2) Sums.zero) := by
  induction packets using List.reverseRecOn with
  | nil => exact ⟨rounded_nil, rounded_nil⟩
  | append_singleton packets p ih =>
    obtain ⟨hpackets, hp⟩ := List.forall_mem_append.mp hp
    rw [List.length_append, List.length_singleton] at hlen
    rw [List.foldl_concat, exactSamples, List.map_append]
    refine (ih hpackets (Nat.lt_of_succ_lt hlen)).addPacket hb (hp p List.mem_cons_self)
      (bounded_exactSamples hpackets) ?_
    rwa [exactSamples, List.length_map]

/-! ## The entry of a client

The division at the end is one more rounding. If there is no row in a window the
source sends a zero, which is exact. -/

/-- **The mean of a window**, or 0 if there is no row in it. -/
theorem Rounded.mean (h : Rounded l sumX y count needToAdd) (hb : b ≤ 2 ^ 22)
    (hl : ∀ x ∈ xs l, |x| ≤ b) (hlen : l.length < 2 ^ 31) (hne : l ≠ []) :
    (if needToAdd then Double.divInt sumX count else Double.zero).StandsFor
      (rounding.mean (xs l)) := by
  have hlength : (xs l).length = l.length := List.length_map _
  have hxs : xs l ≠ [] := fun h => hne (List.map_eq_nil_iff.mp h)
  have hle := Rounding.abs_mean_le (multiples hb) hl (hlength.trans_le hlen.le) hxs
  have hlt : |rounding.mean (xs l)| < 2 ^ (1024 : ℤ) := by
    refine hle.trans_lt ?_
    rw [← Nat.abs_cast]
    exact Ieee.abs_natCast_lt (hb.trans (by decide))
  have hadd : needToAdd = true := by
    rw [h.needToAdd, List.isEmpty_eq_false_iff.mpr hne]
    rfl
  rw [if_pos hadd, h.count, ← hlength]
  exact h.sumX.divInt (List.length_pos_iff.mpr hxs) ((hlength.trans_lt hlen).trans (by decide)) hlt

/-- **The figures of a window.** -/
theorem Rounded.close (h : Rounded l sumX y count needToAdd) (hb : b ≤ 2 ^ 22)
    (hl : Bounded b l) (hlen : l.length < 2 ^ 31) :
    Close b l (if needToAdd then Double.divInt sumX count else Double.zero) y := by
  have hxs : ∀ x ∈ xs l, |x| ≤ b := List.forall_mem_map.mpr fun q hq => (hl q hq).1
  have hys : ∀ y ∈ ys l, |y| ≤ b := List.forall_mem_map.mpr fun q hq =>
    (abs_abs q.y).trans_le (hl q hq).2
  have hxlen : (xs l).length = l.length := List.length_map _
  have hylen : (ys l).length = l.length := List.length_map _
  have hmul := multiples hb
  have hyle := Rounding.abs_sum_le hmul hys (hylen.trans_le hlen.le)
  have hyerror := Rounding.sum_error hmul hys (hylen.trans_le hlen.le)
  have hynonneg := Rounding.sum_nonneg (l := ys l) hmul.zero
    (List.forall_mem_map.mpr fun q _ => abs_nonneg q.y)
  rw [hylen] at hyle hyerror
  rw [sumError_eq] at hyerror
  have hy : ∀ {x : Binary64}, x.Finite → |x.value| ≤ b →
      |x.value - meanX l| ≤ meanError b l.length → Close b l x y := fun hx hxle hxerror =>
    ⟨hx, h.y.finite, hxle, h.y.value.symm ▸ hynonneg,
      h.y.value.symm ▸ (le_abs_self _).trans hyle, hxerror, h.y.value.symm ▸ hyerror⟩
  by_cases hne : l = []
  · subst hne
    have hadd : needToAdd = false := h.needToAdd
    obtain ⟨hfinite, hval⟩ := standsFor_zero
    rw [hadd, if_neg Bool.false_ne_true]
    refine hy hfinite ?_ ?_
    · rw [hval, abs_zero]
      exact Nat.cast_nonneg b
    · rw [hval, show meanX ([] : List (Sample ℚ)) = 0 from rfl, sub_zero, abs_zero]
      exact meanError_nonneg b 0
  · have hxsne : xs l ≠ [] := fun h => hne (List.map_eq_nil_iff.mp h)
    have hxle := Rounding.abs_mean_le hmul hxs (hxlen.trans_le hlen.le) hxsne
    have hxerror := Rounding.mean_error hmul hxs (hxlen.trans_le hlen.le) hxsne
    obtain ⟨hfinite, hval⟩ := h.mean hb hxs hlen hne
    rw [hxlen, meanError_eq b (mt List.length_eq_zero_iff.mp hne)] at hxerror
    refine hy hfinite (hval.symm ▸ hxle) ?_
    rw [hval, meanX_eq]
    exact hxerror

/-- **The entry of a client is accurate**: there is one exactly if there is a row in the
longer window, with accurate figures for both windows, and the shorter one does
not sum up to more than the longer one.

That the sum of the shorter window is not larger survives rounding because a
rounded sum of non-negative terms is monotone in the list
(`Rounding.sum_sublist_le`). -/
def CloseEntry (b : ℕ) (now : Int) (uuid : Bytes) (l : List (Sample ℚ)) :
    Option (ServerStatistic.Statistic Binary64) → Prop
  | none => long now l = []
  | some e => long now l ≠ [] ∧ e.uuid = uuid ∧ Close b (short now l) e.x1 e.y1
    ∧ Close b (long now l) e.x5 e.y5 ∧ e.y1.value ≤ e.y5.value

/-- **The entry the loop makes is accurate**, in whatever order it goes over the rows.

The packets are any list, so the order in which SQLite lists the rows needs no
assumption. -/
theorem entryOf_close (hb : b ≤ 2 ^ 22) (now : Int) (uuid : Bytes)
    {packets : List (Packet Binary64)} (hp : ∀ p ∈ packets, p.sample.Within b)
    (hlen : packets.length < 2 ^ 31) :
    CloseEntry b now uuid (exactSamples packets)
      (Collecting.entryOf now uuid packets) := by
  obtain ⟨hshort, hlong⟩ := roundedSums_foldl hb (now - STATS_INTERVAL_MINUTES_1)
    (now - STATS_INTERVAL_MINUTES_2) hp hlen
  have hl := bounded_exactSamples hp
  have hlength : (exactSamples packets).length < 2 ^ 31 := by rwa [exactSamples, List.length_map]
  unfold Collecting.entryOf
  generalize exactSamples packets = l at *
  generalize packets.foldl (Collecting.addPacket _ _) (Sums.zero : Sums Binary64) = sums at *
  have hwindows : now - STATS_INTERVAL_MINUTES_2 ≤ now - STATS_INTERVAL_MINUTES_1 :=
    sub_le_sub_left (by decide) now
  have hclose : ∀ {start : Int} {sumX y : Binary64} {count : Int} {needToAdd : Bool},
      Rounded (since start l) sumX y count needToAdd → Close b (since start l)
        (if needToAdd then Double.divInt sumX count else Double.zero) y := fun h =>
    h.close hb (hl.since _) ((length_since_le _ l).trans_lt hlength)
  by_cases hempty : long now l = []
  · -- a row in the shorter window would be in the longer one
    have hadd₁ : sums.needToAdd1 = false := by
      rw [hshort.needToAdd, since_eq_nil_of_le hwindows hempty]
      rfl
    have hadd₅ : sums.needToAdd5 = false := by
      rw [hlong.needToAdd, show since _ l = [] from hempty]
      rfl
    unfold Sums.entry
    rw [hadd₁, hadd₅]
    exact hempty
  · have hadd₅ : sums.needToAdd5 = true := by
      rw [hlong.needToAdd, List.isEmpty_eq_false_iff.mpr (show since _ l ≠ [] from hempty)]
      rfl
    have hentry : sums.entry uuid = some
        { uuid := uuid
          x1 := if sums.needToAdd1 then Double.divInt sums.sumX1 sums.countX1 else Double.zero
          y1 := sums.y1
          x5 := if sums.needToAdd5 then Double.divInt sums.sumX5 sums.countX5 else Double.zero
          y5 := sums.y5 } := by
      unfold Sums.entry
      rw [hadd₅, Bool.or_true]
      rfl
    rw [hentry]
    refine ⟨hempty, rfl, hclose hshort, hclose hlong, ?_⟩
    show sums.y1.value ≤ sums.y5.value
    rw [hshort.y.value, hlong.y.value]
    exact Rounding.sum_sublist_le ((since_sublist hwindows l).map _) (multiples hb).zero
      (List.forall_mem_map.mpr fun q _ => abs_nonneg q.y)

/-- What is accurate does not depend on the order of the rows. -/
theorem Close.perm {l l' : List (Sample ℚ)} {x y : Binary64} (h : Close b l x y)
    (hperm : l.Perm l') : Close b l' x y := by
  have hx := h.x_error
  have hle := h.y_le
  have hy := h.y_error
  rw [meanX_perm hperm, hperm.length_eq] at hx
  rw [hperm.length_eq] at hle
  rw [totalY_perm hperm, hperm.length_eq] at hy
  exact ⟨h.finite_x, h.finite_y, h.abs_x_le, h.y_nonneg, hle, hx, hy⟩

theorem CloseEntry.perm {now : Int} {uuid : Bytes} {l l' : List (Sample ℚ)}
    {entry : Option (ServerStatistic.Statistic Binary64)} (h : CloseEntry b now uuid l entry)
    (hperm : l.Perm l') : CloseEntry b now uuid l' entry := by
  have hshort : (short now l).Perm (short now l') := since_perm _ hperm
  have hlong : (long now l).Perm (long now l') := since_perm _ hperm
  cases entry with
  | none => exact List.perm_nil.mp ((show long now l = [] from h) ▸ hlong.symm)
  | some e =>
    obtain ⟨hne, huuid, hclose₁, hclose₅, hle⟩ := h
    refine ⟨fun hnil => hne ?_, huuid, hclose₁.perm hshort, hclose₅.perm hlong, hle⟩
    exact List.perm_nil.mp (hnil ▸ hlong)

/-- What comes over the wire is as accurate. -/
theorem Close.received {x y : Binary64} (h : Close b l x y) :
    Close b l (ServerStatistic.received x) (ServerStatistic.received y) := by
  obtain ⟨hx, hvalx⟩ := h.finite_x.standsFor.received
  obtain ⟨hy, hvaly⟩ := h.finite_y.standsFor.received
  obtain ⟨-, -, hxle, hnonneg, hyle, hxerror, hyerror⟩ := h
  rw [← hvalx] at hxle hxerror
  rw [← hvaly] at hnonneg hyle hyerror
  exact ⟨hx, hy, hxle, hnonneg, hyle, hxerror, hyerror⟩

theorem CloseEntry.received {now : Int} {uuid : Bytes} {l : List (Sample ℚ)}
    {entry : Option (ServerStatistic.Statistic Binary64)} (h : CloseEntry b now uuid l entry) :
    CloseEntry b now uuid l (entry.map ServerStatistic.Statistic.received) := by
  cases entry with
  | none => exact h
  | some e =>
    obtain ⟨hne, huuid, hclose₁, hclose₅, hle⟩ := h
    refine ⟨hne, huuid, hclose₁.received, hclose₅.received, ?_⟩
    show (ServerStatistic.received e.y1).value ≤ (ServerStatistic.received e.y5).value
    rw [hclose₁.finite_y.standsFor.received.value, hclose₅.finite_y.standsFor.received.value]
    exact hle

end Statistics

/-! ## What is printed

The bounds on the coordinates come from the client: it draws them from a distribution
between two constants. Over the wire and through the table they stay what they are, up
to the sign of a zero. -/

namespace Client

/-- `RANDOM_REAL_MIN`. -/
def RANDOM_REAL_MIN : ℚ := -90

/-- `RANDOM_REAL_MAX`. -/
def RANDOM_REAL_MAX : ℚ := 90

/-- **What is drawn from the distribution** of the coordinates: a number between its
bounds. -/
structure Drawn (x : Binary64) : Prop where
  /-- It is a number. -/
  finite : x.Finite
  /-- The lower bound. -/
  min_le : RANDOM_REAL_MIN ≤ x.value
  /-- The upper bound. -/
  le_max : x.value ≤ RANDOM_REAL_MAX

theorem Drawn.abs_value_le {x : Binary64} (h : Drawn x) : |x.value| ≤ (90 : ℕ) :=
  abs_le.mpr ⟨by exact_mod_cast h.min_le, by exact_mod_cast h.le_max⟩

/-- **The packets of a client are within the bounds**, also where they arrive. -/
theorem Sends.within {drawn : Binary64 → Prop} (hdrawn : ∀ x, drawn x → Drawn x) {uuid : Uuid}
    {data : ClientPacket.Data Binary64} (h : Sends drawn uuid data) :
    data.received.sample.Within 90 ∧ data.received.sample.exact = data.sample.exact := by
  obtain ⟨hx, hvalx⟩ := (hdrawn _ h.x).finite.standsFor.received
  obtain ⟨hy, hvaly⟩ := (hdrawn _ h.y).finite.standsFor.received
  refine ⟨⟨hx, hy, ?_, ?_⟩, ?_⟩
  · exact (congrArg abs hvalx).trans_le (hdrawn _ h.x).abs_value_le
  · exact (congrArg abs hvaly).trans_le (hdrawn _ h.y).abs_value_le
  · exact congrArg₂ (Sample.mk data.timestamp) hvalx hvaly

end Client

section Shown

variable {ι : Type} [DecidableEq ι] {E : Engine Binary64} {clock : Int → Prop}
  {W : Protobuf.Writer Binary64} {drawn : Binary64 → Prop}
  {At : W.Stream → List (List UInt8) → Prop} {double : Binary64 → List UInt8} {maxSize : ℕ}
  {roles : ι → Role} {to_string : Binary64 → Bytes} {messages : ι → ℕ}
  {hist : List (Epoch Binary64)} {d₀ : Database Binary64} {s : Store Binary64}
  {boot : List (Event (Database Binary64) (Cmd Binary64) Cmd.Resp)} {N M : Network ι Binary64}
  {turns turns' : List (Turn ι (Database Binary64) (Cmd Binary64) Cmd.Resp)}

/-- **The statistics that are printed are accurate.** Let clients send and ask as in
`statistics_shown`, and draw all coordinates between the bounds of their distribution.
Then of every sender of which a packet had been read when the question had not yet been
asked, whose thread was not at work on one, and whose rows in the file, if it had any,
were within the same bounds, the text has an entry exactly if one of its packets is in
the longer window. Every figure of it is a finite number, the means are within the
bounds of the distribution, the sums are not negative and that of the shorter window is
not the larger one; and each figure differs from the exact mean of the first
coordinates, or the exact sum of the magnitudes of the second ones, by no more than the
errors of rounding – for the rows there were at the start and the first packets the
client has sent, as it has drawn them.

The windows end at the time the thread of the asker has read from the clock between
the question and its reply. Nothing is said of the order in which SQLite lists the rows,
because the bounds hold for the sum in any order. -/
theorem statistics_accurate {a : ι} {text : Bytes} (hW : W.Lawful At double maxSize)
    (hdrawn : ∀ x, drawn x → Client.Drawn x)
    (hroles : ∀ i j uuid, (roles i).uuid = some uuid → (roles j).uuid = some uuid → i = j)
    (hd : History E hist d₀)
    (hboot : Steps (handler E True (fun _ => True)) Eq construct d₀ boot (.ret ()) s.toDatabase)
    (hutf : s.Uuids fun uuid => W.VerifyUTF8 uuid = true)
    (hrun : Network.Run (handler E False clock) W drawn
      (Network.start W to_string s.toDatabase roles messages) turns N)
    (hquiet : (N.connections a).up.written = [])
    (hrun' : Network.Run (handler E False clock) W drawn N turns' M)
    (ha : roles a = .asker) (htext : M.clients a = .ret (some text))
    (hpackets : (M.database.rowsOf PACKETS_TABLE_NAME).length < 2 ^ 31)
    (hclients : (M.database.rowsOf CLIENTS_TABLE_NAME).length ≤ SQLite.sizeMax)
    (hlen : ∀ e ∈ turns ++ turns', ∀ stats, e.2.reply = some stats →
      (stats.SerializeAsString W.toRuntime).length ≤ maxSize) :
    ∃ (stats shown : ServerStatistic Binary64) (now : Int), clock now
      ∧ Replied (ownTurns a turns') stats now
      ∧ shown = ⟨stats.client.map ServerStatistic.Statistic.received⟩
      ∧ text = Client.statsStr to_string shown
      ∧ (shown.client.map ServerStatistic.Statistic.uuid).Nodup
      ∧ ∀ i uuid, (roles i).uuid = some uuid → Idle (N.threads i) →
        0 < (N.connections i).up.taken → (∀ p ∈ s.said uuid.to_string, p.Within 90) →
        ∃ (sent : List (ClientPacket.Data Binary64)) (stored : ℕ)
          (entry : Option (ServerStatistic.Statistic Binary64)),
          (M.connections i).up.written = sent.map (Client.bytes W)
            ∧ (∀ data ∈ sent, Client.Sends drawn uuid data)
            ∧ (N.connections i).up.taken ≤ stored ∧ stored ≤ (M.connections i).up.taken
            ∧ shown.client.filter (fun entry => entry.uuid = uuid.to_string) = entry.toList
            ∧ Statistics.CloseEntry 90 now uuid.to_string
              ((s.said uuid.to_string).map Sample.exact
                ++ (sent.map fun data => data.sample.exact).take stored) entry := by
  have hnan : ∀ x, drawn x → Double.isNaN x = false := fun x hx =>
    (hdrawn x hx).finite.isNaN_eq_false
  have hzero : Double.isNaN (Double.zero : Binary64) = false := by decide
  obtain ⟨s', hs, howned⟩ := hd.owned
  obtain rfl : s = s' := Store.toDatabase_injective ((construct_steps hs hboot).2.1 rfl)
  have hN := hrun.delivers hW hzero hnan hroles
    (Network.satisfies_start hW to_string howned messages)
  have hM := hrun'.delivers hW hzero hnan hroles hN
  obtain ⟨w, hw, hwa, stats, hstats, hshown⟩ :=
    (hrun.append hrun').printed hW hM hutf ha htext hlen
  obtain ⟨t, u, after, now, ht, hu, hnow, hreplied, hnodup, hentries, hafter⟩ :=
    hrun.reply_current hrun' hquiet hclients hw hwa hstats
  rw [hu, Store.rowsOf_packets, List.length_map] at hpackets
  refine ⟨stats, _, now, hnow, hreplied, rfl, hshown, ?_, fun i uuid hi hidle hpos hrows => ?_⟩
  · rwa [List.map_map]
  obtain ⟨sent, stored, packets, hwritten, hsent, hmore, hle, hperm, hcount, hfilter⟩ :=
    hrun'.entry_shown hW hzero hnan hroles hN hi hidle hpos ht hpackets hentries hafter
  have hwithin : ∀ data ∈ sent, data.received.sample.Within 90
      ∧ data.received.sample.exact = data.sample.exact := fun data hdata =>
    (hsent data hdata).within hdrawn
  have hbound : ∀ p ∈ packets, p.sample.Within 90 := by
    intro p hp
    rcases List.mem_append.mp (hperm.mem_iff.mp (List.mem_map_of_mem hp)) with hsaid | hstored
    · exact hrows _ hsaid
    · obtain ⟨data, hdata, heq⟩ := List.mem_map.mp (List.mem_of_mem_take hstored)
      exact heq ▸ (hwithin data hdata).1
  have hexact : (Statistics.exactSamples packets).Perm ((s.said uuid.to_string).map Sample.exact
      ++ (sent.map fun data => data.sample.exact).take stored) := by
    have hsent : (sent.map fun data => data.received.sample).map Sample.exact
        = sent.map fun data => data.sample.exact :=
      List.map_map.trans (List.map_congr_left fun data hdata => (hwithin data hdata).2)
    have := hperm.map Sample.exact
    rwa [List.map_map, List.map_append, List.map_take, hsent] at this
  refine ⟨sent, stored, (Collecting.entryOf now uuid.to_string packets).map
    ServerStatistic.Statistic.received, hwritten, hsent, hmore, hle, ?_, ?_⟩
  · show (stats.client.map ServerStatistic.Statistic.received).filter _ = _
    rw [List.filter_map]
    refine (congrArg (List.map ServerStatistic.Statistic.received) hfilter).trans ?_
    cases Collecting.entryOf now uuid.to_string packets <;> rfl
  · exact ((Statistics.entryOf_close (by decide) now _ hbound hcount).perm hexact).received

end Shown

/-- The one number of such a run is between the bounds. -/
theorem Client.drawn_one : Client.Drawn ⟨1⟩ :=
  ⟨show (Float.ofBits 1).isFinite = true by decide +kernel,
    show (-90 : ℚ) ≤ Ieee.number (Float.ofBits 1) by decide +kernel,
    show Ieee.number (Float.ofBits 1) ≤ 90 by decide +kernel⟩

/-- In particular, where one packet had been saved. -/
theorem statistics_accurate_one :
    ∃ (turns turns' : List (Turn Bool (Database Binary64) (Cmd Binary64) Cmd.Resp))
        (N M : Network Bool Binary64) (stats shown : ServerStatistic Binary64)
        (entry : ServerStatistic.Statistic Binary64),
      Network.PlainRun (fun now => now = 0) (Network.start binary64Writer (fun _ => [])
          Store.empty.toDatabase senderAndAsker fun _ => 1) turns N
        ∧ Network.PlainRun (fun now => now = 0) N turns' M
        ∧ M.clients false = .ret (some (Client.statsStr (fun _ => []) shown))
        ∧ Replied (ownTurns false turns') stats 0
        ∧ shown = ⟨stats.client.map ServerStatistic.Statistic.received⟩
        ∧ shown.client.filter (fun entry => entry.uuid = firstUuid.to_string) = [entry]
        ∧ Statistics.Close 90 [firstData.sample.exact] entry.x1 entry.y1 := by
  obtain ⟨turns, turns', N, M, text, hrun, hrun', hquiet, hidle, hsender, htext, hsame, hpackets,
    hclients, hshort⟩ := exists_shown_runs
  obtain ⟨boot, hboot⟩ := exists_construct (Engine.reference : Engine Binary64) True
    (fun _ => True) (show Database.Holds [] Store.empty from Or.inr ⟨rfl, Or.inl rfl⟩)
  have hdrawn : ∀ x : Binary64, x = ⟨1⟩ → Client.Drawn x := by
    rintro _ rfl
    exact Client.drawn_one
  obtain ⟨stats, shown, now, rfl, hreplied, hshown, rfl, -, hentries⟩ := statistics_accurate
    (a := false) binary64Writer_lawful hdrawn senderAndAsker_distinct .fresh hboot nofun hrun
    (hquiet ▸ rfl) hrun' rfl htext hpackets hclients hshort
  obtain ⟨sent, stored, entry, hwritten, hsends, hle, hle', hfilter, hclose⟩ :=
    hentries true firstUuid rfl (Or.inr (Or.inr hidle)) (by rw [hsender]; exact one_pos) nofun
  rw [hsame, hsender] at hwritten hle'
  rw [hsender] at hle
  obtain rfl : stored = 1 := Nat.le_antisymm hle' hle
  obtain ⟨data, rfl, hreceived⟩ := received_of_written hsends hwritten
  have hfirst : Client.Sends (fun x => x = ⟨1⟩) firstUuid firstData := ⟨rfl, by decide, rfl, rfl⟩
  have hexact : data.sample.exact = firstData.sample.exact := by
    rw [← ((hsends data List.mem_cons_self).within hdrawn).2, hreceived, (hfirst.within hdrawn).2]
  have hclose : Statistics.CloseEntry 90 0 firstUuid.to_string [data.sample.exact] entry := hclose
  rw [hexact] at hclose
  cases entry with
  | none => cases (show [firstData.sample.exact] = [] from hclose)
  | some entry =>
    exact ⟨turns, turns', N, M, stats, shown, entry, hrun, hrun', htext, hreplied, hshown, hfilter,
      hclose.2.2.1⟩
