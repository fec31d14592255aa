import Mathlib.Algebra.BigOperators.Group.List.Basic
import Mathlib.Algebra.BigOperators.Intervals
import Mathlib.Algebra.Order.Field.Basic
import Mathlib.Data.Rat.Cast.Order
import Mathlib.Tactic.FieldSimp
import Mathlib.Tactic.Linarith
import Mathlib.Tactic.Positivity
import Mathlib.Tactic.Ring

/-!
# Sums and means that are rounded

A *rounding* sends every number to one that can be represented: it is monotone,
leaves what can be represented alone, and its error is bounded by a part of the
number, and by a constant for what is very small. Floating-point arithmetic
computes the exact result of every operation and rounds it.

A sum computed term by term is rounded as often as it has terms. If all terms are
at most `b`, and all multiples of `b` that matter can be represented, it still is
at most `b` times their number (`Rounding.abs_sum_le`), so that the mean is at most
`b` (`Rounding.abs_mean_le`) without any error at all; and its error grows with the
square of the number of terms (`Rounding.sum_error`). A sum over a part of some
magnitudes is at most the sum over all of them (`Rounding.sum_sublist_le`).
-/

variable {K : Type} [Field K] [LinearOrder K]

/-- **A rounding.** -/
structure Rounding (K : Type) [Field K] [LinearOrder K] where
  /-- What a number is rounded to. -/
  round : K → K
  /-- The order is kept. -/
  mono : Monotone round
  /-- What has been rounded is not changed any more. -/
  idem : ∀ x, round (round x) = round x
  /-- The relative error. -/
  unit : K
  /-- The relative error is no gain. -/
  unit_nonneg : 0 ≤ unit
  /-- The absolute error of what is very small. -/
  tiny : K
  /-- The error is bounded. -/
  error : ∀ x, |round x - x| ≤ unit * |x| + tiny

namespace Rounding

variable (ρ : Rounding K)

/-- A number can be represented. -/
def Exact (x : K) : Prop := ρ.round x = x

/-- The sum of a list, rounded after every term. -/
def sum (l : List K) : K := l.foldl (fun s x => ρ.round (s + x)) 0

/-- The mean of a list, from the sum. -/
def mean (l : List K) : K := ρ.round (ρ.sum l / l.length)

/-- **The multiples of a number can be represented**, up to the `n`-th. -/
structure Multiples (b : K) (n : ℕ) : Prop where
  /-- Those that are not negative. -/
  pos : ∀ k ≤ n, ρ.Exact (k * b)
  /-- The others. -/
  neg : ∀ k ≤ n, ρ.Exact (-(k * b))

/-- The bound on the error of a sum of so many terms that are at most `b`: what is lost
when the first of them are added is at most a part of `b` times their number. -/
def sumError (b : K) (n : ℕ) : K :=
  ∑ k ∈ Finset.range n, (ρ.unit * ((k + 1 : ℕ) * b) + ρ.tiny)

/-- The bound on the error of a mean. -/
def meanError (b : K) (n : ℕ) : K := ρ.unit * b + ρ.tiny + ρ.sumError b n / n

variable {ρ} {a b x : K} {l : List K} {n : ℕ}

theorem exact_round (x : K) : ρ.Exact (ρ.round x) := ρ.idem x

/-- What can be represented bounds what is rounded. -/
theorem le_round (ha : ρ.Exact a) (h : a ≤ x) : a ≤ ρ.round x := ha.ge.trans (ρ.mono h)

theorem round_le (ha : ρ.Exact a) (h : x ≤ a) : ρ.round x ≤ a := (ρ.mono h).trans ha.le

@[simp] theorem sum_nil : ρ.sum [] = 0 := rfl

theorem sum_concat (l : List K) (x : K) : ρ.sum (l ++ [x]) = ρ.round (ρ.sum l + x) :=
  List.foldl_concat _ _ _ _

theorem Multiples.zero (h : ρ.Multiples b n) : ρ.Exact 0 := by
  have := h.pos 0 (Nat.zero_le n)
  rwa [Nat.cast_zero, zero_mul] at this

section Ordered

variable [IsStrictOrderedRing K]

theorem abs_round_le (ha : ρ.Exact a) (hneg : ρ.Exact (-a)) (h : |x| ≤ a) : |ρ.round x| ≤ a :=
  abs_le.mpr ⟨le_round hneg (abs_le.mp h).1, round_le ha (abs_le.mp h).2⟩

/-- The error of a number of bounded magnitude. -/
theorem error_le (h : |x| ≤ a) : |ρ.round x - x| ≤ ρ.unit * a + ρ.tiny := by
  have := mul_le_mul_of_nonneg_left h ρ.unit_nonneg
  linarith [ρ.error x]

/-! ## Sums -/

/-- **A part sums up to no more than the whole**, if nothing is negative. -/
theorem sum_sublist_le {l' : List K} (hsub : l'.Sublist l) (hzero : ρ.Exact 0)
    (hnonneg : ∀ x ∈ l, 0 ≤ x) : ρ.sum l' ≤ ρ.sum l := by
  have hfrom : ∀ {l' l : List K}, l'.Sublist l → (∀ x ∈ l, 0 ≤ x) → ∀ s' s : K, ρ.Exact s' →
      s' ≤ s → l'.foldl (fun s x => ρ.round (s + x)) s'
        ≤ l.foldl (fun s x => ρ.round (s + x)) s := by
    intro l' l hsub
    induction hsub with
    | slnil => exact fun _ _ _ _ h => h
    | @cons l' l x _ ih =>
      intro hnonneg s' s hs' hle
      obtain ⟨hx, hl⟩ := List.forall_mem_cons.mp hnonneg
      exact ih hl s' _ hs' (le_round hs' (hle.trans (le_add_of_nonneg_right hx)))
    | @cons_cons l' l x _ ih =>
      intro hnonneg s' s _ hle
      exact ih (List.forall_mem_cons.mp hnonneg).2 _ _ (exact_round _)
        (ρ.mono (add_le_add_left hle x))
  exact hfrom hsub hnonneg 0 0 hzero le_rfl

/-- A sum of magnitudes is not negative. -/
theorem sum_nonneg (hzero : ρ.Exact 0) (hnonneg : ∀ x ∈ l, 0 ≤ x) : 0 ≤ ρ.sum l :=
  sum_sublist_le (List.nil_sublist l) hzero hnonneg

/-- One more term, before it is rounded. -/
theorem abs_add_le_succ {k : ℕ} {s : K} (hs : |s| ≤ k * b) (hx : |x| ≤ b) :
    |s + x| ≤ (k + 1 : ℕ) * b := by
  rw [Nat.cast_succ, add_mul, one_mul]
  exact (abs_add_le s x).trans (add_le_add hs hx)

/-- **A sum is at most as large as its terms allow.** -/
theorem abs_sum_le (hb : ρ.Multiples b n) (hl : ∀ x ∈ l, |x| ≤ b) (hn : l.length ≤ n) :
    |ρ.sum l| ≤ l.length * b := by
  induction l using List.reverseRecOn with
  | nil => rw [sum_nil, abs_zero, List.length_nil, Nat.cast_zero, zero_mul]
  | append_singleton l x ih =>
    rw [List.length_append, List.length_singleton] at hn ⊢
    obtain ⟨hl, hx⟩ := List.forall_mem_append.mp hl
    rw [sum_concat]
    exact abs_round_le (hb.pos _ hn) (hb.neg _ hn)
      (abs_add_le_succ (ih hl (Nat.le_of_succ_le hn)) (hx x (List.mem_singleton_self x)))

/-- **The error of a sum.** -/
theorem sum_error (hb : ρ.Multiples b n) (hl : ∀ x ∈ l, |x| ≤ b) (hn : l.length ≤ n) :
    |ρ.sum l - l.sum| ≤ ρ.sumError b l.length := by
  induction l using List.reverseRecOn with
  | nil =>
    rw [sum_nil, List.sum_nil, sub_zero, abs_zero, List.length_nil, sumError, Finset.sum_range_zero]
  | append_singleton l x ih =>
    rw [List.length_append, List.length_singleton] at hn ⊢
    obtain ⟨hl, hx⟩ := List.forall_mem_append.mp hl
    have hlen := Nat.le_of_succ_le hn
    have hlast : |ρ.round (ρ.sum l + x) - (ρ.sum l + x)|
        ≤ ρ.unit * ((l.length + 1 : ℕ) * b) + ρ.tiny :=
      error_le (abs_add_le_succ (abs_sum_le hb hl hlen) (hx x (List.mem_singleton_self x)))
    have hsplit : ρ.sum (l ++ [x]) - (l ++ [x]).sum
        = (ρ.round (ρ.sum l + x) - (ρ.sum l + x)) + (ρ.sum l - l.sum) := by
      rw [sum_concat, List.sum_append, List.sum_singleton]
      ring
    rw [hsplit, sumError, Finset.sum_range_succ, add_comm (Finset.sum _ _)]
    exact (abs_add_le _ _).trans (add_le_add hlast (ih hl hlen))

/-! ## Means -/

/-- The sum divided by the number of terms, before it is rounded. -/
theorem abs_sum_div_le (hb : ρ.Multiples b n) (hl : ∀ x ∈ l, |x| ≤ b) (hn : l.length ≤ n)
    (hne : l ≠ []) : |ρ.sum l / l.length| ≤ b := by
  have hpos : (0 : K) < l.length := Nat.cast_pos.mpr (List.length_pos_iff.mpr hne)
  rw [abs_div, Nat.abs_cast, div_le_iff₀ hpos, mul_comm]
  exact abs_sum_le hb hl hn

/-- **A mean is not larger than what it is the mean of.** -/
theorem abs_mean_le (hb : ρ.Multiples b n) (hl : ∀ x ∈ l, |x| ≤ b) (hn : l.length ≤ n)
    (hne : l ≠ []) : |ρ.mean l| ≤ b := by
  have hone : 1 ≤ n := (List.length_pos_iff.mpr hne).trans_le hn
  have hpos := hb.pos 1 hone
  have hneg := hb.neg 1 hone
  rw [Nat.cast_one, one_mul] at hpos hneg
  exact abs_round_le hpos hneg (abs_sum_div_le hb hl hn hne)

/-- **The error of a mean.** -/
theorem mean_error (hb : ρ.Multiples b n) (hl : ∀ x ∈ l, |x| ≤ b) (hn : l.length ≤ n)
    (hne : l ≠ []) : |ρ.mean l - l.sum / l.length| ≤ ρ.meanError b l.length := by
  have hpos : (0 : K) < l.length := Nat.cast_pos.mpr (List.length_pos_iff.mpr hne)
  have hlast : |ρ.mean l - ρ.sum l / l.length| ≤ ρ.unit * b + ρ.tiny :=
    error_le (abs_sum_div_le hb hl hn hne)
  have hsum : |ρ.sum l / l.length - l.sum / l.length| ≤ ρ.sumError b l.length / l.length := by
    rw [← sub_div, abs_div, Nat.abs_cast]
    exact div_le_div_of_nonneg_right (sum_error hb hl hn) hpos.le
  have hsplit : ρ.mean l - l.sum / l.length
      = (ρ.mean l - ρ.sum l / l.length) + (ρ.sum l / l.length - l.sum / l.length) := by ring
  rw [hsplit]
  exact (abs_add_le _ _).trans (add_le_add hlast hsum)

end Ordered

end Rounding
