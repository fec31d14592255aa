import Mathlib.Algebra.Order.Ring.Nat
import Mathlib.Tactic.Common

/-!
# Numbers and text as bytes

What the wire format is made of: numbers in groups of seven bits, numbers of a
fixed width, least significant byte first, and text in UTF-8. The two kinds of
numbers are written and read here, and reading what was written gives it back.
Of UTF-8 only its well-formedness is needed, and that a text that is cut
before a NUL byte is still well-formed.
-/

namespace Wire

/-! ## Groups of seven bits -/

/-- **A number in groups of seven bits**, the least significant first. Every byte
but the last has its top bit set. -/
def varint (n : ℕ) : List UInt8 :=
  if n < 128 then [n.toUInt8] else (n % 128 + 128).toUInt8 :: varint (n / 128)
termination_by n
decreasing_by omega

/-- Read a number of at most so many groups. -/
def readVarint : ℕ → List UInt8 → Option (ℕ × List UInt8)
  | 0, _ => none
  | _, [] => none
  | k + 1, b :: bs =>
    if b.toNat < 128 then some (b.toNat, bs)
    else (readVarint k bs).map fun r => (b.toNat - 128 + 128 * r.1, r.2)

theorem toNat_toUInt8 {n : ℕ} (h : n < 256) : n.toUInt8.toNat = n := by
  simp [Nat.mod_eq_of_lt h]

/-- **A number that was written is read back.** -/
theorem readVarint_varint {k n : ℕ} (h : n < 128 ^ (k + 1)) (rest : List UInt8) :
    readVarint (k + 1) (varint n ++ rest) = some (n, rest) := by
  induction k generalizing n with
  | zero =>
    rw [zero_add, pow_one] at h
    rw [varint, if_pos h, List.cons_append, readVarint, toNat_toUInt8 (by omega), if_pos h]
    rfl
  | succ k ih =>
    rw [varint]
    split_ifs with hlt
    · rw [List.cons_append, readVarint, toNat_toUInt8 (by omega), if_pos hlt]
      rfl
    · have hdiv : n / 128 < 128 ^ (k + 1) := Nat.div_lt_of_lt_mul (by rwa [← pow_succ'])
      have hbyte : (n % 128 + 128).toUInt8.toNat = n % 128 + 128 := toNat_toUInt8 (by omega)
      rw [List.cons_append, readVarint, hbyte, if_neg (by omega), ih hdiv]
      show some (n % 128 + 128 - 128 + 128 * (n / 128), rest) = some (n, rest)
      rw [Nat.add_sub_cancel, Nat.mod_add_div]

/-- A number takes at least one byte. -/
theorem length_varint_pos (n : ℕ) : 0 < (varint n).length := by
  rw [varint]
  split_ifs <;> exact Nat.succ_pos _

/-- A number takes no more bytes than it has groups. -/
theorem length_varint_le {k n : ℕ} (h : n < 128 ^ (k + 1)) : (varint n).length ≤ k + 1 := by
  induction k generalizing n with
  | zero =>
    rw [zero_add, pow_one] at h
    rw [varint, if_pos h, List.length_singleton]
  | succ k ih =>
    rw [varint]
    split_ifs with hlt
    · exact Nat.succ_le_succ (Nat.zero_le _)
    · exact Nat.succ_le_succ (ih (Nat.div_lt_of_lt_mul (by rwa [← pow_succ'])))

/-- Reading a number takes at least one byte. -/
theorem readVarint_length {k : ℕ} {bs rest : List UInt8} {n : ℕ}
    (h : readVarint k bs = some (n, rest)) : rest.length < bs.length := by
  induction k generalizing bs n with
  | zero => cases h
  | succ k ih =>
    cases bs with
    | nil => cases h
    | cons b bs =>
      rw [readVarint] at h
      split_ifs at h
      · cases h
        exact Nat.lt_succ_self _
      · obtain ⟨r, hr, hrest⟩ := Option.map_eq_some_iff.mp h
        cases hrest
        exact (ih hr).trans (Nat.lt_succ_self _)

/-! ## Numbers of a fixed width -/

/-- A number in so many bytes, the least significant first. -/
def fixed : ℕ → ℕ → List UInt8
  | 0, _ => []
  | k + 1, n => (n % 256).toUInt8 :: fixed k (n / 256)

/-- Read a number from all of some bytes. -/
def readFixed : List UInt8 → ℕ
  | [] => 0
  | b :: bs => b.toNat + 256 * readFixed bs

@[simp] theorem length_fixed (k n : ℕ) : (fixed k n).length = k := by
  induction k generalizing n with
  | zero => rfl
  | succ k ih => rw [fixed, List.length_cons, ih]

/-- **A number that was written is read back.** -/
theorem readFixed_fixed {k n : ℕ} (h : n < 256 ^ k) : readFixed (fixed k n) = n := by
  induction k generalizing n with
  | zero =>
    rw [pow_zero, Nat.lt_one_iff] at h
    exact h.symm
  | succ k ih =>
    have hdiv : n / 256 < 256 ^ k := Nat.div_lt_of_lt_mul (by rwa [← pow_succ'])
    rw [fixed, readFixed, toNat_toUInt8 (by omega), ih hdiv, Nat.mod_add_div]

/-! ## UTF-8 -/

/-- **Well-formed UTF-8**, with so many bytes of a character to come, the next of
which must be in the given range. The range of the second byte of a character
depends on the first, which excludes overlong forms, surrogates, and what is
past the last character. -/
def utf8From : UInt8 → UInt8 → ℕ → List UInt8 → Bool
  | _, _, 0, [] => true
  | _, _, _ + 1, [] => false
  | lo, hi, k + 1, b :: bs => lo ≤ b && b ≤ hi && utf8From 0x80 0xBF k bs
  | _, _, 0, b :: bs =>
    if b < 0x80 then utf8From 0x80 0xBF 0 bs
    else if b < 0xC2 then false
    else if b < 0xE0 then utf8From 0x80 0xBF 1 bs
    else if b = 0xE0 then utf8From 0xA0 0xBF 2 bs
    else if b = 0xED then utf8From 0x80 0x9F 2 bs
    else if b < 0xF0 then utf8From 0x80 0xBF 2 bs
    else if b = 0xF0 then utf8From 0x90 0xBF 3 bs
    else if b < 0xF4 then utf8From 0x80 0xBF 3 bs
    else if b = 0xF4 then utf8From 0x80 0x8F 3 bs
    else false

/-- Well-formed UTF-8. -/
def utf8 (bs : List UInt8) : Bool := utf8From 0x80 0xBF 0 bs

/-- A text that is cut before a NUL byte, which is no part of another
character, is still well-formed. -/
theorem utf8From_takeWhile {lo hi : UInt8} (hlo : 0x80 ≤ lo) {k : ℕ} {bs : List UInt8}
    (h : utf8From lo hi k bs = true) :
    utf8From lo hi k (bs.takeWhile fun b => b ≠ 0) = true := by
  induction bs generalizing lo hi k with
  | nil => exact h
  | cons b bs ih =>
    by_cases hb : b = 0
    · -- here the text is cut
      subst hb
      cases k with
      | zero => rfl
      | succ k =>
        rw [utf8From, Bool.and_eq_true, Bool.and_eq_true, decide_eq_true_eq] at h
        exact absurd (UInt8.le_trans hlo h.1.1) (show ¬ (0x80 : UInt8) ≤ 0 by decide)
    · rw [List.takeWhile_cons, if_pos (decide_eq_true hb)]
      cases k with
      | zero =>
        simp only [utf8From] at h ⊢
        split_ifs at h ⊢ <;> exact ih (by decide) h
      | succ k =>
        rw [utf8From, Bool.and_eq_true] at h ⊢
        exact ⟨h.1, ih (by decide) h.2⟩

theorem utf8_takeWhile {bs : List UInt8} (h : utf8 bs = true) :
    utf8 (bs.takeWhile fun b => b ≠ 0) = true :=
  utf8From_takeWhile (by decide) h

/-- A text of ASCII characters is well-formed. -/
theorem utf8_ascii {bs : List UInt8} (h : ∀ b ∈ bs, b < 0x80) : utf8 bs = true := by
  unfold utf8
  induction bs with
  | nil => rfl
  | cons b bs ih =>
    obtain ⟨hb, hbs⟩ := List.forall_mem_cons.mp h
    rw [utf8From, if_pos hb]
    exact ih hbs

end Wire
