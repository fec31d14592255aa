import Mathlib.Algebra.Order.Ring.Rat
import Mathlib.Data.List.TakeWhile
import TZ.Interaction

/-!
# Strings, doubles and exceptions

The three kinds of values the programs of the repository hand to one
another. A `std::string` is a list of bytes: it is counted, and may hold a
NUL byte, which is exactly what the C-string conventions of SQLite lose
(`cstr`). A `double` is a parameter: the properties that speak of exact
means are read over `ℚ`, those that speak of the bytes on the wire over
`Binary64`, and everything else over any type that has the operations of
`Double`. An exception carries the text its `what()` returns.
-/

/-- A `std::string`: a counted sequence of bytes. -/
abbrev Bytes := List UInt8

/-- **What `c_str()` shows to a reader that stops at the first NUL byte.** -/
def cstr (s : Bytes) : Bytes := s.takeWhile (fun b => b ≠ 0)

theorem zero_notMem_cstr (s : Bytes) : (0 : UInt8) ∉ cstr s := by
  intro h
  have := List.mem_takeWhile_imp h
  simp at this

/-- A string without a NUL byte is shown whole. -/
theorem cstr_eq_self {s : Bytes} (h : (0 : UInt8) ∉ s) : cstr s = s := by
  refine List.takeWhile_eq_self_iff.mpr (fun b hb => decide_eq_true ?_)
  rintro rfl
  exact h hb

/-- **A string is shown whole exactly when it has no NUL byte.** -/
theorem cstr_eq_self_iff {s : Bytes} : cstr s = s ↔ (0 : UInt8) ∉ s :=
  ⟨fun h => h ▸ zero_notMem_cstr s, cstr_eq_self⟩

@[simp] theorem cstr_cstr (s : Bytes) : cstr (cstr s) = cstr s :=
  cstr_eq_self (zero_notMem_cstr s)

/-- **The operations of a C++ `double`** that the server and SQLite apply. -/
class Double (F : Type) where
  /-- The constant `0`. -/
  zero : F
  /-- Addition. -/
  add : F → F → F
  /-- Division by an `int`. -/
  divInt : F → Int → F
  /-- The overload of `abs` for `double`. -/
  abs : F → F
  /-- Whether the value is a NaN. -/
  isNaN : F → Bool
  /-- Whether `x <= 0 && x >= 0`. -/
  isZero : F → Bool
  /-- The order of two values neither of which is a NaN. -/
  cmp : F → F → Ordering

/-- **Finite doubles taken as exact rationals.** -/
instance : Double ℚ where
  zero := 0
  add := (· + ·)
  divInt x n := x / n
  abs x := |x|
  isNaN _ := false
  isZero x := x = 0
  cmp := compare

section Rat

@[simp] theorem Double.zero_rat : (Double.zero : ℚ) = 0 := rfl

@[simp] theorem Double.add_rat (x y : ℚ) : Double.add x y = x + y := rfl

@[simp] theorem Double.divInt_rat (x : ℚ) (n : Int) :
    Double.divInt x n = x / n := rfl

@[simp] theorem Double.abs_rat (x : ℚ) : Double.abs x = |x| := rfl

@[simp] theorem Double.isNaN_rat (x : ℚ) : Double.isNaN x = false := rfl

end Rat

/-- **A `double` as the wire and the database hold it**: the 64 bits of an
IEEE 754 binary64 value. -/
structure Binary64 where
  /-- The bit pattern. -/
  bits : UInt64
  deriving DecidableEq

namespace Binary64

/-- A NaN: all exponent bits set and a fraction that is not zero. -/
def isNaN (x : Binary64) : Bool :=
  0x7FF0000000000000 < x.bits &&& 0x7FFFFFFFFFFFFFFF

/-- `+0.0` or `-0.0`: every bit but the sign is clear. -/
def isZero (x : Binary64) : Bool := x.bits &&& 0x7FFFFFFFFFFFFFFF == 0

/-- The value as a Lean float. -/
def toFloat (x : Binary64) : Float := Float.ofBits x.bits

/-- The bits of a Lean float. -/
def ofFloat (x : Float) : Binary64 := ⟨x.toBits⟩

end Binary64

instance : Double Binary64 where
  zero := ⟨0⟩
  add x y := .ofFloat (x.toFloat + y.toFloat)
  divInt x n := .ofFloat (x.toFloat / Float.ofInt n)
  abs x := .ofFloat x.toFloat.abs
  isNaN := Binary64.isNaN
  isZero := Binary64.isZero
  cmp x y :=
    if x.toFloat < y.toFloat then .lt
    else if y.toFloat < x.toFloat then .gt else .eq

/-- **The exceptions of the program.** -/
inductive Exc where
  /-- A `std::exception` with its `what()` – also `std::out_of_range`. -/
  | exception (what : String)
  /-- `std::bad_variant_access`, of a `std::get` for another alternative. -/
  | badVariantAccess
  /-- `beast::system_error`, of the connection. -/
  | systemError (what : String)
  /-- A `std::string` built from a null pointer: not an exception but
  undefined behaviour, which no `catch` clause sees. -/
  | nullString
  deriving DecidableEq

/-- The text `what()` returns. -/
def Exc.what : Exc → String
  | .exception what => what
  | .badVariantAccess => "bad variant access"
  | .systemError what => what
  | .nullString => ""

/-- A `catch (const std::exception& ex)` clause. -/
def Prog.catchStd {C α : Type} {R : C → Type} (p : Prog C R Exc α)
    (g : Exc → Prog C R Exc α) : Prog C R Exc α :=
  p.tryCatch (fun ex => match ex with
    | .nullString => .throw .nullString
    | ex => g ex)
