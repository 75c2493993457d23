import Mathlib

/-! # 32-bit `int`s

The arithmetic of a C `int`. A result that 32 bits do not hold is an overflow, after which C
promises nothing, so it has no value here. -/

namespace CInt

def intMin : ℤ := -2147483648

def intMax : ℤ := 2147483647

/-- The mathematical result, if an `int` can hold it. -/
def value (n : ℤ) : Option ℤ := if intMin ≤ n ∧ n ≤ intMax then some n else none

def add (a b : ℤ) : Option ℤ := value (a + b)

def mul (a b : ℤ) : Option ℤ := value (a * b)

def sub (a b : ℤ) : Option ℤ := value (a - b)

/-- The quotient, rounded towards zero. -/
def div (a b : ℤ) : Option ℤ := value (a.tdiv b)

/-- A conversion to `int` keeps the low 32 bits. -/
def wrap (n : ℤ) : ℤ := n.bmod 4294967296

/-- `row * width + col`. -/
def index (row width col : ℤ) : Option ℤ := do
  let start ← mul row width
  add start col

/-- `(a + b - 1) / b`. -/
def ceilDiv (a b : ℤ) : Option ℤ := do
  let sum ← add a b
  let sum ← sub sum 1
  div sum b

variable {a b n m : ℤ}

theorem value_eq_some (hmin : intMin ≤ n) (hmax : n ≤ intMax) : value n = some n :=
  if_pos ⟨hmin, hmax⟩

theorem of_value (h : value n = some m) : m = n ∧ intMin ≤ n ∧ n ≤ intMax := by
  unfold value at h
  split at h
  · rename_i hrange
    exact ⟨(Option.some.inj h).symm, hrange⟩
  · cases h

theorem mul_eq_some (hnonneg : 0 ≤ a * b) (hmax : a * b ≤ intMax) : mul a b = some (a * b) :=
  value_eq_some (by unfold intMin; omega) hmax

theorem add_eq_some (hnonneg : 0 ≤ a + b) (hmax : a + b ≤ intMax) : add a b = some (a + b) :=
  value_eq_some (by unfold intMin; omega) hmax

theorem of_index {c : ℤ} (h : index a b c = some m) :
    m = a * b + c ∧ intMin ≤ a * b + c ∧ a * b + c ≤ intMax := by
  obtain ⟨start, hstart, hadd⟩ := Option.bind_eq_some_iff.mp h
  rw [← (of_value hstart).1]
  exact of_value hadd

theorem wrap_eq (hmin : intMin ≤ n) (hmax : n ≤ intMax) : wrap n = n := by
  unfold intMin at hmin
  unfold intMax at hmax
  exact Int.bmod_eq_of_le_mul_two (by omega) (by omega)

/-! ## Natural numbers

Counts and indices are never negative, so one bound decides whether an `int` holds them. -/

section NatCast

variable {i j k : ℕ}

theorem value_natCast (h : i < 2 ^ 31) : value (i : ℤ) = some (i : ℤ) :=
  value_eq_some (by unfold intMin; omega) (by unfold intMax; omega)

theorem value_natCast_eq_none (h : 2 ^ 31 ≤ i) : value (i : ℤ) = none :=
  if_neg fun hrange => absurd hrange.2 (by unfold intMax; omega)

theorem wrap_natCast (h : i < 2 ^ 31) : wrap (i : ℤ) = i :=
  wrap_eq (by unfold intMin; omega) (by unfold intMax; omega)

theorem wrap_natCast_of_le (h : 2 ^ 31 ≤ i) (hlt : i < 2 ^ 32) : wrap (i : ℤ) = i - 2 ^ 32 := by
  have hmod : (i : ℤ) % (4294967296 : ℕ) = i := Int.emod_eq_of_lt (by omega) (by omega)
  rw [wrap, Int.bmod_def, hmod, if_neg (by omega)]
  rfl

theorem add_natCast (h : i + j < 2 ^ 31) : add (i : ℤ) (j : ℤ) = some ((i + j : ℕ) : ℤ) := by
  rw [add, ← Nat.cast_add, value_natCast h]

theorem add_natCast_eq_none (h : 2 ^ 31 ≤ i + j) : add (i : ℤ) (j : ℤ) = none := by
  rw [add, ← Nat.cast_add, value_natCast_eq_none h]

theorem mul_natCast (h : i * j < 2 ^ 31) : mul (i : ℤ) (j : ℤ) = some ((i * j : ℕ) : ℤ) := by
  rw [mul, ← Nat.cast_mul, value_natCast h]

theorem mul_natCast_eq_none (h : 2 ^ 31 ≤ i * j) : mul (i : ℤ) (j : ℤ) = none := by
  rw [mul, ← Nat.cast_mul, value_natCast_eq_none h]

theorem bind_mul_natCast_eq_none (h : 2 ^ 31 ≤ i * j * k) :
    (mul (i : ℤ) (j : ℤ)).bind (mul · (k : ℤ)) = none := by
  by_cases hlt : i * j < 2 ^ 31
  · rw [mul_natCast hlt, Option.bind_some, mul_natCast_eq_none h]
  · rw [mul_natCast_eq_none (Nat.le_of_not_lt hlt), Option.bind_none]

/-- The row of an index is at most the index. -/
theorem le_index (i : ℕ) (k : ℕ) (hj : 0 < j) : i ≤ i * j + k :=
  le_add_right (Nat.le_mul_of_pos_right i hj)

/-- In range, an index has its mathematical value. -/
theorem index_natCast (h : i * j + k < 2 ^ 31) :
    index (i : ℤ) (j : ℤ) (k : ℤ) = some ((i * j + k : ℕ) : ℤ) := by
  rw [index, mul_natCast (by omega), Option.bind_eq_bind, Option.bind_some, add_natCast h]

theorem index_natCast_eq_none (h : 2 ^ 31 ≤ i * j + k) :
    index (i : ℤ) (j : ℤ) (k : ℤ) = none := by
  rw [index]
  by_cases hstart : i * j < 2 ^ 31
  · rw [mul_natCast hstart, Option.bind_eq_bind, Option.bind_some, add_natCast_eq_none h]
  · rw [mul_natCast_eq_none (by omega)]
    rfl

/-- An index of rows of rows. -/
theorem bind_index_natCast {l m : ℕ} (hl : 0 < l) (h : (i * j + k) * l + m < 2 ^ 31) :
    (index (i : ℤ) (j : ℤ) (k : ℤ)).bind (index · (l : ℤ) (m : ℤ)) =
      some (((i * j + k) * l + m : ℕ) : ℤ) := by
  rw [index_natCast ((le_index _ m hl).trans_lt h), Option.bind_some, index_natCast h]

theorem bind_index_natCast_eq_none {l m : ℕ} (h : 2 ^ 31 ≤ (i * j + k) * l + m) :
    (index (i : ℤ) (j : ℤ) (k : ℤ)).bind (index · (l : ℤ) (m : ℤ)) = none := by
  by_cases hrow : i * j + k < 2 ^ 31
  · rw [index_natCast hrow, Option.bind_some, index_natCast_eq_none h]
  · rw [index_natCast_eq_none (Nat.le_of_not_lt hrow), Option.bind_none]

theorem ceilDiv_natCast (h : i + j < 2 ^ 31) (hj : 0 < j) :
    ceilDiv (i : ℤ) (j : ℤ) = some (((i + j - 1) / j : ℕ) : ℤ) := by
  have hsub : sub ((i + j : ℕ) : ℤ) 1 = some ((i + j - 1 : ℕ) : ℤ) := by
    rw [sub, show ((i + j : ℕ) : ℤ) - 1 = ((i + j - 1 : ℕ) : ℤ) by omega,
      value_natCast (by omega)]
  have hdiv : div ((i + j - 1 : ℕ) : ℤ) (j : ℤ) = some (((i + j - 1) / j : ℕ) : ℤ) := by
    have hle : (i + j - 1) / j ≤ i + j - 1 := Nat.div_le_self _ _
    rw [div, ← Int.ofNat_tdiv, value_natCast (by omega)]
  rw [ceilDiv, add_natCast h]
  simp only [Option.bind_eq_bind, Option.bind_some, hsub, hdiv]

theorem ceilDiv_natCast_eq_none (h : 2 ^ 31 ≤ i + j) : ceilDiv (i : ℤ) (j : ℤ) = none := by
  rw [ceilDiv, add_natCast_eq_none h]
  rfl

end NatCast

/-! ## Confined memories

An index below zero or from `2 ^ 31` on names no cell of a memory that has at most `2 ^ 31` of
them. There it does not show that the index is an `int`. -/

section Confined

variable {α : Type*} {f : ℤ → Option α}

def Confined (f : ℤ → Option α) : Prop := ∀ i, i < 0 ∨ 2 ^ 31 ≤ i → f i = none

namespace Confined

theorem bind_value (h : Confined f) (i : ℤ) : (value i).bind f = f i := by
  unfold value
  split
  · rfl
  · rename_i hrange
    refine (h i ?_).symm
    unfold intMin intMax at hrange
    omega

theorem bind_add (h : Confined f) (i j : ℤ) : (add i j).bind f = f (i + j) := h.bind_value _

theorem bind_index_natCast (h : Confined f) (i j k : ℕ) :
    (index (i : ℤ) (j : ℤ) (k : ℤ)).bind f = f ((i * j + k : ℕ) : ℤ) := by
  by_cases hlt : i * j + k < 2 ^ 31
  · rw [index_natCast hlt, Option.bind_some]
  · rw [index_natCast_eq_none (Nat.le_of_not_lt hlt), Option.bind_none]
    exact (h _ (Or.inr (by omega))).symm

end Confined

end Confined

end CInt
