import Mathlib

/-! # Reductions in a group of lanes

The lanes of a group add their values pair by pair. The distance of a pair is halved from
step to step, and at the end lane zero has the sum of all of them. -/

namespace Reduction

/-! ## Halving -/

/-- The values of `for (offset = start; offset > 0; offset /= 2)`. -/
def halvings (start : ℕ) : List ℕ :=
  if h : start = 0 then [] else start :: halvings (start / 2)
termination_by start
decreasing_by exact Nat.div_lt_self (Nat.pos_of_ne_zero h) Nat.one_lt_two

theorem halvings_zero : halvings 0 = [] := by
  rw [halvings, dif_pos rfl]

theorem halvings_of_pos {start : ℕ} (h : 0 < start) :
    halvings start = start :: halvings (start / 2) := by
  rw [halvings, dif_neg h.ne']

/-- From a power of two on, the offsets are the powers below. -/
theorem halvings_two_pow (k : ℕ) :
    halvings (2 ^ k) = (List.range (k + 1)).reverse.map (2 ^ ·) := by
  induction k with
  | zero =>
      rw [pow_zero, halvings_of_pos Nat.one_pos, show 1 / 2 = 0 from rfl, halvings_zero]
      rfl
  | succ k ih =>
      rw [halvings_of_pos (Nat.two_pow_pos _), pow_succ, Nat.mul_div_cancel _ Nat.two_pos, ih,
        List.range_succ (n := k + 1), List.reverse_append, List.map_append, ← pow_succ]
      rfl

/-! ## Shuffles -/

section Shuffles

variable {α : Type*}

/-- `__shfl_down_sync` in a warp of `warpSize` lanes: what the lane `offset` further holds. -/
def shflDown (warpSize : ℕ) (value : ℕ → α) (offset lane : ℕ) : α :=
  if lane + offset < warpSize then value (lane + offset) else value lane

/-- `__shfl_xor_sync`: what the lane whose number differs in the bits of `offset` holds. -/
def shflXor (value : ℕ → α) (offset lane : ℕ) : α := value (lane ^^^ offset)

variable {value : ℕ → α} {k lane : ℕ}

theorem shflDown_of_lt {warpSize offset : ℕ} (h : lane + offset < warpSize) :
    shflDown warpSize value offset lane = value (lane + offset) :=
  if_pos h

/-- Among the lower lanes the partner stands one offset further. -/
theorem shflXor_two_pow (h : lane < 2 ^ k) :
    shflXor value (2 ^ k) lane = value (lane + 2 ^ k) := by
  rw [shflXor]
  congr 1
  apply Nat.eq_of_testBit_eq
  intro bit
  rw [Nat.add_comm lane, Nat.testBit_xor, Nat.testBit_two_pow]
  rcases Nat.lt_trichotomy bit k with hbit | rfl | hbit
  · rw [Nat.testBit_two_pow_add_gt hbit]
    simp [hbit.ne']
  · rw [Nat.testBit_two_pow_add_eq, Nat.testBit_lt_two_pow h]
    simp
  · have hlane : lane < 2 ^ bit := h.trans (Nat.pow_lt_pow_right Nat.one_lt_two hbit)
    have hsum : 2 ^ k + lane < 2 ^ bit := by
      calc 2 ^ k + lane < 2 ^ k + 2 ^ k := Nat.add_lt_add_left h _
        _ = 2 ^ (k + 1) := by rw [pow_succ, Nat.mul_two]
        _ ≤ 2 ^ bit := Nat.pow_le_pow_right Nat.two_pos hbit
    rw [Nat.testBit_lt_two_pow hlane, Nat.testBit_lt_two_pow hsum]
    simp [hbit.ne]

end Shuffles

/-! ## Sums -/

section Sums

variable {M : Type*} [AddCommMonoid M] {step : ℕ → (ℕ → M) → ℕ → M} {k : ℕ}

/-- Steps that add to each lower lane the lane one offset further leave the sum in lane zero. -/
theorem foldl_halvings (value : ℕ → M)
    (h : ∀ j < k, ∀ value : ℕ → M, ∀ lane < 2 ^ j,
      step (2 ^ j) value lane = value lane + value (lane + 2 ^ j)) :
    ((List.range k).reverse.map (2 ^ ·)).foldl (fun value offset => step offset value) value 0 =
      ((List.range (2 ^ k)).map value).sum := by
  induction k generalizing value with
  | zero => simp
  | succ k ih =>
      have hsum : ((List.range (2 ^ k)).map (step (2 ^ k) value)).sum =
          ((List.range (2 ^ (k + 1))).map value).sum := by
        rw [List.map_congr_left fun lane hlane =>
          h k (Nat.lt_succ_self k) value lane (List.mem_range.mp hlane), List.sum_map_add,
          pow_succ, Nat.mul_two, List.range_add, List.map_append, List.sum_append, List.map_map]
        simp only [Function.comp_def, Nat.add_comm]
      rw [List.range_succ, List.reverse_append, List.reverse_singleton, List.map_append,
        List.map_singleton, List.singleton_append, List.foldl_cons,
        ih _ (fun j hj => h j (Nat.lt_succ_of_lt hj)), hsum]

end Sums

end Reduction
