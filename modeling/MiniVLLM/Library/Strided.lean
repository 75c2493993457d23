import Mathlib

/-! # Strided loops

The workers of a group share a loop: worker `start` takes `start`, `start + step`, and so
on. Together the workers take every index once. -/

/-- Lists whose entries name the list they are from have no entry in common. -/
theorem List.nodup_flatMap_of_owner {α β : Type*} {l : List α} {f : α → List β} (owner : β → α)
    (hl : l.Nodup) (hf : ∀ a ∈ l, (f a).Nodup) (howner : ∀ a ∈ l, ∀ b ∈ f a, owner b = a) :
    (l.flatMap f).Nodup := by
  refine List.nodup_flatMap.mpr ⟨hf, hl.imp_of_mem fun {a a'} ha ha' hne => ?_⟩
  rw [Function.onFun, List.disjoint_left]
  intro b hb hb'
  exact hne ((howner a ha b hb).symm.trans (howner a' ha' b hb'))

/-- A sum over the entries of several lists. -/
theorem List.sum_map_flatMap {α β M : Type*} [AddCommMonoid M] (g : β → M) (f : α → List β)
    (l : List α) : ((l.flatMap f).map g).sum = (l.map fun a => ((f a).map g).sum).sum := by
  rw [List.map_flatMap, List.flatMap_def, List.sum_flatten, List.map_map]
  rfl

namespace Strided

/-- The indices of `for (i = start; i < stop; i += step)`. -/
def strided (start stop step : ℕ) : List ℕ :=
  List.range' start ((stop - start + step - 1) / step) step

variable {start start' stop step i : ℕ}

theorem mem_strided (hstep : 0 < step) :
    i ∈ strided start stop step ↔ start ≤ i ∧ i < stop ∧ (i - start) % step = 0 := by
  rw [strided, List.mem_range']
  constructor
  · rintro ⟨turn, hturn, rfl⟩
    have hlast : (turn + 1) * step ≤ stop - start + step - 1 :=
      (Nat.le_div_iff_mul_le hstep).mp hturn
    rw [Nat.add_mul, Nat.one_mul, Nat.mul_comm] at hlast
    refine ⟨Nat.le_add_right _ _, by omega, ?_⟩
    rw [Nat.add_sub_cancel_left, Nat.mul_mod_right]
  · rintro ⟨hstart, hstop, hmod⟩
    have hsplit := Nat.div_add_mod (i - start) step
    rw [hmod, Nat.add_zero] at hsplit
    refine ⟨(i - start) / step, ?_, by omega⟩
    rw [← Nat.succ_le_iff, Nat.le_div_iff_mul_le hstep, Nat.succ_mul, Nat.mul_comm]
    omega

/-- A worker of the group takes the indices of its residue. -/
theorem mem_strided_of_lt (hstart : start < step) :
    i ∈ strided start stop step ↔ i < stop ∧ i % step = start := by
  rw [mem_strided (Nat.zero_lt_of_lt hstart)]
  constructor
  · rintro ⟨hle, hstop, hmod⟩
    refine ⟨hstop, ?_⟩
    have hsplit := Nat.div_add_mod (i - start) step
    rw [hmod, Nat.add_zero] at hsplit
    have hi : i = step * ((i - start) / step) + start := by omega
    rw [hi, Nat.mul_add_mod, Nat.mod_eq_of_lt hstart]
  · rintro ⟨hstop, rfl⟩
    refine ⟨Nat.mod_le _ _, hstop, ?_⟩
    have hsplit := Nat.div_add_mod i step
    rw [show i - i % step = step * (i / step) by omega, Nat.mul_mod_right]

theorem nodup_strided (hstep : 0 < step) : (strided start stop step).Nodup :=
  List.nodup_range' step hstep

theorem lt_of_mem_strided (hstep : 0 < step) (h : i ∈ strided start stop step) : i < stop :=
  ((mem_strided hstep).mp h).2.1

/-- The workers of a group take every index once. -/
theorem flatMap_strided_perm (stop : ℕ) (hstep : 0 < step) :
    ((List.range step).flatMap fun worker => strided worker stop step).Perm (List.range stop) := by
  refine (List.perm_ext_iff_of_nodup ?_ List.nodup_range).mpr fun i => ?_
  · exact List.nodup_flatMap_of_owner (· % step) List.nodup_range (fun worker _ => nodup_strided hstep)
      fun worker hworker i hi => ((mem_strided_of_lt (List.mem_range.mp hworker)).mp hi).2
  · rw [List.mem_flatMap, List.mem_range]
    constructor
    · rintro ⟨worker, _, hi⟩
      exact lt_of_mem_strided hstep hi
    · intro hi
      exact ⟨i % step, List.mem_range.mpr (Nat.mod_lt _ hstep),
        (mem_strided_of_lt (Nat.mod_lt _ hstep)).mpr ⟨hi, rfl⟩⟩

/-- A sum shared by the workers of a group. -/
theorem sum_strided {M : Type*} [AddCommMonoid M] (f : ℕ → M) (stop : ℕ) (hstep : 0 < step) :
    ((List.range step).map fun worker => ((strided worker stop step).map f).sum).sum =
      ((List.range stop).map f).sum := by
  rw [← ((flatMap_strided_perm stop hstep).map f).sum_eq, List.sum_map_flatMap]

end Strided
