import Mathlib

/-! # Least-loaded placement

Work is placed one piece at a time, each on a place with the smallest load at that moment, and it
goes away in any order. The greatest load that any place ever has is then the average of the
greatest total, rounded up: no assignment of the same work could do better at that moment. -/

namespace Balance

variable {α ι : Type*}

/-! ## Prefixes of a history -/

/-- What a quantity has been during a history. -/
def Seen (f : List α → ℤ) (l : List α) : Set ℤ := {value | ∃ front, front <+: l ∧ f front = value}

theorem seen_append_singleton (f : List α → ℤ) (l : List α) (a : α) :
    Seen f (l ++ [a]) = insert (f (l ++ [a])) (Seen f l) := by
  ext value
  constructor
  · rintro ⟨front, hfront, rfl⟩
    rcases List.prefix_concat_iff.mp hfront with rfl | hfront
    · exact Set.mem_insert _ _
    · exact Set.mem_insert_of_mem _ ⟨front, hfront, rfl⟩
  · rintro (rfl | ⟨front, hfront, rfl⟩)
    · exact ⟨l ++ [a], List.prefix_rfl, rfl⟩
    · exact ⟨front, hfront.trans (List.prefix_append l [a]), rfl⟩

/-- Every history has a moment of the greatest value. -/
theorem exists_isGreatest_seen (f : List α → ℤ) (l : List α) : ∃ peak, IsGreatest (Seen f l) peak := by
  induction l using List.reverseRecOn with
  | nil =>
      refine ⟨f [], ⟨[], List.prefix_rfl, rfl⟩, ?_⟩
      rintro value ⟨front, hfront, rfl⟩
      rw [List.prefix_nil.mp hfront]
  | append_singleton l a ih =>
      obtain ⟨peak, hpeak⟩ := ih
      rw [seen_append_singleton]
      exact ⟨max (f (l ++ [a])) peak, hpeak.insert _⟩

/-! ## One moment -/

section Loads

variable {s : Finset ι} {loads loads' : ι → ℤ} {i : ι} {peak : ℤ}

/-- A place with the smallest load is below the average of any greater total. -/
theorem lt_ceil_of_least (hi : i ∈ s) (hleast : ∀ j ∈ s, loads i ≤ loads j)
    (htotal : ∑ j ∈ s, loads j < peak) : loads i < ⌈(peak : ℚ) / s.card⌉ := by
  have hcard : (0 : ℚ) < s.card := by exact_mod_cast Finset.card_pos.mpr ⟨i, hi⟩
  have hsum : s.card • loads i ≤ ∑ j ∈ s, loads j := Finset.card_nsmul_le_sum s loads _ hleast
  rw [nsmul_eq_mul] at hsum
  rw [Int.lt_ceil, lt_div_iff₀ hcard, mul_comm]
  exact_mod_cast hsum.trans_lt htotal

/-- Some place has at least the average load. -/
theorem exists_ceil_le (hs : s.Nonempty) : ∃ i ∈ s, ⌈(∑ j ∈ s, loads j : ℚ) / s.card⌉ ≤ loads i := by
  have hcard : (0 : ℚ) < s.card := by exact_mod_cast Finset.card_pos.mpr hs
  obtain ⟨i, hi, hmax⟩ := Finset.exists_max_image s loads hs
  refine ⟨i, hi, Int.ceil_le.mpr ?_⟩
  rw [div_le_iff₀ hcard, mul_comm]
  have hsum : ∑ j ∈ s, loads j ≤ s.card • loads i := Finset.sum_le_card_nsmul s loads _ hmax
  rw [nsmul_eq_mul] at hsum
  exact_mod_cast hsum

/-- What can happen to the loads: some of them shrink, or one place of the smallest load gets one
more piece. -/
inductive Moves (s : Finset ι) (loads loads' : ι → ℤ) : Prop where
  | shrink (hle : ∀ j ∈ s, loads' j ≤ loads j)
  | place (i : ι) (hi : i ∈ s) (hleast : ∀ j ∈ s, loads i ≤ loads j)
      (hplaced : loads' i = loads i + 1) (hkept : ∀ j ∈ s, j ≠ i → loads' j = loads j)

/-- A move keeps every load below the average of a total that was not exceeded. -/
theorem Moves.le_ceil (h : Moves s loads loads')
    (hle : ∀ j ∈ s, loads j ≤ ⌈(peak : ℚ) / s.card⌉) (htotal : ∑ j ∈ s, loads' j ≤ peak) :
    ∀ j ∈ s, loads' j ≤ ⌈(peak : ℚ) / s.card⌉ := by
  classical
  intro j hj
  cases h with
  | shrink hshrink => exact (hshrink j hj).trans (hle j hj)
  | place i hi hleast hplaced hkept =>
      by_cases hsame : j = i
      · subst hsame
        have hsum : ∑ k ∈ s, loads k < ∑ k ∈ s, loads' k := by
          refine Finset.sum_lt_sum (fun k hk => ?_) ⟨j, hj, by omega⟩
          by_cases hk' : k = j
          · subst hk'
            omega
          · rw [hkept k hk hk']
        have hlt := lt_ceil_of_least hj hleast (hsum.trans_le htotal)
        omega
      · rw [hkept j hj hsame]
        exact hle j hj

end Loads

/-! ## Whole histories -/

section Histories

variable {s : Finset ι} {loads : List α → ι → ℤ} {history : List α} {peak : ℤ}

theorem load_le_ceil (hnil : ∀ i ∈ s, loads [] i = 0)
    (hmoves : ∀ front a, front ++ [a] <+: history → Moves s (loads front) (loads (front ++ [a])))
    (hpeak : ∀ front, front <+: history → ∑ i ∈ s, loads front i ≤ peak) :
    ∀ i ∈ s, loads history i ≤ ⌈(peak : ℚ) / s.card⌉ := by
  induction history using List.reverseRecOn with
  | nil =>
      intro i hi
      have hzero := hpeak [] List.prefix_rfl
      rw [Finset.sum_congr rfl hnil, Finset.sum_const_zero] at hzero
      rw [hnil i hi]
      exact Int.ceil_nonneg (div_nonneg (by exact_mod_cast hzero) (Nat.cast_nonneg _))
  | append_singleton front a ih =>
      have hprefix := List.prefix_append front [a]
      have hbefore := ih (fun front' a' h => hmoves front' a' (h.trans hprefix))
        (fun front' h => hpeak front' (h.trans hprefix))
      exact (hmoves front a List.prefix_rfl).le_ceil hbefore (hpeak _ List.prefix_rfl)

/-- The greatest load is the average of the greatest total, rounded up. -/
theorem isGreatest_load (hs : s.Nonempty) (hnil : ∀ i ∈ s, loads [] i = 0)
    (hmoves : ∀ front a, front ++ [a] <+: history → Moves s (loads front) (loads (front ++ [a])))
    (hpeak : IsGreatest (Seen (fun front => ∑ i ∈ s, loads front i) history) peak) :
    IsGreatest {load | ∃ i ∈ s, load ∈ Seen (fun front => loads front i) history}
      ⌈(peak : ℚ) / s.card⌉ := by
  have hle : ∀ front, front <+: history → ∀ i ∈ s, loads front i ≤ ⌈(peak : ℚ) / s.card⌉ :=
    fun front hfront => load_le_ceil hnil (fun front' a h => hmoves front' a (h.trans hfront))
      (fun front' h => hpeak.2 ⟨front', h.trans hfront, rfl⟩)
  constructor
  · obtain ⟨front, hfront, htotal⟩ := hpeak.1
    obtain ⟨i, hi, hceil⟩ : ∃ i ∈ s, ⌈(∑ j ∈ s, loads front j : ℚ) / s.card⌉ ≤ loads front i :=
      exists_ceil_le hs
    refine ⟨i, hi, front, hfront, le_antisymm (hle front hfront i hi) ?_⟩
    rw [← htotal]
    push_cast
    exact hceil
  · rintro load ⟨i, hi, front, hfront, rfl⟩
    exact hle front hfront i hi

end Histories

end Balance
