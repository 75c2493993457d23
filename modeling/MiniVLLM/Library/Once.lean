import Mathlib

/-! # Counting what has a key once

An accumulator adds the weight of an item unless an item with the same key was added before.
Where equal keys mean equal items, it holds the sum over the items without repetition. -/

structure Once (κ μ : Type*) where
  seen : List κ
  total : μ

namespace Once

variable {α κ μ : Type*} [DecidableEq α] [DecidableEq κ] [AddCommMonoid μ] {key : α → κ}
  {weight : α → μ}

def add (key : α → κ) (weight : α → μ) (acc : Once κ μ) (x : α) : Once κ μ :=
  if key x ∈ acc.seen then acc else ⟨key x :: acc.seen, acc.total + weight x⟩

/-- The accumulator has seen the keys of the list and holds every item of it once. -/
structure Holds (key : α → κ) (weight : α → μ) (acc : Once κ μ) (xs : List α) : Prop where
  mem_seen : ∀ k, k ∈ acc.seen ↔ ∃ x ∈ xs, key x = k
  total_eq : acc.total = ∑ x ∈ xs.toFinset, weight x

omit [DecidableEq κ] in
theorem holds_nil : Holds key weight ⟨[], 0⟩ ([] : List α) where
  mem_seen := by simp
  total_eq := by simp

/-- A further item is counted if its key is new, and was counted if it is not. -/
theorem Holds.add {acc : Once κ μ} {xs : List α} (h : Holds key weight acc xs) {x : α}
    (hkey : ∀ y ∈ xs, key y = key x → y = x) :
    Holds key weight (acc.add key weight x) (xs ++ [x]) := by
  have hinsert : (xs ++ [x]).toFinset = insert x xs.toFinset := by
    ext y
    simp
  by_cases hseen : key x ∈ acc.seen
  · obtain ⟨y, hy, hsame⟩ := (h.mem_seen _).mp hseen
    obtain rfl := hkey y hy hsame
    rw [Once.add, if_pos hseen]
    refine ⟨fun k => ?_, ?_⟩
    · rw [h.mem_seen]
      constructor
      · rintro ⟨z, hz, rfl⟩
        exact ⟨z, List.mem_append_left _ hz, rfl⟩
      · rintro ⟨z, hz, rfl⟩
        rcases List.mem_append.mp hz with hz | hz
        · exact ⟨z, hz, rfl⟩
        · exact ⟨y, hy, by rw [List.mem_singleton.mp hz]⟩
    · rw [hinsert, Finset.insert_eq_of_mem (List.mem_toFinset.mpr hy)]
      exact h.total_eq
  · have hnew : x ∉ xs.toFinset := fun hx =>
      hseen ((h.mem_seen _).mpr ⟨x, List.mem_toFinset.mp hx, rfl⟩)
    rw [Once.add, if_neg hseen]
    refine ⟨fun k => ?_, ?_⟩
    · rw [List.mem_cons, h.mem_seen]
      constructor
      · rintro (rfl | ⟨z, hz, rfl⟩)
        · exact ⟨x, by simp, rfl⟩
        · exact ⟨z, List.mem_append_left _ hz, rfl⟩
      · rintro ⟨z, hz, rfl⟩
        rcases List.mem_append.mp hz with hz | hz
        · exact Or.inr ⟨z, hz, rfl⟩
        · exact Or.inl (by rw [List.mem_singleton.mp hz])
    · show acc.total + weight x = _
      rw [h.total_eq, hinsert, Finset.sum_insert hnew, add_comm]

end Once
