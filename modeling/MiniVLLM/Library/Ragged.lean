import Mathlib

/-! # Flattened tables with start locations

Rows of different lengths are stored one after the other. The start locations, with the
total length at the end, are what is needed to cut a row out again. -/

namespace Ragged

variable {α : Type*}

/-- Where each row starts in the flattened table, and where the last one ends. -/
def starts (rows : List (List α)) : List ℕ :=
  (List.range (rows.length + 1)).map fun i => (rows.take i).flatten.length

/-- The part of a flattened table between two consecutive start locations. -/
def slice (flat : List α) (locs : List ℕ) (i : ℕ) : List α :=
  (flat.drop (locs.getD i 0)).take (locs.getD (i + 1) 0 - locs.getD i 0)

@[simp] theorem starts_nil : starts ([] : List (List α)) = [0] := rfl

@[simp] theorem length_starts (rows : List (List α)) : (starts rows).length = rows.length + 1 := by
  simp [starts]

theorem getD_starts {rows : List (List α)} {i : ℕ} (h : i ≤ rows.length) :
    (starts rows).getD i 0 = (rows.take i).flatten.length := by
  have hi : i < rows.length + 1 := Nat.lt_succ_of_le h
  rw [starts, List.getD_eq_getElem?_getD, List.getElem?_map, List.getElem?_range hi]
  rfl

theorem getElem?_starts_last (rows : List (List α)) :
    (starts rows)[rows.length]? = some rows.flatten.length := by
  rw [starts, List.getElem?_map, List.getElem?_range (Nat.lt_succ_self _), Option.map_some,
    List.take_length]

/-- A further row adds its end. -/
theorem starts_append_singleton (rows : List (List α)) (row : List α) :
    starts (rows ++ [row]) = starts rows ++ [rows.flatten.length + row.length] := by
  have hprefix : ∀ i ∈ List.range (rows.length + 1),
      ((rows ++ [row]).take i).flatten.length = (rows.take i).flatten.length := by
    intro i hi
    rw [List.take_append_of_le_length (Nat.le_of_lt_succ (List.mem_range.mp hi))]
  have hlast : ((rows ++ [row]).take (rows.length + 1)).flatten.length =
      rows.flatten.length + row.length := by
    rw [List.take_of_length_le (by simp), List.flatten_append, List.length_append]
    simp
  rw [starts, List.length_append, List.length_singleton, List.range_succ, List.map_append,
    List.map_singleton, hlast, List.map_congr_left hprefix]
  rfl

/-- Consecutive start locations are one row apart. -/
theorem starts_succ_sub {rows : List (List α)} {i : ℕ} (h : i < rows.length) :
    (starts rows).getD (i + 1) 0 - (starts rows).getD i 0 = rows[i].length := by
  have hend : (rows.take (i + 1)).flatten.length =
      (rows.take i).flatten.length + rows[i].length := by
    rw [List.take_succ_eq_append_getElem h, List.flatten_append, List.length_append]
    simp
  rw [getD_starts h.le, getD_starts (Nat.succ_le_of_lt h), hend, Nat.add_sub_cancel_left]

/-- Each row can be read back. -/
theorem slice_starts {rows : List (List α)} {i : ℕ} (h : i < rows.length) :
    slice rows.flatten (starts rows) i = rows[i] := by
  have hsplit : rows.flatten =
      (rows.take i).flatten ++ (rows[i] ++ (rows.drop (i + 1)).flatten) := by
    rw [← List.flatten_cons, ← List.flatten_append, List.cons_getElem_drop_succ,
      List.take_append_drop]
  rw [slice, starts_succ_sub h, getD_starts h.le, hsplit, List.drop_left, List.take_left]

/-- Rows of one entry each are as many as the entries. -/
theorem length_flatten_of_singletons {rows : List (List α)} (h : ∀ row ∈ rows, row.length = 1) :
    rows.flatten.length = rows.length := by
  induction rows with
  | nil => rfl
  | cons row rows ih =>
      rw [List.flatten_cons, List.length_append, h row (by simp),
        ih (fun row hrow => h row (List.mem_cons_of_mem _ hrow)), List.length_cons, Nat.add_comm]

/-- Rows of one entry each start at their own index. -/
theorem starts_of_singletons {rows : List (List α)} (h : ∀ row ∈ rows, row.length = 1) :
    starts rows = List.range (rows.length + 1) := by
  have hstart : ∀ i ∈ List.range (rows.length + 1), (rows.take i).flatten.length = i := by
    intro i hi
    rw [length_flatten_of_singletons (fun row hrow => h row (List.mem_of_mem_take hrow)),
      List.length_take]
    exact Nat.min_eq_left (Nat.le_of_lt_succ (List.mem_range.mp hi))
  rw [starts, List.map_congr_left hstart, List.map_id']

/-! ## The row of an entry -/

/-- Start locations depend on the lengths of the rows alone. -/
theorem starts_eq_of_lengths {β : Type*} {rows : List (List α)} {rows' : List (List β)}
    (h : rows.map List.length = rows'.map List.length) : starts rows = starts rows' := by
  have hlen : rows.length = rows'.length := by simpa using congrArg List.length h
  rw [starts, starts, hlen]
  apply List.map_congr_left
  intro i _
  rw [List.length_flatten, List.length_flatten, List.map_take, List.map_take, h]

theorem starts_mono {rows : List (List α)} {i j : ℕ} (hij : i ≤ j) (hj : j ≤ rows.length) :
    (starts rows).getD i 0 ≤ (starts rows).getD j 0 := by
  rw [getD_starts (hij.trans hj), getD_starts hj]
  have htake : rows.take i = (rows.take j).take i := by rw [List.take_take, Nat.min_eq_left hij]
  have hsplit := congrArg List.flatten (List.take_append_drop i (rows.take j))
  rw [List.flatten_append] at hsplit
  rw [htake, ← hsplit, List.length_append]
  exact Nat.le_add_right _ _

theorem le_of_mem_starts {rows : List (List α)} {start : ℕ} (h : start ∈ starts rows) :
    start ≤ rows.flatten.length := by
  obtain ⟨i, hi, rfl⟩ := List.mem_map.mp h
  have hle := starts_mono (Nat.le_of_lt_succ (List.mem_range.mp hi)) le_rfl
  rwa [getD_starts (Nat.le_of_lt_succ (List.mem_range.mp hi)), getD_starts le_rfl,
    List.take_length] at hle

/-- Every entry of the flattened table is in a row. -/
theorem exists_row {rows : List (List α)} {t : ℕ} (ht : t < rows.flatten.length) :
    ∃ r, r < rows.length ∧ (starts rows).getD r 0 ≤ t ∧ t < (starts rows).getD (r + 1) 0 := by
  induction rows using List.reverseRecOn with
  | nil => simp at ht
  | append_singleton rows row ih =>
      have hkeep : ∀ {i}, i ≤ rows.length →
          (starts (rows ++ [row])).getD i 0 = (starts rows).getD i 0 := by
        intro i hi
        rw [getD_starts (by simp; omega), getD_starts hi, List.take_append_of_le_length hi]
      by_cases hlt : t < rows.flatten.length
      · obtain ⟨r, hr, hle, hend⟩ := ih hlt
        refine ⟨r, by simp; omega, ?_, ?_⟩
        · rw [hkeep hr.le]
          exact hle
        · rw [hkeep hr]
          exact hend
      · refine ⟨rows.length, by simp, ?_, ?_⟩
        · rw [hkeep le_rfl, getD_starts le_rfl, List.take_length]
          exact Nat.le_of_not_lt hlt
        · rw [getD_starts (by simp), List.take_of_length_le (by simp)]
          exact ht

/-- The row of an entry is unique. -/
theorem row_unique {rows : List (List α)} {t r r' : ℕ} (hr : r < rows.length)
    (hr' : r' < rows.length) (hle : (starts rows).getD r 0 ≤ t)
    (hlt : t < (starts rows).getD (r + 1) 0) (hle' : (starts rows).getD r' 0 ≤ t)
    (hlt' : t < (starts rows).getD (r' + 1) 0) : r' = r := by
  rcases Nat.lt_trichotomy r' r with hless | heq | hless
  · have hend : (starts rows).getD (r' + 1) 0 ≤ (starts rows).getD r 0 := starts_mono hless hr.le
    omega
  · exact heq
  · have hend : (starts rows).getD (r + 1) 0 ≤ (starts rows).getD r' 0 := starts_mono hless hr'.le
    omega

/-- An entry of the flattened table is read from its row. -/
theorem getElem?_flatten {rows : List (List α)} {t r : ℕ} (hr : r < rows.length)
    (hle : (starts rows).getD r 0 ≤ t) (hlt : t < (starts rows).getD (r + 1) 0) :
    rows.flatten[t]? = rows[r][t - (starts rows).getD r 0]? := by
  have hlen := starts_succ_sub hr
  rw [← slice_starts hr, slice, List.getElem?_take_of_lt (by omega), List.getElem?_drop,
    Nat.add_sub_cancel' hle]

/-- Each row's index, once for each entry of the row. -/
def owners (rows : List (List α)) : List ℕ :=
  (List.range rows.length).flatMap fun r => List.replicate (rows.getD r []).length r

theorem lt_of_mem_owners {rows : List (List α)} {r : ℕ} (h : r ∈ owners rows) :
    r < rows.length := by
  obtain ⟨i, hi, hr⟩ := List.mem_flatMap.mp h
  rw [(List.mem_replicate.mp hr).2]
  exact List.mem_range.mp hi

theorem owners_lengths (rows : List (List α)) :
    ((List.range rows.length).map fun r => List.replicate (rows.getD r []).length r).map
      List.length = rows.map List.length := by
  apply List.ext_getElem
  · simp
  · intro i hi hi'
    have hlt : i < rows.length := by simpa using hi'
    simp [List.getD_eq_getElem?_getD, List.getElem?_eq_getElem hlt]

theorem length_owners (rows : List (List α)) : (owners rows).length = rows.flatten.length := by
  rw [owners, List.flatMap, List.length_flatten, owners_lengths, List.length_flatten]

/-- The owner of an entry is its row. -/
theorem getElem?_owners {rows : List (List α)} {t r : ℕ} (hr : r < rows.length)
    (hle : (starts rows).getD r 0 ≤ t) (hlt : t < (starts rows).getD (r + 1) 0) :
    (owners rows)[t]? = some r := by
  have hstarts := starts_eq_of_lengths (owners_lengths rows)
  have hlen := starts_succ_sub hr
  rw [← hstarts] at hle hlt
  rw [owners, List.flatMap, getElem?_flatten (by simpa using hr) hle hlt, hstarts,
    List.getElem_map, List.getElem_range, List.getD_eq_getElem?_getD, List.getElem?_eq_getElem hr,
    List.getElem?_replicate_of_lt]
  rw [hstarts] at hlt hle
  simp only [Option.getD_some]
  omega

/-- An entry of a cut-out part stands in the flat list, from the start of the part on. -/
theorem getElem?_slice {flat part : List α} {locs : List ℕ} {i j : ℕ}
    (h : slice flat locs i = part) (hj : j < part.length) :
    flat[locs.getD i 0 + j]? = part[j]? := by
  subst h
  have hlt : j < locs.getD (i + 1) 0 - locs.getD i 0 := by
    rw [slice, List.length_take] at hj
    omega
  rw [slice, List.getElem?_take_of_lt hlt, List.getElem?_drop]

/-- Rows of one width stand at multiples of the width. -/
theorem getElem?_flatten_of_width {rows : List (List α)} {width : ℕ}
    (h : ∀ row ∈ rows, row.length = width) {r : ℕ} {row : List α} (hrow : rows[r]? = some row)
    {j : ℕ} (hj : j < width) : rows.flatten[r * width + j]? = row[j]? := by
  induction rows generalizing r with
  | nil => simp at hrow
  | cons first rows ih =>
      have hfirst : first.length = width := h first (by simp)
      cases r with
      | zero =>
          obtain rfl := Option.some.inj hrow
          rw [List.flatten_cons, Nat.zero_mul, Nat.zero_add,
            List.getElem?_append_left (hfirst.symm ▸ hj)]
      | succ r =>
          have hrest := ih (fun row hmem => h row (List.mem_cons_of_mem _ hmem))
            (by simpa using hrow)
          have hindex : (r + 1) * width + j - width = r * width + j := by
            rw [Nat.add_mul, Nat.one_mul]
            omega
          rw [List.flatten_cons, List.getElem?_append_right (by
            rw [hfirst, Nat.add_mul, Nat.one_mul]
            omega), hfirst, hindex, hrest]

/-! ## Rows of one width -/

/-- A row of a table whose rows have one width. -/
def row (flat : List α) (width r : ℕ) : List α := (flat.drop (r * width)).take width

theorem getElem?_row {flat : List α} {width r j : ℕ} (hj : j < width) :
    (row flat width r)[j]? = flat[r * width + j]? := by
  rw [row, List.getElem?_take_of_lt hj, List.getElem?_drop]

theorem getD_row {flat : List α} {width r j : ℕ} (hj : j < width) (default : α) :
    (row flat width r).getD j default = flat.getD (r * width + j) default := by
  rw [List.getD_eq_getElem?_getD, List.getD_eq_getElem?_getD, getElem?_row hj]

theorem length_row {flat : List α} {width count r : ℕ} (h : flat.length = count * width)
    (hr : r < count) : (row flat width r).length = width := by
  have hle : (r + 1) * width ≤ count * width := Nat.mul_le_mul_right _ hr
  rw [Nat.add_mul, Nat.one_mul] at hle
  rw [row, List.length_take, List.length_drop, h]
  omega

/-- Rows of one width can be read back. -/
theorem row_flatten {rows : List (List α)} {width r : ℕ} (h : ∀ row ∈ rows, row.length = width)
    {part : List α} (hr : rows[r]? = some part) : row rows.flatten width r = part := by
  have hpart : part.length = width := h part (List.mem_of_getElem? hr)
  refine List.ext_getElem? fun j => ?_
  by_cases hj : j < width
  · rw [getElem?_row hj, getElem?_flatten_of_width h hr hj]
  · rw [List.getElem?_eq_none (hpart.trans_le (Nat.le_of_not_lt hj)), row,
      List.getElem?_eq_none ((List.length_take_le _ _).trans (Nat.le_of_not_lt hj))]

theorem length_flatten_of_width {rows : List (List α)} {width : ℕ}
    (h : ∀ row ∈ rows, row.length = width) : rows.flatten.length = rows.length * width := by
  rw [List.length_flatten, List.map_congr_left h, List.map_const', List.sum_replicate, smul_eq_mul]

end Ragged
