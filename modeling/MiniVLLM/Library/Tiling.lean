import MiniVLLM.Library.Strided

/-! # Tiles

An index range cut into tiles of one width. The last tile may reach beyond the range, so a
kernel that works tile by tile pads or skips there. -/

namespace Tiling

/-- The tiles of a range, the last one included. -/
def tileCount (stop width : ℕ) : ℕ := (stop + width - 1) / width

/-- The indices of a tile. -/
def tile (width t : ℕ) : List ℕ := (List.range width).map (t * width + ·)

variable {stop width i : ℕ}

theorem lt_tileCount_iff (hwidth : 0 < width) : i < tileCount stop width ↔ i * width < stop := by
  rw [tileCount, ← Nat.succ_le_iff, Nat.le_div_iff_mul_le hwidth, Nat.succ_mul]
  omega

/-- The tile of an index of the range is one of its tiles. -/
theorem div_lt_tileCount (hwidth : 0 < width) (h : i < stop) : i / width < tileCount stop width :=
  (lt_tileCount_iff hwidth).mpr ((Nat.div_mul_le_self i width).trans_lt h)

/-- The tiles reach the end of the range. -/
theorem le_tileCount_mul (stop : ℕ) (hwidth : 0 < width) : stop ≤ tileCount stop width * width :=
  Nat.le_of_not_lt fun h => Nat.lt_irrefl _ ((lt_tileCount_iff hwidth).mpr h)

/-- Tile after tile, the indices come in their order. -/
theorem flatMap_tile (count width : ℕ) :
    (List.range count).flatMap (tile width) = List.range (count * width) := by
  induction count with
  | zero => simp
  | succ count ih =>
      rw [List.range_succ, List.flatMap_append, ih, List.flatMap_singleton, Nat.add_mul,
        Nat.one_mul, List.range_add]
      rfl

/-- Tiles that reach the end of the range are enough. -/
theorem tileCount_le {count : ℕ} (hwidth : 0 < width) (h : stop ≤ count * width) :
    tileCount stop width ≤ count :=
  Nat.le_of_not_lt fun hlt => Nat.not_lt.mpr h ((lt_tileCount_iff hwidth).mp hlt)

theorem filter_range_lt {n : ℕ} (h : stop ≤ n) :
    (List.range n).filter (fun i => decide (i < stop)) = List.range stop := by
  obtain ⟨rest, rfl⟩ := Nat.exists_eq_add_of_le h
  rw [List.range_add, List.filter_append, List.filter_eq_self.mpr (by simp),
    List.filter_eq_nil_iff.mpr (by simp), List.append_nil]

/-- A sum with zeros behind the range is the sum over the range. -/
theorem sum_range_padded {M : Type*} [AddCommMonoid M] {f : ℕ → M} {n : ℕ} (h : stop ≤ n)
    (hpad : ∀ i, stop ≤ i → f i = 0) :
    ((List.range n).map f).sum = ((List.range stop).map f).sum := by
  obtain ⟨rest, rfl⟩ := Nat.exists_eq_add_of_le h
  have hzero : ((List.range rest).map fun i => f (stop + i)).sum = 0 := by
    refine List.sum_eq_zero fun x hx => ?_
    obtain ⟨i, _, rfl⟩ := List.mem_map.mp hx
    exact hpad _ (Nat.le_add_right _ _)
  rw [List.range_add, List.map_append, List.sum_append, List.map_map]
  exact (congrArg _ hzero).trans (add_zero _)

/-- A sum over tiles whose padding is zero is the sum over the range. -/
theorem sum_tiles {M : Type*} [AddCommMonoid M] {f : ℕ → M} (hwidth : 0 < width)
    (hpad : ∀ i, stop ≤ i → f i = 0) :
    ((List.range (tileCount stop width)).map fun t =>
        ((List.range width).map fun j => f (t * width + j)).sum).sum =
      ((List.range stop).map f).sum := by
  have htile : ∀ t, ((List.range width).map fun j => f (t * width + j)).sum =
      ((tile width t).map f).sum := by
    intro t
    rw [tile, List.map_map]
    rfl
  calc ((List.range (tileCount stop width)).map fun t =>
        ((List.range width).map fun j => f (t * width + j)).sum).sum
      = (((List.range (tileCount stop width)).flatMap (tile width)).map f).sum := by
        simp only [htile, List.sum_map_flatMap]
    _ = ((List.range (tileCount stop width * width)).map f).sum := by rw [flatMap_tile]
    _ = ((List.range stop).map f).sum := sum_range_padded (le_tileCount_mul stop hwidth) hpad

end Tiling
