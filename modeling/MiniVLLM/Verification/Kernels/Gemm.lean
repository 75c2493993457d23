import MiniVLLM.Model.Gemm

/-! # The tiled GEMM

Tile by tile the sums of a thread grow to the products of its rows and columns, for the
padding adds nothing. The patches of all threads cover the result once. -/

namespace MiniVLLM

namespace Gemm

open Launch Tiling

variable {R : Type} [CommRing R]

/-- An entry of a matrix that is zero outside of it. -/
def padded (matrix : List R) (rows cols row col : ℕ) : R :=
  if row < rows ∧ col < cols then matrix.getD (row * cols + col) 0 else 0

def product (a b : List R) (n k row col : ℕ) : R :=
  ((List.range k).map fun l => a.getD (row * k + l) 0 * b.getD (l * n + col) 0).sum

section Loads

variable {matrix : List R} {rows cols row col : ℕ}

theorem load_entry (hlength : matrix.length = rows * cols) (hle : rows * cols ≤ 2 ^ 31)
    (hrow : row < rows) (hcol : col < cols) :
    (CInt.index row cols col).bind (Buffer.load matrix) =
      some (matrix.getD (row * cols + col) 0) := by
  have hlt : row * cols + col < matrix.length := hlength ▸ row_lt hrow hcol
  rw [CInt.index_natCast ((row_lt hrow hcol).trans_le hle), Option.bind_some, Buffer.load_natCast,
    List.getElem?_eq_getElem hlt, List.getD_eq_getElem?_getD, List.getElem?_eq_getElem hlt,
    Option.getD_some]

/-- A guarded load stays inside its matrix. -/
theorem guardedLoad_eq (hlength : matrix.length = rows * cols) (hle : rows * cols ≤ 2 ^ 31) :
    guardedLoad matrix rows cols row col = some (padded matrix rows cols row col) := by
  rw [guardedLoad, padded]
  by_cases hin : row < rows ∧ col < cols
  · rw [if_pos hin, if_pos (by simpa using hin)]
    exact load_entry hlength hle hin.1 hin.2
  · rw [if_neg hin, if_neg (by simpa using hin)]

theorem mem_patch {offset : ℕ × ℕ} : offset ∈ patch ↔ offset.1 < 2 ∧ offset.2 < 2 := by
  obtain ⟨dr, dc⟩ := offset
  simp only [patch, List.mem_cons, Prod.mk.injEq, List.not_mem_nil, or_false]
  omega

def patchCell (cell : ℕ → ℕ → TileCell) (ty tx : ℕ) (offset : ℕ × ℕ) : TileCell :=
  cell (ty * 2 + offset.1) (tx * 2 + offset.2)

/-- The four loads fill the patch and leave the other cells. -/
theorem exists_loadPatch (row col : ℕ) (cell : ℕ → ℕ → TileCell) (ty tx : ℕ)
    (tiles : TileCell → R) (hlength : matrix.length = rows * cols) (hle : rows * cols ≤ 2 ^ 31)
    (hcell : ∀ r c r' c', cell r c = cell r' c' → r = r' ∧ c = c') :
    ∃ tiles', loadPatch matrix rows cols row col cell (ty * 2) (tx * 2) tiles = some tiles' ∧
      (∀ offset ∈ patch, tiles' (patchCell cell ty tx offset) =
        padded matrix rows cols (row + offset.1) (col + offset.2)) ∧
      ∀ c, (∀ offset ∈ patch, c ≠ patchCell cell ty tx offset) → tiles' c = tiles c := by
  have hnodup : (patch.map (patchCell cell ty tx)).Nodup := by
    refine List.Nodup.map (fun offset offset' heq => ?_) (by decide)
    obtain ⟨hr, hc⟩ := hcell _ _ _ _ heq
    exact Prod.ext (Nat.add_left_cancel hr) (Nat.add_left_cancel hc)
  refine ⟨sweep (patchCell cell ty tx)
    (fun offset _ => padded matrix rows cols (row + offset.1) (col + offset.2)) patch tiles, ?_,
    fun offset hoffset => sweep_of_mem hnodup hoffset, fun c hc => sweep_of_forall_ne hc⟩
  refine Option.foldlM_eq_some (fun tiles offset _ => ?_) tiles
  rw [← Nat.cast_add, ← Nat.cast_add, guardedLoad_eq hlength hle]
  rfl

end Loads

namespace TiledProblem

variable {problem : TiledProblem R}

/-- Buffers of the right sizes, and an even tile. -/
structure Valid (problem : TiledProblem R) : Prop where
  a_length : problem.a.length = problem.m * problem.k
  b_length : problem.b.length = problem.k * problem.n
  blockDim_mul : problem.blockDim * 2 = problem.tileSize
  blockDim_pos : 0 < problem.blockDim

omit [CommRing R] in
theorem Valid.mk_of_even (ha : problem.a.length = problem.m * problem.k)
    (hb : problem.b.length = problem.k * problem.n) (heven : 2 ∣ problem.tileSize)
    (hpos : 0 < problem.tileSize) : problem.Valid := by
  refine ⟨ha, hb, Nat.div_mul_cancel heven, ?_⟩
  obtain ⟨half, hhalf⟩ := heven
  rw [blockDim, hhalf]
  omega

omit [CommRing R] in
theorem Valid.tileSize_pos (h : problem.Valid) : 0 < problem.tileSize := by
  rw [← h.blockDim_mul]
  exact Nat.mul_pos h.blockDim_pos Nat.two_pos

/-- The device takes the launch, and 32 bits hold every `int` of the kernel. -/
structure Fits (problem : TiledProblem R) : Prop where
  tileSize_le : problem.tileSize ≤ 64
  rows_le : problem.m ≤ 65535 * problem.tileSize
  cols_le : problem.gridX * problem.tileSize ≤ 2 ^ 31
  tiles_lt : problem.k + problem.tileSize < 2 ^ 31
  a_le : problem.m * problem.k ≤ 2 ^ 31
  b_le : problem.k * problem.n ≤ 2 ^ 31
  c_le : problem.m * problem.n ≤ 2 ^ 31

omit [CommRing R] in
theorem Fits.gridY_le (hfits : problem.Fits) (h : problem.Valid) : problem.gridY ≤ 65535 :=
  tileCount_le h.tileSize_pos hfits.rows_le

omit [CommRing R] in
theorem Fits.launchable (hfits : problem.Fits) (h : problem.Valid) (hm : 0 < problem.m)
    (hn : 0 < problem.n) : problem.shape.Launchable := by
  have hdim : problem.blockDim ≤ 32 := by
    have hmul := h.blockDim_mul
    have hle := hfits.tileSize_le
    omega
  have hgridX : problem.gridX ≤ problem.n :=
    tileCount_le h.tileSize_pos (Nat.le_mul_of_pos_right _ h.tileSize_pos)
  refine ⟨⟨?_, hgridX.trans_lt problem.n_lt⟩, ⟨?_, hfits.gridY_le h⟩,
    ⟨Nat.mul_pos h.blockDim_pos h.blockDim_pos, Nat.mul_le_mul hdim hdim⟩, ?_⟩
  · exact Nat.zero_lt_of_lt (div_lt_tileCount h.tileSize_pos hn)
  · exact Nat.zero_lt_of_lt (div_lt_tileCount h.tileSize_pos hm)
  · have hsquare : problem.tileSize * problem.tileSize ≤ 64 * 64 :=
      Nat.mul_le_mul hfits.tileSize_le hfits.tileSize_le
    exact (Nat.mul_le_mul_right 4 (Nat.mul_le_mul_left 2 hsquare)).trans (by decide)

/-! ## Loading a tile -/

section Tile

variable {block t thread r c : ℕ}

omit [CommRing R] in
theorem Valid.row_add (h : problem.Valid) (dr : ℕ) : problem.row block thread + dr =
    problem.blockY block * problem.tileSize + (problem.threadY thread * 2 + dr) := by
  rw [row, ← h.blockDim_mul]
  ring

omit [CommRing R] in
theorem Valid.col_add (h : problem.Valid) (dc : ℕ) : problem.col block thread + dc =
    problem.blockX block * problem.tileSize + (problem.threadX thread * 2 + dc) := by
  rw [col, ← h.blockDim_mul]
  ring

omit [CommRing R] in
theorem Valid.row_lt_gridY (h : problem.Valid) (hblock : block < problem.gridX * problem.gridY)
    (hthread : thread < problem.blockDim * problem.blockDim) :
    problem.row block thread < problem.gridY * problem.tileSize := by
  rw [← Nat.add_zero (problem.row block thread), h.row_add]
  have hy : problem.threadY thread < problem.blockDim := Nat.div_lt_of_lt_mul hthread
  refine row_lt (Nat.div_lt_of_lt_mul hblock) ?_
  rw [← h.blockDim_mul]
  omega

omit [CommRing R] in
theorem Valid.col_lt_gridX (h : problem.Valid) (hblock : block < problem.gridX * problem.gridY) :
    problem.col block thread < problem.gridX * problem.tileSize := by
  rw [← Nat.add_zero (problem.col block thread), h.col_add]
  have hx : problem.threadX thread < problem.blockDim := Nat.mod_lt _ h.blockDim_pos
  refine row_lt (Nat.mod_lt _ (Nat.pos_of_mul_pos_right (Nat.zero_lt_of_lt hblock))) ?_
  rw [← h.blockDim_mul]
  omega

omit [CommRing R] in
theorem Fits.intRow_eq (hfits : problem.Fits) (h : problem.Valid)
    (hblock : block < problem.gridX * problem.gridY)
    (hthread : thread < problem.blockDim * problem.blockDim) :
    problem.intRow block thread = problem.row block thread := by
  have hrow := h.row_lt_gridY hblock hthread
  have hle : problem.gridY * problem.tileSize ≤ 65535 * 64 :=
    Nat.mul_le_mul (hfits.gridY_le h) hfits.tileSize_le
  exact CInt.wrap_natCast (by omega)

omit [CommRing R] in
theorem Fits.intCol_eq (hfits : problem.Fits) (h : problem.Valid)
    (hblock : block < problem.gridX * problem.gridY) :
    problem.intCol block thread = problem.col block thread :=
  CInt.wrap_natCast ((h.col_lt_gridX hblock).trans_le hfits.cols_le)

omit [CommRing R] in
theorem Fits.index_tile (hfits : problem.Fits) (h : problem.Valid)
    (ht : t < tileCount problem.k problem.tileSize) (hc : c < problem.tileSize) :
    CInt.index t problem.tileSize c = some ((t * problem.tileSize + c : ℕ) : ℤ) := by
  have hlt := (lt_tileCount_iff h.tileSize_pos).mp ht
  have htiles := hfits.tiles_lt
  exact CInt.index_natCast (by omega)

def loadTarget (problem : TiledProblem R) (block t thread : ℕ) : TileCell → Option R
  | .a r c =>
      if r / 2 = problem.threadY thread ∧ c / 2 = problem.threadX thread then
        some (padded problem.a problem.m problem.k (problem.blockY block * problem.tileSize + r)
          (t * problem.tileSize + c))
      else none
  | .b r c =>
      if r / 2 = problem.threadY thread ∧ c / 2 = problem.threadX thread then
        some (padded problem.b problem.k problem.n (t * problem.tileSize + r)
          (problem.blockX block * problem.tileSize + c))
      else none

theorem exists_offset {ty tx : ℕ} (h : r / 2 = ty ∧ c / 2 = tx) :
    ∃ offset ∈ patch, r = ty * 2 + offset.1 ∧ c = tx * 2 + offset.2 :=
  ⟨(r % 2, c % 2), mem_patch.mpr ⟨Nat.mod_lt _ Nat.two_pos, Nat.mod_lt _ Nat.two_pos⟩,
    by dsimp only; omega, by dsimp only; omega⟩

theorem ne_of_not_patch {ty tx : ℕ} (h : ¬ (r / 2 = ty ∧ c / 2 = tx)) {offset : ℕ × ℕ}
    (hoffset : offset ∈ patch) : ¬ (r = ty * 2 + offset.1 ∧ c = tx * 2 + offset.2) := by
  have := mem_patch.mp hoffset
  omega

theorem exists_loadTiles (h : problem.Valid) (hfits : problem.Fits)
    (hblock : block < problem.gridX * problem.gridY)
    (ht : t < tileCount problem.k problem.tileSize)
    (hthread : thread < problem.blockDim * problem.blockDim) (tiles : TileCell → R) :
    ∃ tiles', problem.loadTiles block t tiles thread = some tiles' ∧
      Stores (problem.loadTarget block t thread) tiles tiles' := by
  obtain ⟨tilesA, hloadA, hfillA, hkeepA⟩ := exists_loadPatch (problem.row block thread)
    (t * problem.tileSize + problem.threadX thread * 2) .a (problem.threadY thread)
    (problem.threadX thread) tiles h.a_length hfits.a_le (fun _ _ _ _ heq => TileCell.a.inj heq)
  obtain ⟨tilesB, hloadB, hfillB, hkeepB⟩ := exists_loadPatch
    (t * problem.tileSize + problem.threadY thread * 2) (problem.col block thread) .b
    (problem.threadY thread) (problem.threadX thread) tilesA h.b_length hfits.b_le
    (fun _ _ _ _ heq => TileCell.b.inj heq)
  refine ⟨tilesB, ?_, ?_⟩
  · have hy : problem.threadY thread < problem.blockDim := Nat.div_lt_of_lt_mul hthread
    have hx : problem.threadX thread < problem.blockDim := Nat.mod_lt _ h.blockDim_pos
    have htile := h.blockDim_mul
    rw [loadTiles, hfits.intRow_eq h hblock hthread, hfits.intCol_eq h hblock]
    simp only [hfits.index_tile h ht (show problem.threadX thread * 2 < problem.tileSize by omega),
      hfits.index_tile h ht (show problem.threadY thread * 2 < problem.tileSize by omega),
      Option.bind_eq_bind, Option.bind_some, hloadA]
    exact hloadB
  · rintro (⟨r, c⟩ | ⟨r, c⟩)
    · rw [hkeepB _ (fun offset _ => TileCell.noConfusion)]
      by_cases hin : r / 2 = problem.threadY thread ∧ c / 2 = problem.threadX thread
      · rw [loadTarget, if_pos hin]
        obtain ⟨offset, hoffset, rfl, rfl⟩ := exists_offset hin
        exact (hfillA offset hoffset).trans (by rw [h.row_add, Nat.add_assoc]; rfl)
      · rw [loadTarget, if_neg hin]
        exact hkeepA _ fun offset hoffset heq => ne_of_not_patch hin hoffset (TileCell.a.inj heq)
    · by_cases hin : r / 2 = problem.threadY thread ∧ c / 2 = problem.threadX thread
      · rw [loadTarget, if_pos hin]
        obtain ⟨offset, hoffset, rfl, rfl⟩ := exists_offset hin
        exact (hfillB offset hoffset).trans (by rw [h.col_add, Nat.add_assoc]; rfl)
      · rw [loadTarget, if_neg hin]
        refine (hkeepB _ fun offset hoffset heq =>
          ne_of_not_patch hin hoffset (TileCell.b.inj heq)).trans ?_
        exact hkeepA _ fun offset _ => TileCell.noConfusion

theorem loadTarget_apart {thread' : ℕ} (hne : thread ≠ thread') :
    Apart (problem.loadTarget block t thread) (problem.loadTarget block t thread') := by
  have hpair : ∀ r c, (r / 2 = problem.threadY thread ∧ c / 2 = problem.threadX thread) →
      ¬ (r / 2 = problem.threadY thread' ∧ c / 2 = problem.threadX thread') := by
    rintro r c ⟨hr, hc⟩ ⟨hr', hc'⟩
    refine hne ?_
    rw [← Nat.div_add_mod thread problem.blockDim, ← Nat.div_add_mod thread' problem.blockDim]
    exact congrArg₂ (fun ty tx => problem.blockDim * ty + tx) (hr.symm.trans hr')
      (hc.symm.trans hc')
  rintro (⟨r, c⟩ | ⟨r, c⟩)
  all_goals
    by_cases hin : r / 2 = problem.threadY thread ∧ c / 2 = problem.threadX thread
    · exact Or.inr (if_neg (hpair r c hin))
    · exact Or.inl (if_neg hin)

/-- After the loads of a block both tiles hold their part of the padded matrices. -/
theorem exists_launch_loadTiles (h : problem.Valid) (hfits : problem.Fits)
    (hblock : block < problem.gridX * problem.gridY)
    (ht : t < tileCount problem.k problem.tileSize) (schedule : Launch.Schedule)
    (tiles : TileCell → R) :
    ∃ tiles', schedule.launch (problem.blockDim * problem.blockDim) (problem.loadTiles block t)
        tiles = some tiles' ∧
      (∀ r < problem.tileSize, ∀ c < problem.tileSize, tiles' (.a r c) =
        padded problem.a problem.m problem.k (problem.blockY block * problem.tileSize + r)
          (t * problem.tileSize + c)) ∧
      ∀ r < problem.tileSize, ∀ c < problem.tileSize, tiles' (.b r c) =
        padded problem.b problem.k problem.n (t * problem.tileSize + r)
          (problem.blockX block * problem.tileSize + c) := by
  obtain ⟨tiles', hlaunch, _, hscattered⟩ := schedule.exists_launch
    (problem.blockDim * problem.blockDim) (fun tiles : TileCell → R => tiles)
    (P := fun _ => True) trivial
    (fun _ _ _ _ hne => loadTarget_apart hne)
    (fun tiles thread hthread _ _ => by
      obtain ⟨tiles', hload, hstores⟩ := exists_loadTiles h hfits hblock ht hthread tiles
      exact ⟨tiles', hload, trivial, hstores⟩)
  have hthread : ∀ r < problem.tileSize, ∀ c < problem.tileSize, ∃ thread,
      thread < problem.blockDim * problem.blockDim ∧ r / 2 = problem.threadY thread ∧
        c / 2 = problem.threadX thread := by
    intro r hr c hc
    rw [← h.blockDim_mul] at hr hc
    have hr' : r / 2 < problem.blockDim := by omega
    have hc' : c / 2 < problem.blockDim := by omega
    exact ⟨r / 2 * problem.blockDim + c / 2, row_lt hr' hc', (row_div _ hc').symm,
      (row_mod _ hc').symm⟩
  refine ⟨tiles', hlaunch, fun r hr c hc => ?_, fun r hr c hc => ?_⟩
  · obtain ⟨thread, hlt, hin⟩ := hthread r hr c hc
    exact hscattered.stored thread (List.mem_range.mpr hlt) _ _ (if_pos hin)
  · obtain ⟨thread, hlt, hin⟩ := hthread r hr c hc
    exact hscattered.stored thread (List.mem_range.mpr hlt) _ _ (if_pos hin)

end Tile

/-! ## The sums -/

section Sums

variable {block thread : ℕ} {offset : ℕ × ℕ}

theorem foldl_add_patch (f : ℕ → ℕ → ℕ → R) (l : List ℕ) (sums : ℕ → ℕ → R) (dr dc : ℕ) :
    l.foldl (fun sums j dr dc => sums dr dc + f j dr dc) sums dr dc =
      sums dr dc + (l.map fun j => f j dr dc).sum := by
  induction l generalizing sums with
  | nil => simp
  | cons j l ih => rw [List.foldl_cons, ih, List.map_cons, List.sum_cons, add_assoc]

/-- The terms of an entry of the product, zero beyond `k`. -/
def term (problem : TiledProblem R) (row col l : ℕ) : R :=
  padded problem.a problem.m problem.k row l * padded problem.b problem.k problem.n l col

theorem term_of_le {row col l : ℕ} (h : problem.k ≤ l) : problem.term row col l = 0 := by
  rw [term, padded, if_neg (fun hin => Nat.not_lt.mpr h hin.2), zero_mul]

/-- One tile adds its terms to the sums of every thread. -/
theorem exists_tileStep (h : problem.Valid) (hfits : problem.Fits)
    (hblock : block < problem.gridX * problem.gridY) {t : ℕ}
    (ht : t < tileCount problem.k problem.tileSize) (schedule : Launch.Schedule)
    (state : BlockState R) :
    ∃ state', problem.tileStep schedule block state t = some state' ∧
      ∀ thread < problem.blockDim * problem.blockDim, ∀ offset ∈ patch,
        state'.sums thread offset.1 offset.2 = state.sums thread offset.1 offset.2 +
          ((List.range problem.tileSize).map fun j =>
            problem.term (problem.row block thread + offset.1) (problem.col block thread + offset.2)
              (t * problem.tileSize + j)).sum := by
  obtain ⟨tiles', hlaunch, htileA, htileB⟩ :=
    exists_launch_loadTiles h hfits hblock ht schedule state.tiles
  refine ⟨⟨tiles', fun thread => problem.accumulate tiles' thread (state.sums thread)⟩, ?_, ?_⟩
  · rw [tileStep, hlaunch]
    rfl
  · intro thread hthread offset hoffset
    obtain ⟨hdr, hdc⟩ := mem_patch.mp hoffset
    have hy : problem.threadY thread < problem.blockDim := Nat.div_lt_of_lt_mul hthread
    have hx : problem.threadX thread < problem.blockDim := Nat.mod_lt _ h.blockDim_pos
    have hrow : problem.threadY thread * 2 + offset.1 < problem.tileSize := by
      rw [← h.blockDim_mul]
      omega
    have hcol : problem.threadX thread * 2 + offset.2 < problem.tileSize := by
      rw [← h.blockDim_mul]
      omega
    dsimp only
    rw [accumulate, foldl_add_patch]
    refine congrArg (state.sums thread offset.1 offset.2 + ·) (congrArg List.sum ?_)
    refine List.map_congr_left fun j hj => ?_
    have hj := List.mem_range.mp hj
    rw [htileA _ hrow j hj, htileB j hj _ hcol, term, h.row_add, h.col_add]

/-- After all tiles the sums are the entries of the product. -/
theorem exists_tiles (h : problem.Valid) (hfits : problem.Fits)
    (hblock : block < problem.gridX * problem.gridY) (schedule : ℕ → Launch.Schedule)
    (garbage : TileCell → R) {count : ℕ}
    (hcount : count ≤ tileCount problem.k problem.tileSize) :
    ∃ state, (List.range count).foldlM
        (fun state t => problem.tileStep (schedule t) block state t) ⟨garbage, fun _ _ _ => 0⟩ =
        some state ∧
      ∀ thread < problem.blockDim * problem.blockDim, ∀ offset ∈ patch,
        state.sums thread offset.1 offset.2 =
          ((List.range count).map fun t => ((List.range problem.tileSize).map fun j =>
            problem.term (problem.row block thread + offset.1) (problem.col block thread + offset.2)
              (t * problem.tileSize + j)).sum).sum := by
  induction count with
  | zero => exact ⟨_, rfl, fun _ _ _ _ => rfl⟩
  | succ count ih =>
      obtain ⟨state, hrun, hsums⟩ := ih (Nat.le_of_succ_le hcount)
      obtain ⟨state', hstep, hadd⟩ := exists_tileStep h hfits hblock hcount (schedule count) state
      refine ⟨state', ?_, fun thread hthread offset hoffset => ?_⟩
      · rw [List.range_succ, List.foldlM_append, hrun, Option.bind_eq_bind, Option.bind_some]
        simpa using hstep
      · rw [hadd thread hthread offset hoffset, hsums thread hthread offset hoffset,
          List.range_succ, List.map_append, List.sum_append, List.map_singleton,
          List.sum_singleton]

/-- Inside the result the terms of an entry add up to the product. -/
theorem sum_term (h : problem.Valid) {row col : ℕ} (hrow : row < problem.m)
    (hcol : col < problem.n) :
    ((List.range (tileCount problem.k problem.tileSize)).map fun t =>
        ((List.range problem.tileSize).map fun j =>
          problem.term row col (t * problem.tileSize + j)).sum).sum =
      product problem.a problem.b problem.n problem.k row col := by
  rw [sum_tiles h.tileSize_pos fun l hl => term_of_le hl, product]
  refine congrArg List.sum (List.map_congr_left fun l hl => ?_)
  have hl := List.mem_range.mp hl
  rw [term, padded, if_pos ⟨hrow, hl⟩, padded, if_pos ⟨hl, hcol⟩]

end Sums

/-! ## The stores -/

section Stores

variable {block thread : ℕ}

def entries (problem : TiledProblem R) (block thread : ℕ) : List (ℕ × ℕ) :=
  (patch.map fun offset =>
    (problem.row block thread + offset.1, problem.col block thread + offset.2)).filter
      fun entry => entry.1 < problem.m ∧ entry.2 < problem.n

/-- The store of an entry, at its place and with its value. -/
def storeOf (problem : TiledProblem R) (entry : ℕ × ℕ) : ℤ × R :=
  ((entry.1 * problem.n + entry.2 : ℕ),
    product problem.a problem.b problem.n problem.k entry.1 entry.2)

theorem storePatch_eq (h : problem.Valid) (hfits : problem.Fits)
    (hblock : block < problem.gridX * problem.gridY)
    (hthread : thread < problem.blockDim * problem.blockDim) {sums : ℕ → ℕ → R}
    (hsums : ∀ offset ∈ patch, problem.row block thread + offset.1 < problem.m →
      problem.col block thread + offset.2 < problem.n → sums offset.1 offset.2 =
        product problem.a problem.b problem.n problem.k (problem.row block thread + offset.1)
          (problem.col block thread + offset.2)) :
    problem.storePatch block thread sums =
      some ((problem.entries block thread).map problem.storeOf) := by
  rw [storePatch, hfits.intRow_eq h hblock hthread, hfits.intCol_eq h hblock, entries,
    List.filter_map, List.map_map]
  have hfilter : (patch.filter fun offset =>
      (problem.row block thread : ℤ) + offset.1 < problem.m ∧
        (problem.col block thread : ℤ) + offset.2 < problem.n) =
      patch.filter ((fun entry : ℕ × ℕ => decide (entry.1 < problem.m ∧ entry.2 < problem.n)) ∘
        fun offset =>
          (problem.row block thread + offset.1, problem.col block thread + offset.2)) :=
    List.filter_congr fun offset _ => by
      rw [Function.comp_apply, decide_eq_decide]
      norm_cast
  rw [hfilter]
  refine Option.mapM_eq_some fun offset hoffset => ?_
  obtain ⟨hmem, hin⟩ := List.mem_filter.mp hoffset
  obtain ⟨hrow, hcol⟩ := of_decide_eq_true hin
  have hlt := (row_lt hrow hcol).trans_le hfits.c_le
  rw [← Nat.cast_add, ← Nat.cast_add, CInt.index_natCast hlt, hsums offset hmem hrow hcol]
  rfl

theorem exists_runBlock (h : problem.Valid) (hfits : problem.Fits)
    (hblock : block < problem.gridX * problem.gridY) (schedule : ℕ → Launch.Schedule)
    (garbage : TileCell → R) :
    problem.runBlock schedule garbage block =
      some (((schedule (tileCount problem.k problem.tileSize)).order
        (problem.blockDim * problem.blockDim)).flatMap fun thread =>
          (problem.entries block thread).map problem.storeOf) := by
  obtain ⟨state, hrun, hsums⟩ := exists_tiles h hfits hblock schedule garbage le_rfl
  have hstores : ∀ thread ∈ (schedule (tileCount problem.k problem.tileSize)).order
      (problem.blockDim * problem.blockDim), problem.storePatch block thread (state.sums thread) =
        some ((problem.entries block thread).map problem.storeOf) := by
    intro thread hmem
    have hthread := Launch.Schedule.mem_order.mp hmem
    refine storePatch_eq h hfits hblock hthread fun offset hoffset hrow hcol => ?_
    rw [hsums thread hthread offset hoffset, sum_term h hrow hcol]
  rw [runBlock, CInt.ceilDiv_natCast hfits.tiles_lt h.tileSize_pos, Option.bind_eq_bind,
    Option.bind_some, Int.toNat_natCast]
  rw [tileCount] at hrun hstores ⊢
  rw [hrun, Option.bind_eq_bind, Option.bind_some, Option.mapM_eq_some hstores,
    Option.bind_eq_bind, Option.bind_some, ← List.flatMap_def]
  rfl

/-! ## Coverage -/

def threadOf (problem : TiledProblem R) (entry : ℕ × ℕ) : ℕ :=
  entry.1 / 2 % problem.blockDim * problem.blockDim + entry.2 / 2 % problem.blockDim

def blockOf (problem : TiledProblem R) (entry : ℕ × ℕ) : ℕ :=
  entry.1 / 2 / problem.blockDim * problem.gridX + entry.2 / 2 / problem.blockDim

omit [CommRing R] in
theorem mem_entries {entry : ℕ × ℕ} : entry ∈ problem.entries block thread ↔
    (∃ offset ∈ patch, entry = (problem.row block thread + offset.1,
      problem.col block thread + offset.2)) ∧ entry.1 < problem.m ∧ entry.2 < problem.n := by
  rw [entries, List.mem_filter, List.mem_map, decide_eq_true_eq]
  simp only [eq_comm (a := entry)]

omit [CommRing R] in
theorem nodup_entries (problem : TiledProblem R) (block thread : ℕ) :
    (problem.entries block thread).Nodup := by
  refine List.Nodup.filter _ (List.Nodup.map (fun offset offset' heq => ?_) (by decide))
  obtain ⟨hr, hc⟩ := Prod.mk.inj heq
  exact Prod.ext (Nat.add_left_cancel hr) (Nat.add_left_cancel hc)

omit [CommRing R] in
theorem half_of_mem_entries {entry : ℕ × ℕ} (hmem : entry ∈ problem.entries block thread) :
    entry.1 / 2 = problem.blockY block * problem.blockDim + problem.threadY thread ∧
      entry.2 / 2 = problem.blockX block * problem.blockDim + problem.threadX thread := by
  obtain ⟨⟨offset, hoffset, rfl⟩, _⟩ := mem_entries.mp hmem
  have := mem_patch.mp hoffset
  rw [row, col]
  dsimp only
  omega

omit [CommRing R] in
theorem threadOf_eq (h : problem.Valid) {entry : ℕ × ℕ}
    (hthread : thread < problem.blockDim * problem.blockDim)
    (hmem : entry ∈ problem.entries block thread) : problem.threadOf entry = thread := by
  have hy : problem.threadY thread < problem.blockDim := Nat.div_lt_of_lt_mul hthread
  have hx : problem.threadX thread < problem.blockDim := Nat.mod_lt _ h.blockDim_pos
  obtain ⟨hrow, hcol⟩ := half_of_mem_entries hmem
  rw [threadOf, hrow, hcol, row_mod _ hy, row_mod _ hx]
  exact Nat.div_add_mod' thread problem.blockDim

omit [CommRing R] in
theorem blockOf_eq (h : problem.Valid) {entry : ℕ × ℕ}
    (hthread : thread < problem.blockDim * problem.blockDim)
    (hmem : entry ∈ problem.entries block thread) : problem.blockOf entry = block := by
  have hy : problem.threadY thread < problem.blockDim := Nat.div_lt_of_lt_mul hthread
  have hx : problem.threadX thread < problem.blockDim := Nat.mod_lt _ h.blockDim_pos
  obtain ⟨hrow, hcol⟩ := half_of_mem_entries hmem
  rw [blockOf, hrow, hcol, row_div _ hy, row_div _ hx]
  exact Nat.div_add_mod' block problem.gridX

/-- The thread whose patch an entry of the grid lies in. -/
structure Owner (problem : TiledProblem R) (entry : ℕ × ℕ) (block thread : ℕ) : Prop where
  block_lt : block < problem.gridX * problem.gridY
  thread_lt : thread < problem.blockDim * problem.blockDim
  row_eq : problem.row block thread = entry.1 / 2 * 2
  col_eq : problem.col block thread = entry.2 / 2 * 2
  threadY_eq : problem.threadY thread = entry.1 / 2 % problem.blockDim
  threadX_eq : problem.threadX thread = entry.2 / 2 % problem.blockDim

omit [CommRing R] in
theorem Valid.owner (h : problem.Valid) (entry : ℕ × ℕ)
    (hrow : entry.1 < problem.gridY * problem.tileSize)
    (hcol : entry.2 < problem.gridX * problem.tileSize) :
    problem.Owner entry (problem.blockOf entry) (problem.threadOf entry) := by
  have hy : entry.1 / 2 / problem.blockDim < problem.gridY := by
    rw [Nat.div_div_eq_div_mul, Nat.mul_comm 2, h.blockDim_mul]
    exact Nat.div_lt_of_lt_mul (by rwa [Nat.mul_comm])
  have hx : entry.2 / 2 / problem.blockDim < problem.gridX := by
    rw [Nat.div_div_eq_div_mul, Nat.mul_comm 2, h.blockDim_mul]
    exact Nat.div_lt_of_lt_mul (by rwa [Nat.mul_comm])
  have hthreadY := Nat.mod_lt (entry.1 / 2) h.blockDim_pos
  have hthreadX := Nat.mod_lt (entry.2 / 2) h.blockDim_pos
  refine ⟨by rw [Nat.mul_comm]; exact row_lt hy hx, row_lt hthreadY hthreadX, ?_, ?_,
    row_div _ hthreadX, row_mod _ hthreadX⟩
  · rw [row, blockY, threadY, blockOf, threadOf, row_div _ hx, row_div _ hthreadX,
      Nat.div_add_mod']
  · rw [col, blockX, threadX, blockOf, threadOf, row_mod _ hx, row_mod _ hthreadX,
      Nat.div_add_mod']

omit [CommRing R] in
/-- The patches of all threads hold every entry of the result once. -/
theorem entries_perm (h : problem.Valid) {blocks : List ℕ} {threads : ℕ → List ℕ}
    (hblocks : blocks.Perm (List.range (problem.gridX * problem.gridY)))
    (hthreads : ∀ block, (threads block).Perm
      (List.range (problem.blockDim * problem.blockDim))) :
    (blocks.flatMap fun block => (threads block).flatMap (problem.entries block)).Perm
      ((List.range (problem.m * problem.n)).map fun i => (i / problem.n, i % problem.n)) := by
  have hlt : ∀ block, ∀ thread ∈ threads block, thread < problem.blockDim * problem.blockDim :=
    fun block thread hthread => List.mem_range.mp ((hthreads block).subset hthread)
  refine (List.perm_ext_iff_of_nodup ?_ ?_).mpr fun entry => ?_
  · refine List.nodup_flatMap_of_owner problem.blockOf (hblocks.nodup_iff.mpr List.nodup_range) ?_ ?_
    · exact fun block _ => List.nodup_flatMap_of_owner problem.threadOf
        ((hthreads block).nodup_iff.mpr List.nodup_range)
        (fun thread _ => problem.nodup_entries block thread)
        (fun thread hthread entry hmem => threadOf_eq h (hlt block thread hthread) hmem)
    · intro block _ entry hmem
      obtain ⟨thread, hthread, hmem⟩ := List.mem_flatMap.mp hmem
      exact blockOf_eq h (hlt block thread hthread) hmem
  · refine List.Nodup.map_on (fun i _ j _ heq => ?_) List.nodup_range
    obtain ⟨hdiv, hmod⟩ := Prod.mk.inj heq
    rw [← Nat.div_add_mod' i problem.n, ← Nat.div_add_mod' j problem.n, hdiv, hmod]
  · rw [List.mem_map]
    constructor
    · intro hmem
      obtain ⟨block, _, hmem⟩ := List.mem_flatMap.mp hmem
      obtain ⟨thread, _, hmem⟩ := List.mem_flatMap.mp hmem
      obtain ⟨_, hrow, hcol⟩ := mem_entries.mp hmem
      exact ⟨entry.1 * problem.n + entry.2, List.mem_range.mpr (row_lt hrow hcol),
        Prod.ext (row_div _ hcol) (row_mod _ hcol)⟩
    · rintro ⟨i, hi, rfl⟩
      obtain ⟨hrow, hcol⟩ := div_mod_of_lt (List.mem_range.mp hi)
      have howner := h.owner (i / problem.n, i % problem.n)
        (hrow.trans_le (le_tileCount_mul _ h.tileSize_pos))
        (hcol.trans_le (le_tileCount_mul _ h.tileSize_pos))
      refine List.mem_flatMap.mpr ⟨_, hblocks.symm.subset (List.mem_range.mpr howner.block_lt),
        List.mem_flatMap.mpr ⟨_, (hthreads _).symm.subset (List.mem_range.mpr howner.thread_lt),
          mem_entries.mpr ⟨⟨(i / problem.n % 2, i % problem.n % 2), mem_patch.mpr
            ⟨Nat.mod_lt _ Nat.two_pos, Nat.mod_lt _ Nat.two_pos⟩, ?_⟩, hrow, hcol⟩⟩⟩
      rw [howner.row_eq, howner.col_eq, Nat.div_add_mod', Nat.div_add_mod']

end Stores

/-! ## The launch -/

/-- What the stores of a launch are: one for each entry of the result, with its value, which is
also the one store of the thread of the naive kernel. -/
structure GemmSpec (problem : TiledProblem R) (stores : List (ℤ × R)) : Prop where
  once : (stores.map Prod.fst).Perm ((List.range (problem.m * problem.n)).map Nat.cast)
  value : ∀ row < problem.m, ∀ col < problem.n,
    (((row * problem.n + col : ℕ) : ℤ), ((List.range problem.k).map fun l =>
      problem.a.getD (row * problem.k + l) 0 * problem.b.getD (l * problem.n + col) 0).sum) ∈ stores
  naive : ∀ row < problem.m, ∀ col < problem.n, ∃ store ∈ stores,
    matMul problem.a problem.b problem.m problem.n problem.k row col = some [store] ∧
      store.1 = (row * problem.n + col : ℕ)

theorem matMul_eq (h : problem.Valid) (hfits : problem.Fits) {row col : ℕ}
    (hrow : row < problem.m) (hcol : col < problem.n) :
    matMul problem.a problem.b problem.m problem.n problem.k row col =
      some [problem.storeOf (row, col)] := by
  have hfold := Option.foldlM_eq_some (l := List.range problem.k)
    (f := fun (sum : R) (l : ℕ) => do
      let x ← (CInt.index row problem.k l).bind (Buffer.load problem.a)
      let y ← (CInt.index l problem.n col).bind (Buffer.load problem.b)
      pure (sum + x * y))
    (g := fun sum l => sum + problem.a.getD (row * problem.k + l) 0 *
      problem.b.getD (l * problem.n + col) 0)
    (fun sum l hl => by
      have hl := List.mem_range.mp hl
      rw [load_entry h.a_length hfits.a_le hrow hl, load_entry h.b_length hfits.b_le hl hcol]
      rfl) 0
  have hindex := CInt.index_natCast ((row_lt hrow hcol).trans_le hfits.c_le)
  rw [matMul, if_pos ⟨hrow, hcol⟩, hfold, hindex, storeOf, product, List.sum_eq_foldl,
    List.foldl_map]
  rfl

/-- In range, the tiled kernel stores every entry of the product once. -/
theorem Fits.exists_tilingMatMul (hfits : problem.Fits) (h : problem.Valid)
    (hlaunch : problem.shape.Launchable) (blocks : Launch.Schedule)
    (threads : ℕ → ℕ → Launch.Schedule) (garbage : ℕ → TileCell → R) :
    ∃ stores, problem.tilingMatMul blocks threads garbage = some stores ∧
      problem.GemmSpec stores := by
  have hrun : problem.tilingMatMul blocks threads garbage =
      some (((blocks.order (problem.gridX * problem.gridY)).flatMap fun block =>
        ((threads block (tileCount problem.k problem.tileSize)).order
          (problem.blockDim * problem.blockDim)).flatMap (problem.entries block)).map
            problem.storeOf) := by
    rw [tilingMatMul, if_pos hlaunch, Option.mapM_eq_some fun block hblock =>
        exists_runBlock h hfits (Launch.Schedule.mem_order.mp hblock) _ _,
      Option.bind_eq_bind, Option.bind_some, Option.pure_def, List.map_flatMap,
      List.flatMap_def]
    simp only [List.map_flatMap]
  have hperm := (entries_perm h (blocks.perm _) fun block =>
    (threads block (tileCount problem.k problem.tileSize)).perm _).map problem.storeOf
  have hmem : ∀ row < problem.m, ∀ col < problem.n, problem.storeOf (row, col) ∈
      ((List.range (problem.m * problem.n)).map fun i => (i / problem.n, i % problem.n)).map
        problem.storeOf := by
    intro row hrow col hcol
    refine List.mem_map_of_mem (List.mem_map.mpr
      ⟨row * problem.n + col, List.mem_range.mpr (row_lt hrow hcol), ?_⟩)
    rw [row_div _ hcol, row_mod _ hcol]
  refine ⟨_, hrun, ?_, fun row hrow col hcol => hperm.symm.subset (hmem row hrow col hcol),
    fun row hrow col hcol => ⟨_, hperm.symm.subset (hmem row hrow col hcol),
      matMul_eq h hfits hrow hcol, rfl⟩⟩
  refine (hperm.map Prod.fst).trans (List.Perm.of_eq ?_)
  rw [List.map_map, List.map_map]
  exact List.map_congr_left fun i _ => congrArg Nat.cast (Nat.div_add_mod' i problem.n)

/-! ## Out of range

One index that no `int` holds, or one load outside of a matrix, leaves the whole launch without
a result. -/

section OutOfRange

variable {block thread t row col : ℕ} {blocks : Launch.Schedule}
  {threads : ℕ → ℕ → Launch.Schedule} {garbage : ℕ → TileCell → R} {stores : List (ℤ × R)}

theorem guardedLoad_eq_none {matrix : List R} {rows cols : ℕ} (hrow : row < rows)
    (hcol : col < cols) (hindex : 2 ^ 31 ≤ row * cols + col) :
    guardedLoad matrix rows cols row col = none := by
  rw [guardedLoad, if_pos (by simpa using ⟨hrow, hcol⟩), CInt.index_natCast_eq_none hindex]
  rfl

/-- A negative column in the first row. -/
theorem guardedLoad_eq_none_of_neg {matrix : List R} {rows cols : ℕ} {col : ℤ} (hrow : 0 < rows)
    (hcol : col < 0) (hmin : CInt.intMin ≤ col) : guardedLoad matrix rows cols 0 col = none := by
  have hindex : CInt.index 0 cols col = some col := by
    rw [CInt.index, CInt.mul, zero_mul, CInt.value_eq_some (by decide) (by decide),
      Option.bind_eq_bind, Option.bind_some, CInt.add, zero_add,
      CInt.value_eq_some hmin (hcol.le.trans (by decide))]
  rw [guardedLoad, if_pos ⟨Nat.cast_pos.mpr hrow, by omega⟩, hindex, Option.bind_some,
    Buffer.load, if_neg (by omega)]

theorem loadPatch_eq_none {matrix : List R} {rows cols : ℕ} {row col : ℤ}
    {cell : ℕ → ℕ → TileCell} {tileRow tileCol : ℕ} (offset : ℕ × ℕ) (hoffset : offset ∈ patch)
    (hload : guardedLoad matrix rows cols (row + offset.1) (col + offset.2) = none)
    (tiles : TileCell → R) :
    loadPatch matrix rows cols row col cell tileRow tileCol tiles = none :=
  Option.foldlM_eq_none hoffset (fun tiles => by rw [hload]; rfl) tiles

theorem runBlock_eq_none_of_load (ht : t < tileCount problem.k problem.tileSize)
    (hthread : thread < problem.blockDim * problem.blockDim)
    (hload : ∀ tiles, problem.loadTiles block t tiles thread = none)
    (hsum : problem.k + problem.tileSize < 2 ^ 31) (h : problem.Valid)
    (schedule : ℕ → Launch.Schedule) (garbage : TileCell → R) :
    problem.runBlock schedule garbage block = none := by
  have hfold := Option.foldlM_eq_none (List.mem_range.mpr ht)
    (f := fun (state : BlockState R) t => problem.tileStep (schedule t) block state t)
    (fun state => by rw [tileStep, Launch.Schedule.launch_eq_none hthread hload]; rfl)
    ⟨garbage, fun _ _ _ => 0⟩
  rw [tileCount] at hfold
  rw [runBlock, CInt.ceilDiv_natCast hsum h.tileSize_pos, Option.bind_eq_bind, Option.bind_some,
    Int.toNat_natCast, hfold]
  rfl

theorem runBlock_eq_none_of_store (hthread : thread < problem.blockDim * problem.blockDim)
    (hstore : ∀ sums, problem.storePatch block thread sums = none)
    (hsum : problem.k + problem.tileSize < 2 ^ 31) (h : problem.Valid)
    (schedule : ℕ → Launch.Schedule) (garbage : TileCell → R) :
    problem.runBlock schedule garbage block = none := by
  rw [runBlock, CInt.ceilDiv_natCast hsum h.tileSize_pos, Option.bind_eq_bind, Option.bind_some,
    Int.toNat_natCast]
  cases (List.range ((problem.k + problem.tileSize - 1) / problem.tileSize)).foldlM
      (fun state t => problem.tileStep (schedule t) block state t) ⟨garbage, fun _ _ _ => 0⟩ with
  | none => rfl
  | some state =>
      have hmap := Option.mapM_eq_none
        (f := fun thread => problem.storePatch block thread (state.sums thread))
        ((schedule ((problem.k + problem.tileSize - 1) / problem.tileSize)).mem_order.mpr hthread)
        (hstore _)
      rw [Option.bind_eq_bind, Option.bind_some, hmap]
      rfl

/-- A launch that stores is one the device takes, and each of its blocks has a result. -/
theorem runBlock_ne_none (hrun : problem.tilingMatMul blocks threads garbage = some stores)
    (hblock : block < problem.gridX * problem.gridY) (hlaunch : problem.shape.Launchable) :
    problem.runBlock (threads block) (garbage block) block ≠ none := by
  intro hnone
  have hmap := Option.mapM_eq_none
    (f := fun block => problem.runBlock (threads block) (garbage block) block)
    (blocks.mem_order.mpr hblock) hnone
  rw [tilingMatMul, if_pos hlaunch, hmap] at hrun
  cases hrun

omit [CommRing R] in
theorem Valid.owner_of_lt (h : problem.Valid) (hrow : row < problem.m) (hcol : col < problem.n) :
    problem.Owner (row, col) (problem.blockOf (row, col)) (problem.threadOf (row, col)) :=
  h.owner (row, col) (hrow.trans_le (le_tileCount_mul _ h.tileSize_pos))
    (hcol.trans_le (le_tileCount_mul _ h.tileSize_pos))

omit [CommRing R] in
theorem Owner.intRow_eq {entry : ℕ × ℕ} (h : problem.Owner entry block thread)
    (hlt : entry.1 < 2 ^ 31) : problem.intRow block thread = (entry.1 / 2 * 2 : ℕ) := by
  rw [intRow, h.row_eq]
  exact CInt.wrap_natCast (by omega)

omit [CommRing R] in
theorem Owner.intCol_eq {entry : ℕ × ℕ} (h : problem.Owner entry block thread)
    (hlt : entry.2 < 2 ^ 31) : problem.intCol block thread = (entry.2 / 2 * 2 : ℕ) := by
  rw [intCol, h.col_eq]
  exact CInt.wrap_natCast (by omega)

/-- The load of an entry of `a` whose index is too large. -/
theorem loadTiles_eq_none_of_a (h : problem.Valid) {l : ℕ} (hrow : row < problem.m)
    (hl : l < problem.k) (hindex : 2 ^ 31 ≤ row * problem.k + l)
    (howner : problem.Owner (row, l % problem.tileSize) block thread) (tiles : TileCell → R) :
    problem.loadTiles block (l / problem.tileSize) tiles thread = none := by
  have hmod := Nat.mod_lt l h.tileSize_pos
  have hsplit := Nat.div_add_mod' l problem.tileSize
  have hx : problem.threadX thread = l % problem.tileSize / 2 := by
    have htile := h.blockDim_mul
    rw [howner.threadX_eq]
    exact Nat.mod_eq_of_lt (by dsimp only; omega)
  have hk := problem.k_lt
  have hm := problem.m_lt
  have hcol : CInt.index (l / problem.tileSize : ℕ) problem.tileSize
      (problem.threadX thread * 2 : ℕ) =
        some ((l / problem.tileSize * problem.tileSize + problem.threadX thread * 2 : ℕ) : ℤ) :=
    CInt.index_natCast (by omega)
  have hpatch : ∀ tiles, loadPatch problem.a problem.m problem.k (problem.intRow block thread)
      (l / problem.tileSize * problem.tileSize + problem.threadX thread * 2 : ℕ) .a
      (problem.threadY thread * 2) (problem.threadX thread * 2) tiles = none :=
    loadPatch_eq_none (row % 2, l % problem.tileSize % 2)
      (mem_patch.mpr ⟨Nat.mod_lt _ Nat.two_pos, Nat.mod_lt _ Nat.two_pos⟩) (by
      rw [howner.intRow_eq (by dsimp only; omega), ← Nat.cast_add, ← Nat.cast_add,
        show row / 2 * 2 + row % 2 = row from Nat.div_add_mod' row 2,
        show l / problem.tileSize * problem.tileSize + problem.threadX thread * 2 +
          l % problem.tileSize % 2 = l by omega]
      exact guardedLoad_eq_none hrow hl hindex)
  rw [loadTiles, hcol, Option.bind_eq_bind, Option.bind_some, hpatch]
  rfl

theorem loadTiles_eq_none_of_b (h : problem.Valid) {l : ℕ} (hcol : col < problem.n)
    (hl : l < problem.k) (hindex : 2 ^ 31 ≤ l * problem.n + col)
    (howner : problem.Owner (l % problem.tileSize, col) block thread) (tiles : TileCell → R) :
    problem.loadTiles block (l / problem.tileSize) tiles thread = none := by
  have hmod := Nat.mod_lt l h.tileSize_pos
  have hsplit := Nat.div_add_mod' l problem.tileSize
  have hy : problem.threadY thread = l % problem.tileSize / 2 := by
    have htile := h.blockDim_mul
    rw [howner.threadY_eq]
    exact Nat.mod_eq_of_lt (by dsimp only; omega)
  have hk := problem.k_lt
  have hn := problem.n_lt
  have hrow : CInt.index (l / problem.tileSize : ℕ) problem.tileSize
      (problem.threadY thread * 2 : ℕ) =
        some ((l / problem.tileSize * problem.tileSize + problem.threadY thread * 2 : ℕ) : ℤ) :=
    CInt.index_natCast (by omega)
  have hpatch : ∀ tiles, loadPatch problem.b problem.k problem.n
      (l / problem.tileSize * problem.tileSize + problem.threadY thread * 2 : ℕ)
      (problem.intCol block thread) .b (problem.threadY thread * 2) (problem.threadX thread * 2)
      tiles = none :=
    loadPatch_eq_none (l % problem.tileSize % 2, col % 2)
      (mem_patch.mpr ⟨Nat.mod_lt _ Nat.two_pos, Nat.mod_lt _ Nat.two_pos⟩) (by
      rw [howner.intCol_eq (by dsimp only; omega), ← Nat.cast_add, ← Nat.cast_add,
        show col / 2 * 2 + col % 2 = col from Nat.div_add_mod' col 2,
        show l / problem.tileSize * problem.tileSize + problem.threadY thread * 2 +
          l % problem.tileSize % 2 = l by omega]
      exact guardedLoad_eq_none hl hcol hindex)
  rw [loadTiles]
  simp only [hrow, Option.bind_eq_bind, Option.bind_some, hpatch, Option.bind_fun_none]

/-- A column of the grid that no `int` holds turns negative, and passes the guard of the load. -/
theorem loadTiles_eq_none_of_col (hk : 0 < problem.k)
    (hcol : 2 ^ 31 ≤ problem.col block thread)
    (hlt : problem.col block thread < problem.gridX * problem.tileSize)
    (hthread : problem.threadY thread = 0) (tiles : TileCell → R) :
    problem.loadTiles block 0 tiles thread = none := by
  have hgrid : problem.gridX * problem.tileSize ≤ problem.n + problem.tileSize - 1 :=
    Nat.div_mul_le_self _ _
  have hn := problem.n_lt
  have htile := problem.tileSize_lt
  have hwrap : problem.intCol block thread = problem.col block thread - 2 ^ 32 :=
    CInt.wrap_natCast_of_le hcol (by omega)
  have hrow : CInt.index (0 : ℕ) problem.tileSize (problem.threadY thread * 2 : ℕ) =
      some ((0 : ℕ) : ℤ) := by
    rw [hthread, CInt.index_natCast (by simp)]
    simp
  have hpatch : ∀ tiles, loadPatch problem.b problem.k problem.n (0 : ℕ)
      (problem.intCol block thread) .b (problem.threadY thread * 2) (problem.threadX thread * 2)
      tiles = none :=
    loadPatch_eq_none (0, 0) (by simp [patch]) (by
      rw [Nat.cast_zero, add_zero, add_zero, hwrap]
      exact guardedLoad_eq_none_of_neg hk (by omega) (by unfold CInt.intMin; omega))
  rw [loadTiles]
  simp only [hrow, Option.bind_eq_bind, Option.bind_some, hpatch, Option.bind_fun_none]

omit [CommRing R] in
theorem storePatch_eq_none (hrow : row < problem.m) (hcol : col < problem.n)
    (hindex : 2 ^ 31 ≤ row * problem.n + col) (howner : problem.Owner (row, col) block thread)
    (sums : ℕ → ℕ → R) : problem.storePatch block thread sums = none := by
  have hm := problem.m_lt
  have hn := problem.n_lt
  have hrow' : problem.intRow block thread + ((row % 2 : ℕ) : ℤ) = row := by
    rw [howner.intRow_eq (by dsimp only; omega), ← Nat.cast_add, Nat.div_add_mod']
  have hcol' : problem.intCol block thread + ((col % 2 : ℕ) : ℤ) = col := by
    rw [howner.intCol_eq (by dsimp only; omega), ← Nat.cast_add, Nat.div_add_mod']
  refine Option.mapM_eq_none (a := (row % 2, col % 2)) (List.mem_filter.mpr
    ⟨mem_patch.mpr ⟨Nat.mod_lt _ Nat.two_pos, Nat.mod_lt _ Nat.two_pos⟩, ?_⟩) ?_
  · simp only [hrow', hcol']
    exact decide_eq_true ⟨Nat.cast_lt.mpr hrow, Nat.cast_lt.mpr hcol⟩
  · simp only [hrow', hcol', CInt.index_natCast_eq_none hindex, Option.bind_eq_bind,
      Option.bind_none]

/-- Out of range, the stores are not those of the product. -/
theorem Valid.fits_of_gemmSpec (h : problem.Valid) (hm : 0 < problem.m) (hn : 0 < problem.n)
    (hk : 0 < problem.k) (hrun : problem.tilingMatMul blocks threads garbage = some stores)
    (hspec : problem.GemmSpec stores) : problem.Fits := by
  have hlaunch : problem.shape.Launchable := by
    by_contra hnot
    rw [tilingMatMul, if_neg hnot] at hrun
    obtain rfl := Option.some.inj hrun
    have hlength := hspec.once.length_eq
    rw [List.map_nil, List.length_map, List.length_range, List.length_nil] at hlength
    exact absurd hlength (Nat.mul_pos hm hn).ne
  have htiles : problem.k + problem.tileSize < 2 ^ 31 := by
    by_contra hnot
    refine runBlock_ne_none hrun (h.owner_of_lt hm hn).block_lt hlaunch ?_
    rw [runBlock, CInt.ceilDiv_natCast_eq_none (Nat.le_of_not_lt hnot)]
    rfl
  have hgridX : problem.n ≤ problem.gridX * problem.tileSize := le_tileCount_mul _ h.tileSize_pos
  have hgridY : problem.m ≤ problem.gridY * problem.tileSize := le_tileCount_mul _ h.tileSize_pos
  have htileSize := h.blockDim_mul
  have hlastRow : problem.m - 1 < problem.m := Nat.sub_one_lt_of_lt hm
  have hlastCol : problem.n - 1 < problem.n := Nat.sub_one_lt_of_lt hn
  have hlast : problem.k - 1 < problem.k := Nat.sub_one_lt_of_lt hk
  have htile := div_lt_tileCount h.tileSize_pos hlast
  have hmod := Nat.mod_lt (problem.k - 1) h.tileSize_pos
  refine ⟨?_, hgridY.trans (Nat.mul_le_mul_right _ hlaunch.2.1.2), ?_, htiles, ?_, ?_, ?_⟩
  · have hdim : problem.blockDim ≤ 32 := by
      by_contra hnot
      have hsquare : 32 * 32 < problem.blockDim * problem.blockDim :=
        Nat.mul_lt_mul'' (Nat.lt_of_not_le hnot) (Nat.lt_of_not_le hnot)
      exact absurd hlaunch.2.2.1.2 (Nat.not_le.mpr hsquare)
    omega
  · by_contra hnot
    have howner := h.owner (0, problem.gridX * problem.tileSize - 1)
      (hm.trans_le hgridY) (by dsimp only; omega)
    have heven : problem.gridX * problem.tileSize = problem.gridX * problem.blockDim * 2 := by
      rw [← h.blockDim_mul, Nat.mul_assoc]
    have hcol := howner.col_eq
    have hrow := howner.threadY_eq
    dsimp only at hcol hrow
    rw [Nat.zero_div, Nat.zero_mod] at hrow
    refine runBlock_ne_none hrun howner.block_lt hlaunch (runBlock_eq_none_of_load
      (div_lt_tileCount h.tileSize_pos hk) howner.thread_lt (fun tiles => ?_) htiles h _ _)
    rw [Nat.zero_div]
    exact loadTiles_eq_none_of_col hk (by omega) (by omega) hrow tiles
  · by_contra hnot
    have howner := h.owner (problem.m - 1, (problem.k - 1) % problem.tileSize)
      (hlastRow.trans_le hgridY) (hmod.trans_le (Nat.le_mul_of_pos_left _ hlaunch.1.1))
    exact runBlock_ne_none hrun howner.block_lt hlaunch (runBlock_eq_none_of_load htile
      howner.thread_lt (loadTiles_eq_none_of_a h hlastRow hlast (by rw [last_cell hm hk]; omega) howner)
      htiles h _ _)
  · by_contra hnot
    have howner := h.owner ((problem.k - 1) % problem.tileSize, problem.n - 1)
      (hmod.trans_le (Nat.le_mul_of_pos_left _ hlaunch.2.1.1)) (hlastCol.trans_le hgridX)
    exact runBlock_ne_none hrun howner.block_lt hlaunch (runBlock_eq_none_of_load htile
      howner.thread_lt (loadTiles_eq_none_of_b h hlastCol hlast (by rw [last_cell hk hn]; omega) howner)
      htiles h _ _)
  · by_contra hnot
    have howner := h.owner_of_lt hlastRow hlastCol
    exact runBlock_ne_none hrun howner.block_lt hlaunch (runBlock_eq_none_of_store
      howner.thread_lt (storePatch_eq_none hlastRow hlastCol (by rw [last_cell hm hn]; omega) howner)
      htiles h _ _)

end OutOfRange

/-! ## Exactness -/

/-- The tiled kernel stores every entry of the product once exactly when the device takes its
launch and 32 bits hold its indices. -/
theorem tilingMatMul_spec_iff (ha : problem.a.length = problem.m * problem.k)
    (hb : problem.b.length = problem.k * problem.n) (hm : 0 < problem.m) (hn : 0 < problem.n)
    (hk : 0 < problem.k) (heven : 2 ∣ problem.tileSize) (hpos : 0 < problem.tileSize)
    (blocks : Launch.Schedule) (threads : ℕ → ℕ → Launch.Schedule)
    (garbage : ℕ → TileCell → R) :
    (∃ stores, problem.tilingMatMul blocks threads garbage = some stores ∧
      problem.GemmSpec stores) ↔ problem.Fits := by
  have h : problem.Valid := .mk_of_even ha hb heven hpos
  constructor
  · rintro ⟨stores, hrun, hspec⟩
    exact h.fits_of_gemmSpec hm hn hk hrun hspec
  · intro hfits
    exact hfits.exists_tilingMatMul h (hfits.launchable h hm hn) blocks threads garbage

/-- A square of `2 ^ 31 + 4633` ones times a column of ones. -/
def squareProblem : TiledProblem ℤ where
  n := 1
  m := 46341
  k := 46341
  a := List.replicate (46341 * 46341) 1
  b := List.replicate (46341 * 1) 1
  tileSize := 16
  n_lt := Nat.lt_of_sub_eq_succ rfl
  m_lt := Nat.lt_of_sub_eq_succ rfl
  k_lt := Nat.lt_of_sub_eq_succ rfl
  tileSize_lt := Nat.lt_of_sub_eq_succ rfl

/-- The index of its last entries is no `int`. -/
theorem squareProblem_overflows : ¬ ∃ stores,
    squareProblem.tilingMatMul .sequential (fun _ _ => .sequential) (fun _ _ => 0) = some stores ∧
      squareProblem.GemmSpec stores := by
  rintro ⟨stores, hrun, hspec⟩
  have h : squareProblem.Valid :=
    .mk_of_even List.length_replicate List.length_replicate (by decide) (by decide)
  have hfits := h.fits_of_gemmSpec (by decide) (by decide) (by decide) hrun hspec
  exact absurd hfits.a_le (by decide)

/-- A 1x3 matrix times a 3x2 one, in tiles of 2. -/
def smallProblem : TiledProblem ℤ where
  n := 2
  m := 1
  k := 3
  a := [1, 2, 3]
  b := [4, 5, 6, 7, 8, 9]
  tileSize := 2
  n_lt := Nat.lt_of_sub_eq_succ rfl
  m_lt := Nat.lt_of_sub_eq_succ rfl
  k_lt := Nat.lt_of_sub_eq_succ rfl
  tileSize_lt := Nat.lt_of_sub_eq_succ rfl

theorem tilingMatMul_spec_small :
    ∃ stores, smallProblem.tilingMatMul .sequential (fun _ _ => .sequential) (fun _ _ => 7) =
        some stores ∧ smallProblem.GemmSpec stores :=
  (tilingMatMul_spec_iff rfl rfl (by decide) (by decide) (by decide) (by decide) (by decide)
    _ _ _).mpr ⟨by decide, by decide, by decide, by decide, by decide, by decide, by decide⟩

end TiledProblem

end Gemm

end MiniVLLM
