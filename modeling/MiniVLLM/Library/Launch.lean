import MiniVLLM.Library.CInt

/-! # Parallel launches

The threads of a launch store to one memory, in an order that only the device knows. Where
no two threads store to the same cell, and each reads only cells that no other one stores,
the order does not show in the memory they leave. -/

/-- Where no element fails, `foldlM` is `foldl`. -/
theorem Option.foldlM_eq_some {α β : Type*} {f : β → α → Option β} {g : β → α → β} {l : List α}
    (h : ∀ b, ∀ a ∈ l, f b a = some (g b a)) (b : β) : l.foldlM f b = some (l.foldl g b) := by
  induction l generalizing b with
  | nil => rfl
  | cons a l ih =>
      rw [List.foldlM_cons, h b a (by simp), List.foldl_cons]
      exact ih (fun b a ha => h b a (List.mem_cons_of_mem _ ha)) _

/-- Where no element fails, `mapM` is `map`. -/
theorem Option.mapM_eq_some {α β : Type*} {f : α → Option β} {g : α → β} {l : List α}
    (h : ∀ a ∈ l, f a = some (g a)) : l.mapM f = some (l.map g) := by
  induction l with
  | nil => rfl
  | cons a l ih =>
      rw [List.mapM_cons, h a (by simp), ih (fun b hb => h b (List.mem_cons_of_mem _ hb))]
      rfl

theorem Option.foldlM_congr {α β : Type*} {f g : β → α → Option β} {l : List α}
    (h : ∀ b, ∀ a ∈ l, f b a = g b a) (b : β) : l.foldlM f b = l.foldlM g b := by
  induction l generalizing b with
  | nil => rfl
  | cons a l ih =>
      rw [List.foldlM_cons, List.foldlM_cons, h b a (by simp)]
      exact congrArg (g b a).bind
        (funext fun b => ih (fun b a ha => h b a (List.mem_cons_of_mem _ ha)) b)

/-- Where some element fails in every state, so does `foldlM`. -/
theorem Option.foldlM_eq_none {α β : Type*} {f : β → α → Option β} {l : List α} {a : α}
    (ha : a ∈ l) (h : ∀ b, f b a = none) (b : β) : l.foldlM f b = none := by
  induction l generalizing b with
  | nil => cases ha
  | cons first l ih =>
      rw [List.foldlM_cons]
      rcases List.mem_cons.mp ha with rfl | ha
      · rw [h b]
        rfl
      · cases f b first with
        | none => rfl
        | some b' => exact ih ha b'

/-- Where some element fails, so does `mapM`. -/
theorem Option.mapM_eq_none {α β : Type*} {f : α → Option β} {l : List α} {a : α} (ha : a ∈ l)
    (h : f a = none) : l.mapM f = none := by
  induction l with
  | nil => cases ha
  | cons first l ih =>
      rw [List.mapM_cons]
      rcases List.mem_cons.mp ha with rfl | ha
      · rw [h]
        rfl
      · rw [ih ha]
        cases f first <;> rfl

namespace Launch

variable {σ τ ι β : Type*}

/-- One thread stores the cells `cells` names and leaves the others. -/
def Stores (cells : ι → Option β) (m m' : ι → β) : Prop :=
  ∀ i, m' i = (cells i).getD (m i)

/-- What two threads store is apart. -/
def Apart (cells cells' : ι → Option β) : Prop :=
  ∀ i, cells i = none ∨ cells' i = none

/-- What a list of threads leaves: every cell holds what the thread that names it stores,
and the other cells are as they were. -/
structure Scattered (target : τ → ι → Option β) (threads : List τ) (m m' : ι → β) : Prop where
  stored : ∀ t ∈ threads, ∀ i b, target t i = some b → m' i = b
  kept : ∀ i, (∀ t ∈ threads, target t i = none) → m' i = m i

namespace Scattered

variable {target : τ → ι → Option β} {threads threads' : List τ} {t : τ} {m m' m'' : ι → β}

theorem nil (m : ι → β) : Scattered target [] m m where
  stored := by simp
  kept := by simp

theorem snoc (h : Scattered target threads m m') (hstores : Stores (target t) m' m'')
    (hapart : ∀ t' ∈ threads, Apart (target t') (target t)) :
    Scattered target (threads ++ [t]) m m'' where
  stored := by
    intro t' ht' i b hb
    rw [hstores i]
    rcases List.mem_append.mp ht' with ht' | ht'
    · have hnone : target t i = none := (hapart t' ht' i).resolve_left (by simp [hb])
      rw [hnone]
      exact h.stored t' ht' i b hb
    · rw [List.mem_singleton.mp ht'] at hb
      rw [hb]
      rfl
  kept := by
    intro i hi
    rw [hstores i, hi t (by simp)]
    exact h.kept i (fun t' ht' => hi t' (List.mem_append_left _ ht'))

theorem of_mem_iff (h : Scattered target threads m m')
    (hmem : ∀ t, t ∈ threads ↔ t ∈ threads') : Scattered target threads' m m' where
  stored := fun t ht => h.stored t ((hmem t).mpr ht)
  kept := fun i hi => h.kept i (fun t ht => hi t ((hmem t).mp ht))

end Scattered

section Threads

variable {target : τ → ι → Option β} {view : σ → ι → β} {step : σ → τ → Option σ}
  {P : σ → Prop} {s : σ} {threads : List τ}

/-- Threads that run one after the other leave what each of them stores. A thread may rely
on the cells that no other thread stores. -/
theorem exists_foldlM (hs : P s)
    (hapart : threads.Pairwise fun t t' => Apart (target t) (target t'))
    (hstep : ∀ s' t, t ∈ threads → P s' →
      (∀ i, (∀ t' ∈ threads, t' = t ∨ target t' i = none) → view s' i = view s i) →
      ∃ s'', step s' t = some s'' ∧ P s'' ∧ Stores (target t) (view s') (view s'')) :
    ∃ s', threads.foldlM step s = some s' ∧ P s' ∧
      Scattered target threads (view s) (view s') := by
  have hrun : ∀ rest done s', done ++ rest = threads → P s' →
      Scattered target done (view s) (view s') →
      ∃ s'', rest.foldlM step s' = some s'' ∧ P s'' ∧
        Scattered target threads (view s) (view s'') := by
    intro rest
    induction rest with
    | nil =>
        intro done s' hsplit hP hdone
        rw [List.append_nil] at hsplit
        exact ⟨s', rfl, hP, hsplit ▸ hdone⟩
    | cons t rest ih =>
        intro done s' hsplit hP hdone
        have ht : t ∈ threads := by
          rw [← hsplit]
          simp
        have hbefore : ∀ t' ∈ done, Apart (target t') (target t) := by
          rw [← hsplit, List.pairwise_append] at hapart
          exact fun t' ht' => hapart.2.2 t' ht' t (by simp)
        obtain ⟨s'', hnext, hP', hstores⟩ := hstep s' t ht hP (by
          intro i hi
          refine hdone.kept i (fun t' ht' => ?_)
          rcases hi t' (hsplit ▸ List.mem_append_left _ ht') with rfl | hnone
          · exact (or_self_iff).mp (hbefore t' ht' i)
          · exact hnone)
        obtain ⟨s₃, hrest, hspec⟩ := ih (done ++ [t]) s'' (by simpa using hsplit) hP'
          (hdone.snoc hstores hbefore)
        refine ⟨s₃, ?_, hspec⟩
        rw [List.foldlM_cons, hnext]
        exact hrest
  exact hrun threads [] s rfl hs (.nil _)

/-- Threads that store to the cells of one buffer. -/
theorem exists_foldlM_buffer {α : Type*} (step : List α → τ → Option (List α)) (buffer : List α)
    {target : τ → ℕ → Option (Option α)}
    (hapart : threads.Pairwise fun t t' => Apart (target t) (target t'))
    (hstep : ∀ (buffer' : List α) t, t ∈ threads → buffer'.length = buffer.length →
      ∃ buffer'', step buffer' t = some buffer'' ∧ buffer''.length = buffer'.length ∧
        Stores (target t) (buffer'[·]?) (buffer''[·]?)) :
    ∃ buffer', threads.foldlM step buffer = some buffer' ∧ buffer'.length = buffer.length ∧
      Scattered target threads (buffer[·]?) (buffer'[·]?) :=
  exists_foldlM (P := fun buffer' : List α => buffer'.length = buffer.length) rfl hapart
    fun buffer' t ht hlength _ => by
      obtain ⟨buffer'', hnext, hlength', hstores⟩ := hstep buffer' t ht hlength
      exact ⟨buffer'', hnext, hlength'.trans hlength, hstores⟩

/-- What every thread preserves, the threads together preserve. -/
theorem foldlM_invariant (hs : P s) {s' : σ} (h : threads.foldlM step s = some s')
    (hstep : ∀ s t s', P s → step s t = some s' → P s') : P s' := by
  induction threads generalizing s with
  | nil =>
      obtain rfl := Option.some.inj h
      exact hs
  | cons t threads ih =>
      rw [List.foldlM_cons] at h
      obtain ⟨next, hnext, hrest⟩ := Option.bind_eq_some_iff.mp h
      exact ih (hstep s t next hs hnext) hrest

end Threads

/-! ## Sweeps

A loop of one thread that rewrites a cell of its own in every turn. -/

section Sweep

variable [DecidableEq ι] {cell : τ → ι} {f : τ → β → β} {l : List τ} {m : ι → β} {t : τ} {i : ι}

def sweep (cell : τ → ι) (f : τ → β → β) (l : List τ) (m : ι → β) : ι → β :=
  l.foldl (fun m t => Function.update m (cell t) (f t (m (cell t)))) m

theorem sweep_append_singleton (cell : τ → ι) (f : τ → β → β) (l : List τ) (t : τ) (m : ι → β) :
    sweep cell f (l ++ [t]) m =
      Function.update (sweep cell f l m) (cell t) (f t (sweep cell f l m (cell t))) := by
  rw [sweep, List.foldl_append]
  rfl

/-- The other cells are as they were. -/
theorem sweep_of_forall_ne (h : ∀ t ∈ l, i ≠ cell t) : sweep cell f l m i = m i := by
  induction l using List.reverseRecOn with
  | nil => rfl
  | append_singleton l t ih =>
      rw [sweep_append_singleton, Function.update_of_ne (h t (by simp))]
      exact ih fun t' ht' => h t' (List.mem_append_left _ ht')

/-- A swept cell is rewritten once. -/
theorem sweep_of_mem (hnodup : (l.map cell).Nodup) (ht : t ∈ l) :
    sweep cell f l m (cell t) = f t (m (cell t)) := by
  induction l using List.reverseRecOn with
  | nil => cases ht
  | append_singleton l last ih =>
      rw [List.map_append, List.nodup_append] at hnodup
      have hne : ∀ t ∈ l, cell t ≠ cell last :=
        fun t ht => hnodup.2.2 _ (List.mem_map_of_mem ht) _ (by simp)
      rw [sweep_append_singleton]
      rcases List.mem_append.mp ht with ht | ht
      · rw [Function.update_of_ne (hne t ht)]
        exact ih hnodup.1 ht
      · obtain rfl := List.mem_singleton.mp ht
        rw [Function.update_self, sweep_of_forall_ne fun t' ht' => (hne t' ht').symm]

end Sweep

/-! ## Schedules -/

/-- The order in which a device runs the threads of its launches. -/
structure Schedule where
  order : ℕ → List ℕ
  perm : ∀ threads, (order threads).Perm (List.range threads)

namespace Schedule

/-- One thread after the other. -/
def sequential : Schedule where
  order := List.range
  perm := fun _ => .refl _

/-- A launch of threads `0` to `threads - 1`. -/
def launch (schedule : Schedule) (threads : ℕ) (thread : σ → ℕ → Option σ) (s : σ) : Option σ :=
  (schedule.order threads).foldlM thread s

theorem mem_order {schedule : Schedule} {threads t : ℕ} :
    t ∈ schedule.order threads ↔ t < threads :=
  ((schedule.perm threads).mem_iff).trans List.mem_range

variable {schedule : Schedule} {threads : ℕ} {target : ℕ → ι → Option β} {view : σ → ι → β}
  {thread : σ → ℕ → Option σ} {P : σ → Prop} {s s' : σ}

/-- A launch with a thread that always fails. -/
theorem launch_eq_none {t : ℕ} (ht : t < threads) (h : ∀ s, thread s t = none) (s : σ) :
    schedule.launch threads thread s = none :=
  Option.foldlM_eq_none (mem_order.mpr ht) h s

variable (schedule threads view) in
/-- A launch whose threads store apart leaves what they store, on every schedule. -/
theorem exists_launch (hs : P s)
    (hapart : ∀ t < threads, ∀ t' < threads, t ≠ t' → Apart (target t) (target t'))
    (hthread : ∀ s' t, t < threads → P s' →
      (∀ i, (∀ t' < threads, t' = t ∨ target t' i = none) → view s' i = view s i) →
      ∃ s'', thread s' t = some s'' ∧ P s'' ∧ Stores (target t) (view s') (view s'')) :
    ∃ s', schedule.launch threads thread s = some s' ∧ P s' ∧
      Scattered target (List.range threads) (view s) (view s') := by
  have hnodup : (schedule.order threads).Nodup :=
    (schedule.perm threads).nodup_iff.mpr List.nodup_range
  have hpairs : (schedule.order threads).Pairwise fun t t' => Apart (target t) (target t') :=
    hnodup.pairwise_of_forall_ne fun t ht t' ht' hne =>
      hapart t (mem_order.mp ht) t' (mem_order.mp ht') hne
  obtain ⟨s', hrun, hP, hspec⟩ := exists_foldlM hs hpairs (fun s' t ht hP hkept =>
    hthread s' t (mem_order.mp ht) hP
      (fun i hi => hkept i (fun t' ht' => hi t' (mem_order.mp ht'))))
  exact ⟨s', hrun, hP, hspec.of_mem_iff (fun t => mem_order.trans List.mem_range.symm)⟩

variable (schedule threads) in
/-- A launch on a memory, seen cell by cell. -/
theorem exists_launch_memory {thread : (ι → β) → ℕ → Option (ι → β)} {m : ι → β}
    (hapart : ∀ t < threads, ∀ t' < threads, t ≠ t' → Apart (target t) (target t'))
    (hthread : ∀ m' t, t < threads →
      (∀ i, (∀ t' < threads, t' = t ∨ target t' i = none) → m' i = m i) →
      ∃ m'', thread m' t = some m'' ∧ Stores (target t) m' m'') :
    ∃ m', schedule.launch threads thread m = some m' ∧
      Scattered target (List.range threads) m m' := by
  obtain ⟨m', hlaunch, _, hscattered⟩ := schedule.exists_launch threads
    (id : (ι → β) → ι → β) (P := fun _ => True) trivial hapart
    fun m' t ht _ hkept => by
      obtain ⟨m'', hnext, hstores⟩ := hthread m' t ht hkept
      exact ⟨m'', hnext, trivial, hstores⟩
  exact ⟨m', hlaunch, hscattered⟩

theorem launch_invariant (hs : P s) (h : schedule.launch threads thread s = some s')
    (hthread : ∀ s t s', P s → thread s t = some s' → P s') : P s' :=
  foldlM_invariant hs h hthread

end Schedule

/-! ## Limits -/

/-- The grid and the blocks of a launch, and the shared memory of a block in bytes. -/
structure Shape where
  gridX : ℕ
  gridY : ℕ
  threads : ℕ
  sharedBytes : ℕ
  deriving DecidableEq, Repr

/-- What a device launches: grids of up to `2 ^ 31 - 1` times 65535 blocks, blocks of up to 1024
threads, and 48 KiB of shared memory for each. -/
def Shape.Launchable (shape : Shape) : Prop :=
  (0 < shape.gridX ∧ shape.gridX < 2 ^ 31) ∧ (0 < shape.gridY ∧ shape.gridY ≤ 65535) ∧
    (0 < shape.threads ∧ shape.threads ≤ 1024) ∧ shape.sharedBytes ≤ 49152

instance (shape : Shape) : Decidable shape.Launchable := inferInstanceAs (Decidable (_ ∧ _))

/-- One row of blocks, without shared memory. -/
def Shape.row (blocks threads : ℕ) : Shape := ⟨blocks, 1, threads, 0⟩

theorem Shape.launchable_row {blocks threads : ℕ} (hblocks : 0 < blocks ∧ blocks < 2 ^ 31)
    (hthreads : 0 < threads ∧ threads ≤ 1024) : (row blocks threads).Launchable :=
  ⟨hblocks, ⟨Nat.one_pos, (by decide : 1 ≤ 65535)⟩, hthreads, Nat.zero_le _⟩

/-! ## Rows

A memory of rows of one width. Cell `dim` of row `row` is `row * width + dim`. -/

section Rows

variable {width row dim rows : ℕ}

variable (row) in
theorem row_div (h : dim < width) : (row * width + dim) / width = row := by
  rw [Nat.mul_comm, Nat.mul_add_div (Nat.zero_lt_of_lt h), Nat.div_eq_of_lt h, Nat.add_zero]

variable (row) in
theorem row_mod (h : dim < width) : (row * width + dim) % width = dim := by
  rw [Nat.mul_comm, Nat.mul_add_mod, Nat.mod_eq_of_lt h]

/-- A cell of one of the first rows lies before their end. -/
theorem row_lt (hrow : row < rows) (hdim : dim < width) : row * width + dim < rows * width := by
  calc row * width + dim < row * width + width := Nat.add_lt_add_left hdim _
    _ = (row + 1) * width := by rw [Nat.add_mul, Nat.one_mul]
    _ ≤ rows * width := Nat.mul_le_mul_right _ hrow

/-- The last cell of the last row. -/
theorem last_cell (hrows : 0 < rows) (hwidth : 0 < width) :
    (rows - 1) * width + (width - 1) = rows * width - 1 := by
  have hsplit : rows * width = (rows - 1) * width + width := by
    rw [← Nat.succ_mul, Nat.succ_eq_add_one, Nat.sub_add_cancel hrows]
  omega

variable {entry : ℕ → ℕ → β} {slot : ℕ → ℕ} {count t t' : ℕ}

/-- The thread of an index below `count * width` stores one cell: that of its row `index / width`
in the slot of the row. -/
def rowTarget (entry : ℕ → ℕ → β) (slot : ℕ → ℕ) (count width index i : ℕ) : Option β :=
  if index < count * width ∧ i = slot (index / width) * width + index % width then
    some (entry (index / width) (index % width))
  else none

theorem rowTarget_eq_none {index i : ℕ}
    (h : ¬ (index < count * width ∧ i = slot (index / width) * width + index % width)) :
    rowTarget entry slot count width index i = none :=
  if_neg h

/-- The row and the offset of an index below `count * width`. -/
theorem div_mod_of_lt {index : ℕ} (h : index < count * width) :
    index / width < count ∧ index % width < width :=
  ⟨Nat.div_lt_of_lt_mul (by rwa [Nat.mul_comm]),
    Nat.mod_lt _ (Nat.pos_of_mul_pos_left (Nat.zero_lt_of_lt h))⟩

/-- Rows with slots of their own are stored apart. -/
theorem rowTarget_apart (hinj : ∀ r < count, ∀ r' < count, slot r = slot r' → r = r')
    (hne : t ≠ t') :
    Apart (rowTarget entry slot count width t) (rowTarget entry slot count width t') := by
  intro i
  by_contra h
  rw [not_or] at h
  obtain ⟨ht, hi⟩ := not_not.mp (mt rowTarget_eq_none h.1)
  obtain ⟨ht', hi'⟩ := not_not.mp (mt rowTarget_eq_none h.2)
  obtain ⟨hrow, hdim⟩ := div_mod_of_lt ht
  obtain ⟨hrow', hdim'⟩ := div_mod_of_lt ht'
  have hslot : slot (t / width) = slot (t' / width) := by
    rw [← row_div (slot (t / width)) hdim, ← hi, hi', row_div _ hdim']
  have hoffset : t % width = t' % width := by
    rw [← row_mod (slot (t / width)) hdim, ← hi, hi', row_mod _ hdim']
  exact hne (by rw [← Nat.div_add_mod t width, ← Nat.div_add_mod t' width,
    hinj _ hrow _ hrow' hslot, hoffset])

/-- Rows stored to slots: each slot holds its row, and the other rows are as they were. -/
structure RowsStored (entry : ℕ → ℕ → β) (slot : ℕ → ℕ) (count width : ℕ) (m m' : ℕ → β) :
    Prop where
  stored : ∀ r < count, ∀ dim < width, m' (slot r * width + dim) = entry r dim
  kept : ∀ i, (∀ r < count, slot r ≠ i / width) → m' i = m i

theorem Scattered.rowsStored {threads : ℕ} {m m' : ℕ → β}
    (h : Scattered (rowTarget entry slot count width) (List.range threads) m m')
    (hthreads : count * width ≤ threads) : RowsStored entry slot count width m m' where
  stored := by
    intro r hr dim hdim
    have hlt : r * width + dim < count * width := row_lt hr hdim
    refine h.stored (r * width + dim) (List.mem_range.mpr (hlt.trans_le hthreads)) _ _ ?_
    rw [rowTarget, row_div _ hdim, row_mod _ hdim, if_pos ⟨hlt, rfl⟩]
  kept := by
    intro i hi
    refine h.kept i (fun t _ => rowTarget_eq_none ?_)
    rintro ⟨ht, rfl⟩
    obtain ⟨hrow, hdim⟩ := div_mod_of_lt ht
    exact hi _ hrow (row_div _ hdim).symm

/-- The thread of a row below `count` stores the whole row. -/
def wholeRow (entry : ℕ → ℕ → β) (count width r i : ℕ) : Option β :=
  if r < count ∧ i / width = r ∧ i % width < width then some (entry r (i % width)) else none

theorem wholeRow_apart {entry' : ℕ → ℕ → β} (hne : t ≠ t') :
    Apart (wholeRow entry count width t) (wholeRow entry' count width t') := by
  intro i
  by_cases h : i / width = t
  · exact Or.inr (if_neg fun h' => hne (h.symm.trans h'.2.1))
  · exact Or.inl (if_neg fun h' => h h'.2.1)

theorem Scattered.wholeRows {m m' : ℕ → β}
    (h : Scattered (wholeRow entry count width) (List.range count) m m') :
    RowsStored entry id count width m m' where
  stored := by
    intro r hr dim hdim
    refine h.stored r (List.mem_range.mpr hr) _ _ ?_
    rw [wholeRow, id, row_div _ hdim, row_mod _ hdim, if_pos ⟨hr, rfl, hdim⟩]
  kept := by
    intro i hi
    refine h.kept i (fun r hr => if_neg ?_)
    exact fun hrow => hi r (List.mem_range.mp hr) hrow.2.1.symm

/-- Threads that store whole rows to slots. -/
theorem Scattered.slotRows {slots : ℕ} {m m' : ℕ → β}
    (h : Scattered (fun r => wholeRow (fun _ => entry r) slots width (slot r)) (List.range count)
      m m') (hslot : ∀ r < count, slot r < slots) : RowsStored entry slot count width m m' where
  stored := by
    intro r hr dim hdim
    refine h.stored r (List.mem_range.mpr hr) _ _ ?_
    rw [wholeRow, row_div _ hdim, row_mod _ hdim, if_pos ⟨hslot r hr, rfl, hdim⟩]
  kept := by
    intro i hi
    refine h.kept i (fun r hr => if_neg ?_)
    exact fun hrow => hi r (List.mem_range.mp hr) hrow.2.1.symm

/-- A part of every cell. -/
theorem RowsStored.map {γ : Type*} {m m' : ℕ → β} (f : β → γ)
    (h : RowsStored entry slot count width m m') :
    RowsStored (fun r dim => f (entry r dim)) slot count width (fun i => f (m i))
      (fun i => f (m' i)) where
  stored := fun r hr dim hdim => congrArg f (h.stored r hr dim hdim)
  kept := fun i hi => congrArg f (h.kept i hi)

/-- A thread stores the rows it owns. -/
def ownedRows (owns : τ → ℕ → Bool) (entry : ℕ → ℕ → β) (count width : ℕ) (t : τ) (i : ℕ) :
    Option β :=
  if owns t (i / width) = true ∧ i / width < count ∧ i % width < width then
    some (entry (i / width) (i % width))
  else none

section Owned

variable {owns : τ → ℕ → Bool} {threads : List τ} {t t' : τ} {m m' : ℕ → β}

theorem ownedRows_eq_none {i : ℕ} (h : owns t (i / width) = false) :
    ownedRows owns entry count width t i = none :=
  if_neg fun hin => Bool.false_ne_true (h.symm.trans hin.1)

/-- Threads that own no row in common store apart. -/
theorem ownedRows_apart (h : ∀ row < count, owns t row = true → owns t' row = false) :
    Apart (ownedRows owns entry count width t) (ownedRows owns entry count width t') := by
  intro i
  by_cases hin : owns t (i / width) = true ∧ i / width < count ∧ i % width < width
  · exact Or.inr (ownedRows_eq_none (h _ hin.2.1 hin.1))
  · exact Or.inl (if_neg hin)

/-- A thread that owns one row. -/
theorem Stores.ownedRows_of_wholeRow {r : ℕ} (h : Stores (wholeRow entry count width r) m m')
    (howns : ∀ row, owns t row = decide (row = r)) :
    Stores (ownedRows owns entry count width t) m m' := by
  intro i
  rw [h i, wholeRow, ownedRows, howns]
  by_cases hin : r < count ∧ i / width = r ∧ i % width < width
  · obtain ⟨hr, hrow, hdim⟩ := hin
    rw [if_pos ⟨hr, hrow, hdim⟩, if_pos ⟨decide_eq_true hrow, hrow.symm ▸ hr, hdim⟩, hrow]
  · rw [if_neg hin, if_neg]
    rintro ⟨howner, hlt, hdim⟩
    have hrow := of_decide_eq_true howner
    exact hin ⟨hrow ▸ hlt, hrow, hdim⟩

/-- A thread that owns no row stores nothing. -/
theorem stores_ownedRows_of_none (h : ∀ row < count, owns t row = false) (m : ℕ → β) :
    Stores (ownedRows owns entry count width t) m m := by
  intro i
  rw [ownedRows, if_neg]
  · rfl
  · exact fun hin => Bool.false_ne_true ((h _ hin.2.1).symm.trans hin.1)

/-- Threads that own all rows store all rows. -/
theorem Scattered.ownedRows (h : Scattered (ownedRows owns entry count width) threads m m')
    (hcover : ∀ row < count, ∃ t ∈ threads, owns t row = true) :
    RowsStored entry id count width m m' where
  stored := by
    intro r hr dim hdim
    obtain ⟨t, ht, howns⟩ := hcover r hr
    refine h.stored t ht _ _ ?_
    rw [Launch.ownedRows, id, row_div _ hdim, row_mod _ hdim, if_pos ⟨howns, hr, hdim⟩]
  kept := by
    intro i hi
    exact h.kept i fun t _ => if_neg fun hin => hi _ hin.2.1 rfl

/-- Two sets of threads, one after the other. Every row is stored by the second, or by the first
and by none of the second. -/
theorem Scattered.ownedRows_then {owns' : τ → ℕ → Bool} {threads' : List τ} {m'' : ℕ → β}
    (h : Scattered (Launch.ownedRows owns entry count width) threads m m')
    (h' : Scattered (Launch.ownedRows owns' entry count width) threads' m' m'')
    (hcover : ∀ row < count, (∃ t ∈ threads', owns' t row = true) ∨
      (∀ t ∈ threads', owns' t row = false) ∧ ∃ t ∈ threads, owns t row = true) :
    RowsStored entry id count width m m'' where
  stored := by
    intro r hr dim hdim
    have hcell : ∀ {owns : τ → ℕ → Bool} {t : τ}, owns t r = true →
        Launch.ownedRows owns entry count width t (r * width + dim) = some (entry r dim) := by
      intro owns t howns
      rw [Launch.ownedRows, row_div _ hdim, row_mod _ hdim, if_pos ⟨howns, hr, hdim⟩]
    rcases hcover r hr with ⟨t, ht, howns⟩ | ⟨hnone, t, ht, howns⟩
    · exact h'.stored t ht _ _ (hcell howns)
    · refine (h'.kept _ fun t' ht' => ownedRows_eq_none ?_).trans (h.stored t ht _ _ (hcell howns))
      rw [id, row_div _ hdim]
      exact hnone t' ht'
  kept := by
    intro i hi
    have hnone : ∀ {owns : τ → ℕ → Bool} {t : τ},
        Launch.ownedRows owns entry count width t i = none :=
      fun {_ _} => if_neg fun hin => hi _ hin.2.1 rfl
    rw [h'.kept i fun _ _ => hnone, h.kept i fun _ _ => hnone]

end Owned

/-- A buffer of rows only, once every row is stored. -/
theorem RowsStored.eq_map {α : Type*} {entry : ℕ → ℕ → α} {buffer : List α} {m : ℕ → Option α}
    (h : RowsStored (fun r dim => some (entry r dim)) id count width m (buffer[·]?))
    (hlength : buffer.length = count * width) :
    buffer = (List.range (count * width)).map fun i => entry (i / width) (i % width) := by
  refine List.ext_getElem? fun i => ?_
  by_cases hi : i < count * width
  · obtain ⟨hrow, hdim⟩ := div_mod_of_lt hi
    have hstored := h.stored _ hrow _ hdim
    rw [id, Nat.div_add_mod'] at hstored
    rw [List.getElem?_map, List.getElem?_range hi]
    exact hstored
  · rw [List.getElem?_eq_none (by omega), List.getElem?_eq_none (by simpa using hi)]

/-- Rows one after the other, as one range of cells. -/
theorem flatMap_rows {α : Type*} (entry : ℕ → ℕ → α) (count width : ℕ) :
    ((List.range count).flatMap fun r => (List.range width).map (entry r)) =
      (List.range (count * width)).map fun i => entry (i / width) (i % width) := by
  induction count with
  | zero => simp
  | succ count ih =>
      rw [List.range_succ, List.flatMap_append, ih, List.flatMap_singleton, Nat.add_mul,
        Nat.one_mul, List.range_add, List.map_append, List.map_map]
      congr 1
      refine List.map_congr_left fun dim hdim => ?_
      rw [Function.comp_apply, row_div _ (List.mem_range.mp hdim),
        row_mod _ (List.mem_range.mp hdim)]

end Rows

end Launch

/-! ## Buffers -/

namespace Buffer

variable {α : Type*}

/-- The cell a pointer and an index name, if the buffer has it. -/
def load (buffer : List α) (index : ℤ) : Option α :=
  if 0 ≤ index then buffer[index.toNat]? else none

/-- The buffer with one cell replaced, if it has it. -/
def store (buffer : List α) (index : ℤ) (value : α) : Option (List α) :=
  if 0 ≤ index ∧ index.toNat < buffer.length then some (buffer.set index.toNat value) else none

/-- The buffer with its first cells replaced. -/
def overwrite (buffer values : List α) : Option (List α) :=
  if values.length ≤ buffer.length then some (values ++ buffer.drop values.length) else none

/-- The first cells of a buffer. -/
def copy (buffer : List α) (count : ℕ) : Option (List α) :=
  if count ≤ buffer.length then some (buffer.take count) else none

variable {buffer buffer' values : List α} {index : ℤ} {i : ℕ} {value : α}

@[simp] theorem load_natCast (buffer : List α) (i : ℕ) : load buffer (i : ℤ) = buffer[i]? := by
  simp [load]

/-- A buffer of at most `2 ^ 31` cells. -/
theorem confined_load (h : buffer.length ≤ 2 ^ 31) : CInt.Confined (load buffer) := by
  rintro i (hi | hi)
  · exact if_neg (by omega)
  · rw [load, if_pos (by omega), List.getElem?_eq_none (by omega)]

theorem store_natCast (value : α) (h : i < buffer.length) :
    store buffer (i : ℤ) value = some (buffer.set i value) := by
  simp [store, h]

/-- A loop that stores to cells behind `start` replaces those cells. -/
theorem exists_foldlM_store (start : ℕ) (value : ℕ → α) {offsets : List ℕ}
    (hroom : ∀ offset ∈ offsets, start + offset < buffer.length) :
    ∃ buffer', offsets.foldlM
        (fun buffer offset => store buffer (start + offset : ℕ) (value offset)) buffer =
          some buffer' ∧ buffer'.length = buffer.length ∧
      ∀ i, buffer'[i]? =
        if start ≤ i ∧ i - start ∈ offsets then some (value (i - start)) else buffer[i]? := by
  induction offsets using List.reverseRecOn with
  | nil => exact ⟨buffer, rfl, rfl, fun i => by simp⟩
  | append_singleton offsets offset ih =>
      obtain ⟨buffer', hrun, hlength, hcells⟩ := ih fun o ho => hroom o (List.mem_append_left _ ho)
      have hlt : start + offset < buffer'.length := hlength ▸ hroom offset (by simp)
      refine ⟨buffer'.set (start + offset) (value offset), ?_, by rw [List.length_set, hlength],
        fun i => ?_⟩
      · rw [List.foldlM_append, hrun, Option.bind_eq_bind, Option.bind_some, List.foldlM_cons,
          store_natCast _ hlt]
        rfl
      · rw [List.getElem?_set]
        by_cases hi : start + offset = i
        · rw [if_pos hi, if_pos hlt, if_pos ⟨by omega, by rw [show i - start = offset by omega]; simp⟩,
            show i - start = offset by omega]
        · rw [if_neg hi, hcells i]
          refine if_congr (and_congr_right fun hle => ?_) rfl rfl
          rw [List.mem_append, List.mem_singleton, or_iff_left (by omega)]

theorem length_of_store (h : store buffer index value = some buffer') :
    buffer'.length = buffer.length := by
  unfold store at h
  split at h
  · rw [← Option.some.inj h, List.length_set]
  · cases h

theorem exists_overwrite (h : values.length ≤ buffer.length) :
    ∃ buffer', overwrite buffer values = some buffer' ∧
      ∀ i < values.length, buffer'[i]? = values[i]? :=
  ⟨_, if_pos h, fun _ hi => List.getElem?_append_left hi⟩

theorem length_of_overwrite (h : overwrite buffer values = some buffer') :
    buffer'.length = buffer.length := by
  unfold overwrite at h
  split at h
  · rename_i hle
    rw [← Option.some.inj h, List.length_append, List.length_drop, Nat.add_sub_cancel' hle]
  · cases h

theorem copy_eq {count : ℕ} (h : count = buffer.length) : copy buffer count = some buffer := by
  rw [copy, if_pos h.le, h, List.take_length]

end Buffer
