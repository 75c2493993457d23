import MiniVLLM.Model.Cache
import MiniVLLM.Library.Paging

/-! # Ownership of physical blocks

Every block is free or in exactly one block table. Each operation has one equation for
its outcome and one lemma that it keeps ownership. -/

namespace MiniVLLM

open List

/-! ## The pool -/

namespace BlockPool

theorem run_allocate {pool : BlockPool} {count : ℕ} (h : count ≤ pool.free.length) :
    (allocate count).run pool = .ok (pool.free.take count)
      ⟨pool.free.drop count, pool.used ∪ (pool.free.take count).toFinset⟩ := by
  simp [allocate, Nat.not_lt.mpr h]

theorem run_allocate_of_lt {pool : BlockPool} {count : ℕ} (h : pool.free.length < count) :
    (allocate count).run pool =
      .error (.memoryError "paged KV cache has no free physical blocks") pool := by
  simp [allocate, h]

theorem run_release {blocks : List ℕ} {pool : BlockPool} (hnodup : blocks.Nodup)
    (hused : ∀ b ∈ blocks, b ∈ pool.used) :
    (release blocks).run pool =
      .ok () ⟨blocks.reverse ++ pool.free, pool.used \ blocks.toFinset⟩ := by
  induction blocks generalizing pool with
  | nil => simp [release]
  | cons b blocks ih =>
      obtain ⟨hb, hnodup⟩ := List.nodup_cons.mp hnodup
      have hmem : b ∈ pool.used := hused b (by simp)
      have hrest : ∀ c ∈ blocks, c ∈ pool.used.erase b := by
        intro c hc
        exact Finset.mem_erase.mpr ⟨fun h => hb (h ▸ hc), hused c (by simp [hc])⟩
      simp only [release, EStateM.run_bind, EStateM.run_get, hmem, not_true_eq_false, if_false,
        EStateM.run_set]
      rw [ih hnodup hrest]
      congr 2
      · simp
      · ext c
        simp only [Finset.mem_sdiff, Finset.mem_erase, List.mem_toFinset, List.mem_cons, not_or]
        tauto

end BlockPool

namespace KVCacheManager

/-! ## Blocks that cover a number of positions -/

theorem requiredBlocks_eq_ceilDiv {blockSize : ℕ} (tokens : ℕ) :
    requiredBlocks blockSize tokens = tokens ⌈/⌉ blockSize :=
  (Nat.ceilDiv_eq_add_pred_div tokens blockSize).symm

theorem requiredBlocks_le_iff {blockSize : ℕ} (hpos : 0 < blockSize) {tokens count : ℕ} :
    requiredBlocks blockSize tokens ≤ count ↔ tokens ≤ count * blockSize := by
  rw [requiredBlocks_eq_ceilDiv, ceilDiv_le_iff_le_mul hpos, Nat.mul_comm]

@[simp] theorem requiredBlocks_zero {blockSize : ℕ} (hpos : 0 < blockSize) :
    requiredBlocks blockSize 0 = 0 :=
  Nat.le_zero.mp ((requiredBlocks_le_iff hpos).mpr (Nat.zero_le _))

theorem requiredBlocks_mono (blockSize : ℕ) {tokens tokens' : ℕ} (h : tokens ≤ tokens') :
    requiredBlocks blockSize tokens ≤ requiredBlocks blockSize tokens' :=
  Nat.div_le_div_right (by omega)

theorem requiredBlocks_pos {blockSize tokens : ℕ} (hpos : 0 < blockSize) (h : 0 < tokens) :
    0 < requiredBlocks blockSize tokens := by
  by_contra hzero
  have := (requiredBlocks_le_iff hpos).mp (Nat.le_zero.mpr (Nat.eq_zero_of_not_pos hzero))
  omega

theorem covers_iff {blockSize : ℕ} (hpos : 0 < blockSize) {t : List ℕ} {tokens : ℕ} :
    Paging.Covers blockSize t tokens ↔ requiredBlocks blockSize tokens ≤ t.length :=
  (requiredBlocks_le_iff hpos).symm

/-! ## Outcomes of the operations -/

/-- The manager after a request got an empty table. -/
def opened (m : KVCacheManager) (requestId : RequestId) : KVCacheManager :=
  { m with tables := m.tables.set requestId [] }

/-- The manager after `count` blocks moved from the pool to the end of a table. -/
def grown (m : KVCacheManager) (requestId : RequestId) (t : List ℕ) (count : ℕ) :
    KVCacheManager where
  pool := ⟨m.pool.free.drop count, m.pool.used ∪ (m.pool.free.take count).toFinset⟩
  tables := m.tables.set requestId (t ++ m.pool.free.take count)

/-- The manager after a table was dissolved. -/
def reclaimed (m : KVCacheManager) (requestId : RequestId) (t : List ℕ) : KVCacheManager where
  pool := ⟨t.reverse ++ m.pool.free, m.pool.used \ t.toFinset⟩
  tables := m.tables.erase requestId

theorem run_onPool_of_ok {α : Type} {x : Py BlockPool α} {m : KVCacheManager} {a : α}
    {pool : BlockPool} (h : x.run m.pool = .ok a pool) :
    (onPool x).run m = .ok a { m with pool := pool } :=
  EStateM.run_zoom_of_ok h

theorem run_table {m : KVCacheManager} {requestId : RequestId} {t : List ℕ}
    (h : m.tables.get? requestId = some t) : (table requestId).run m = .ok t m := by
  simp [table, h]

theorem run_create {m : KVCacheManager} {requestId : RequestId}
    (h : requestId ∉ m.tables.keys) :
    (create requestId).run m = .ok () (m.opened requestId) := by
  simp [create, h, opened]

theorem run_blocksNeeded {m : KVCacheManager} {blockSize : ℕ} {requestId : RequestId}
    {t : List ℕ} (target : ℕ) (h : m.tables.get? requestId = some t) :
    (blocksNeeded blockSize requestId target).run m =
      .ok (requiredBlocks blockSize target - t.length) m := by
  simp [blocksNeeded, run_table h]

theorem run_canReserve {m : KVCacheManager} (blockSize : ℕ) {requestId : RequestId}
    {t : List ℕ} (target : ℕ) (h : m.tables.get? requestId = some t) :
    (canReserve blockSize requestId target).run m =
      .ok (decide (requiredBlocks blockSize target - t.length ≤ m.pool.free.length)) m := by
  simp [canReserve, run_blocksNeeded target h, BlockPool.numFreeBlocks]

theorem run_reserve {m : KVCacheManager} {blockSize target : ℕ} {requestId : RequestId}
    {t : List ℕ} (h : m.tables.get? requestId = some t)
    (hfree : requiredBlocks blockSize target - t.length ≤ m.pool.free.length) :
    (reserve blockSize requestId target).run m =
      .ok () (m.grown requestId t (requiredBlocks blockSize target - t.length)) := by
  simp only [reserve]
  rw [EStateM.run_bind_of_ok (run_blocksNeeded target h), EStateM.run_bind_of_ok (run_table h),
    EStateM.run_bind_of_ok (run_onPool_of_ok (BlockPool.run_allocate hfree))]
  rfl

theorem run_slotsFrom {m : KVCacheManager} {blockSize : ℕ} {t positions : List ℕ}
    (h : ∀ p ∈ positions, p / blockSize < t.length) :
    (slotsFrom blockSize t positions).run m =
      .ok (positions.map (Paging.slot blockSize t)) m := by
  induction positions with
  | nil => simp [slotsFrom]
  | cons p positions ih =>
      have hp : p / blockSize < t.length := h p (by simp)
      have hrest := ih (fun q hq => h q (by simp [hq]))
      simp [slotsFrom, List.getElem?_eq_getElem hp, hrest, Paging.slot_eq_getElem hp]

theorem run_slots {m : KVCacheManager} {blockSize start count : ℕ} {requestId : RequestId}
    {t : List ℕ} (h : m.tables.get? requestId = some t)
    (hcovers : Paging.Covers blockSize t (start + count)) :
    (slots blockSize requestId start count).run m =
      .ok ((List.range' start count).map (Paging.slot blockSize t)) m := by
  rw [slots, EStateM.run_bind_of_ok (run_table h)]
  apply run_slotsFrom
  intro p hp
  obtain ⟨_, hlt⟩ := List.mem_range'_1.mp hp
  exact hcovers.div_lt hlt

theorem run_blockTable {m : KVCacheManager} {requestId : RequestId} {t : List ℕ}
    (h : m.tables.get? requestId = some t) : (blockTable requestId).run m = .ok t m :=
  run_table h

theorem run_release_of_none {m : KVCacheManager} {requestId : RequestId}
    (h : m.tables.get? requestId = none) : (release requestId).run m = .ok () m := by
  simp [release, h]

/-! ## The ownership invariant -/

/-- Free blocks and block tables together hold each block below `numBlocks` once. -/
structure Owned (numBlocks : ℕ) (m : KVCacheManager) : Prop where
  perm : (m.pool.free ++ m.tables.values.flatten).Perm (List.range numBlocks)
  used_eq : m.pool.used = m.tables.values.flatten.toFinset

namespace Owned

variable {numBlocks : ℕ} {m : KVCacheManager}

theorem nodup (h : m.Owned numBlocks) : (m.pool.free ++ m.tables.values.flatten).Nodup :=
  h.perm.nodup_iff.mpr List.nodup_range

theorem free_nodup (h : m.Owned numBlocks) : m.pool.free.Nodup :=
  (List.nodup_append.mp h.nodup).1

theorem free_disjoint_used (h : m.Owned numBlocks) {b : ℕ} (hb : b ∈ m.pool.free) :
    b ∉ m.pool.used := by
  rw [h.used_eq, List.mem_toFinset]
  exact fun hu => (List.nodup_append.mp h.nodup).2.2 b hb b hu rfl

theorem mem_free_or_used (h : m.Owned numBlocks) {b : ℕ} :
    b ∈ m.pool.free ∨ b ∈ m.pool.used ↔ b < numBlocks := by
  rw [h.used_eq, List.mem_toFinset, ← List.mem_append, h.perm.mem_iff, List.mem_range]

theorem perm_erase (h : m.Owned numBlocks) {requestId : RequestId} {t : List ℕ}
    (ht : m.tables.get? requestId = some t) :
    (m.pool.free ++ (t ++ (m.tables.erase requestId).values.flatten)).Perm
      (List.range numBlocks) := by
  have hflat : m.tables.values.flatten.Perm
      (t ++ (m.tables.erase requestId).values.flatten) := by
    simpa only [List.flatten_cons] using (Dict.values_perm_erase ht).flatten
  exact (hflat.symm.append_left _).trans h.perm

theorem table_nodup (h : m.Owned numBlocks) {requestId : RequestId} {t : List ℕ}
    (ht : m.tables.get? requestId = some t) : t.Nodup := by
  have hn := (h.perm_erase ht).nodup_iff.mpr List.nodup_range
  exact (List.nodup_append.mp (List.nodup_append.mp hn).2.1).1

theorem table_lt (h : m.Owned numBlocks) {requestId : RequestId} {t : List ℕ}
    (ht : m.tables.get? requestId = some t) : ∀ b ∈ t, b < numBlocks := by
  intro b hb
  apply List.mem_range.mp
  apply (h.perm_erase ht).mem_iff.mp
  simp [hb]

theorem tables_disjoint (h : m.Owned numBlocks) {id id' : RequestId} {t t' : List ℕ}
    (hne : id ≠ id') (ht : m.tables.get? id = some t) (ht' : m.tables.get? id' = some t') :
    t.Disjoint t' := by
  have hn := (h.perm_erase ht).nodup_iff.mpr List.nodup_range
  have hdisj := (List.nodup_append.mp (List.nodup_append.mp hn).2.1).2.2
  intro b hb hb'
  refine hdisj b hb b (List.mem_flatten.mpr ⟨t', ?_, hb'⟩) rfl
  apply Dict.mem_values_iff.mpr
  exact ⟨id', by rw [Dict.get?_erase_of_ne _ hne.symm, ht']⟩

theorem table_used (h : m.Owned numBlocks) {requestId : RequestId} {t : List ℕ}
    (ht : m.tables.get? requestId = some t) : ∀ b ∈ t, b ∈ m.pool.used := by
  intro b hb
  rw [h.used_eq, List.mem_toFinset, List.mem_flatten]
  exact ⟨t, Dict.mem_values_iff.mpr ⟨requestId, ht⟩, hb⟩

theorem free_disjoint_table (h : m.Owned numBlocks) {requestId : RequestId} {t : List ℕ}
    (ht : m.tables.get? requestId = some t) : m.pool.free.Disjoint t :=
  fun _ hb hbt => h.free_disjoint_used hb (h.table_used ht _ hbt)

theorem free_length_add (h : m.Owned numBlocks) :
    m.pool.free.length + m.tables.values.flatten.length = numBlocks := by
  rw [← List.length_append, h.perm.length_eq, List.length_range]

end Owned

theorem owned_init (numBlocks : ℕ) : (init numBlocks).Owned numBlocks :=
  ⟨by simp [init, BlockPool.init], by simp [init, BlockPool.init]⟩

theorem Owned.opened {numBlocks : ℕ} {m : KVCacheManager} (h : m.Owned numBlocks)
    {requestId : RequestId} (hnew : requestId ∉ m.tables.keys) :
    (m.opened requestId).Owned numBlocks := by
  have hflat : (m.opened requestId).tables.values.flatten.Perm m.tables.values.flatten := by
    simpa [KVCacheManager.opened] using (Dict.values_set_perm_of_not_mem [] hnew).flatten
  refine ⟨(hflat.append_left _).trans h.perm, ?_⟩
  rw [List.toFinset_eq_of_perm _ _ hflat]
  exact h.used_eq

theorem Owned.grown {numBlocks : ℕ} {m : KVCacheManager} (h : m.Owned numBlocks)
    {requestId : RequestId} {t : List ℕ} (ht : m.tables.get? requestId = some t) (count : ℕ) :
    (m.grown requestId t count).Owned numBlocks := by
  have hold : m.tables.values.flatten.Perm
      (t ++ (m.tables.erase requestId).values.flatten) := by
    simpa only [List.flatten_cons] using (Dict.values_perm_erase ht).flatten
  have hnew : (m.grown requestId t count).tables.values.flatten.Perm
      ((t ++ m.pool.free.take count) ++ (m.tables.erase requestId).values.flatten) := by
    simpa only [KVCacheManager.grown, List.flatten_cons] using
      (Dict.values_set_perm m.tables requestId (t ++ m.pool.free.take count)).flatten
  -- The taken blocks leave the front of the free list and join the table.
  have hmoved : (m.grown requestId t count).tables.values.flatten.Perm
      (m.pool.free.take count ++ m.tables.values.flatten) := by
    refine hnew.trans ?_
    refine ((List.perm_append_comm.append_right _).trans ?_)
    rw [List.append_assoc]
    exact hold.symm.append_left _
  refine ⟨?_, ?_⟩
  · refine (hmoved.append_left _).trans ?_
    show (m.pool.free.drop count ++ (m.pool.free.take count ++ _)).Perm _
    rw [← List.append_assoc]
    refine (List.perm_append_comm.append_right _).trans ?_
    rw [List.take_append_drop]
    exact h.perm
  · rw [List.toFinset_eq_of_perm _ _ hmoved, List.toFinset_append, ← h.used_eq]
    exact Finset.union_comm _ _

theorem Owned.run_release {numBlocks : ℕ} {m : KVCacheManager} (h : m.Owned numBlocks)
    {requestId : RequestId} {t : List ℕ} (ht : m.tables.get? requestId = some t) :
    (release requestId).run m = .ok () (m.reclaimed requestId t) := by
  have hpool := BlockPool.run_release (h.table_nodup ht) (h.table_used ht)
  simp only [release, EStateM.run_bind, EStateM.run_get, ht, EStateM.run_set]
  exact run_onPool_of_ok (m := { m with tables := m.tables.erase requestId }) hpool

theorem Owned.reclaimed {numBlocks : ℕ} {m : KVCacheManager} (h : m.Owned numBlocks)
    {requestId : RequestId} {t : List ℕ} (ht : m.tables.get? requestId = some t) :
    (m.reclaimed requestId t).Owned numBlocks := by
  have hperm := h.perm_erase ht
  refine ⟨?_, ?_⟩
  · show ((t.reverse ++ m.pool.free) ++ _).Perm _
    refine (((List.reverse_perm t).append_right _).append_right _).trans ?_
    refine (List.perm_append_comm.append_right _).trans ?_
    rw [List.append_assoc]
    exact hperm
  · ext b
    have hdisj : b ∈ t → b ∉ (m.tables.erase requestId).values.flatten := by
      intro hb hb'
      have hn := (List.nodup_append.mp (hperm.nodup_iff.mpr List.nodup_range)).2.1
      exact (List.nodup_append.mp hn).2.2 b hb b hb' rfl
    have hflat : b ∈ m.tables.values.flatten ↔
        b ∈ t ∨ b ∈ (m.tables.erase requestId).values.flatten := by
      rw [← List.mem_append]
      exact (by simpa only [List.flatten_cons] using (Dict.values_perm_erase ht).flatten :
        m.tables.values.flatten.Perm _).mem_iff
    show b ∈ m.pool.used \ t.toFinset ↔ b ∈ (m.tables.erase requestId).values.flatten.toFinset
    rw [Finset.mem_sdiff, h.used_eq, List.mem_toFinset, List.mem_toFinset, List.mem_toFinset, hflat]
    tauto

end KVCacheManager

end MiniVLLM
