import MiniVLLM.Model.BlockPool

/-! # The three views of the block pool

Every call, also one that throws, moves blocks one at a time between the free ones and the
used ones. Each move keeps the stack and the two sets in step, and in every history the used
blocks are those handed out and not given back since. -/

namespace MiniVLLM

namespace PagedKV

namespace PagedKVBlockPool

/-! ## Moves -/

/-- One block changes hands. -/
inductive BlockMove (pool : PagedKVBlockPool) : BlockEvent → PagedKVBlockPool → Prop where
  | handedOut {block : ℤ} {freeBlocks : List ℤ} (h : pool.freeBlocks = block :: freeBlocks) :
      BlockMove pool (.handedOut block)
        { pool with
          freeBlocks := freeBlocks
          freeSet := pool.freeSet.erase block
          usedSet := insert block pool.usedSet }
  | givenBack {block : ℤ} (hvalid : 0 ≤ block ∧ block < pool.totalBlocks)
      (hfree : block ∉ pool.freeSet) (hused : block ∈ pool.usedSet) :
      BlockMove pool (.givenBack block)
        { pool with
          usedSet := pool.usedSet.erase block
          freeSet := insert block pool.freeSet
          freeBlocks := block :: pool.freeBlocks }

/-- Blocks change hands one after the other. -/
inductive Moves : PagedKVBlockPool → List BlockEvent → PagedKVBlockPool → Prop where
  | nil (pool) : Moves pool [] pool
  | cons {pool event pool' events pool''} : BlockMove pool event pool' →
      Moves pool' events pool'' → Moves pool (event :: events) pool''

variable {pool pool' : PagedKVBlockPool} {block : ℤ}

/-! ## Outcomes of the operations -/

theorem run_allocate_of_nil (h : pool.freeBlocks = []) :
    allocate.run pool = .error (.runtimeError "paged KV cache OOM: no free blocks") pool := by
  simp [allocate, h]

theorem run_allocate_of_cons {freeBlocks : List ℤ} (h : pool.freeBlocks = block :: freeBlocks) :
    allocate.run pool = .ok block
      { pool with
        freeBlocks := freeBlocks
        freeSet := pool.freeSet.erase block
        usedSet := insert block pool.usedSet } := by
  simp [allocate, h]

theorem run_allocateRounds {count : ℕ} (h : count ≤ pool.freeBlocks.length) :
    ∃ blocks pool', (allocateRounds count).run pool = .ok blocks pool' ∧
      Moves pool (blocks.map .handedOut) pool' := by
  induction count generalizing pool with
  | zero => exact ⟨[], pool, rfl, .nil pool⟩
  | succ count ih =>
      cases hfree : pool.freeBlocks with
      | nil =>
          rw [hfree, List.length_nil] at h
          omega
      | cons block freeBlocks =>
          rw [hfree, List.length_cons] at h
          have hrest : count ≤ (PagedKVBlockPool.freeBlocks
              { pool with
                freeBlocks := freeBlocks
                freeSet := pool.freeSet.erase block
                usedSet := insert block pool.usedSet }).length := Nat.le_of_succ_le_succ h
          obtain ⟨blocks, pool', hrun, hmoves⟩ := ih hrest
          refine ⟨block :: blocks, pool', ?_, .cons (.handedOut hfree) hmoves⟩
          rw [allocateRounds, EStateM.run_bind_of_ok (run_allocate_of_cons hfree),
            EStateM.run_bind_of_ok hrun]
          rfl

/-- `allocate_many` checks its count before it takes a block. -/
theorem run_allocateMany (pool : PagedKVBlockPool) (count : ℤ) :
    (∃ e, (allocateMany count).run pool = .error e pool) ∨
      ∃ blocks pool', (allocateMany count).run pool = .ok blocks pool' ∧
        Moves pool (blocks.map .handedOut) pool' := by
  by_cases hneg : count < 0
  · exact Or.inl ⟨.invalidArgument "count must be non-negative", by simp [allocateMany, hneg]⟩
  · by_cases hmany : pool.available < count
    · exact Or.inl ⟨.runtimeError "paged KV cache OOM: insufficient free blocks",
        by simp [allocateMany, hneg, hmany]⟩
    · have henough : count.toNat ≤ pool.freeBlocks.length := by
        rw [available] at hmany
        omega
      obtain ⟨blocks, pool', hrun, hmoves⟩ := run_allocateRounds henough
      refine Or.inr ⟨blocks, pool', ?_, hmoves⟩
      simpa [allocateMany, hneg, hmany] using hrun

theorem run_release (pool : PagedKVBlockPool) (block : ℤ) :
    (∃ e, (release block).run pool = .error e pool ∧
      ¬ ((0 ≤ block ∧ block < pool.totalBlocks) ∧ block ∉ pool.freeSet ∧ block ∈ pool.usedSet)) ∨
      ∃ pool', (release block).run pool = .ok () pool' ∧
        BlockMove pool (.givenBack block) pool' := by
  by_cases hvalid : block < 0 ∨ pool.totalBlocks ≤ block
  · refine Or.inl ⟨.invalidArgument "invalid physical block id", by simp [release, hvalid], ?_⟩
    rintro ⟨⟨hpos, hlt⟩, _⟩
    omega
  · by_cases hfree : block ∈ pool.freeSet
    · exact Or.inl ⟨.runtimeError "double free detected", by simp [release, hvalid, hfree],
        fun h => h.2.1 hfree⟩
    · by_cases hused : block ∈ pool.usedSet
      · exact Or.inr ⟨_, by simp [release, hvalid, hfree, hused],
          .givenBack (by omega) hfree hused⟩
      · exact Or.inl ⟨.runtimeError "block was not allocated by this pool",
          by simp [release, hvalid, hfree, hused], fun h => hused h.2.2⟩

theorem moves_releaseMany (pool : PagedKVBlockPool) (blocks : List ℤ) :
    Moves pool ((pool.givenBack blocks).map .givenBack) ((releaseMany blocks).final pool) := by
  induction blocks generalizing pool with
  | nil => exact .nil pool
  | cons block blocks ih =>
      rw [givenBack]
      rcases run_release pool block with ⟨e, hrun, _⟩ | ⟨pool', hrun, hmove⟩
      · rw [releaseMany, EStateM.final_of_error (EStateM.run_bind_of_error hrun), EStateM.value?,
          hrun]
        exact .nil pool
      · have hfinal : (releaseMany (block :: blocks)).final pool = (releaseMany blocks).final pool' := by
          rw [releaseMany, EStateM.final, EStateM.run_bind_of_ok hrun, EStateM.final]
        rw [hfinal, EStateM.value?_of_ok hrun, EStateM.final_of_ok hrun]
        exact .cons hmove (ih pool')

/-- What a call does are moves of single blocks. -/
theorem moves_of_call (pool : PagedKVBlockPool) (c : Call) :
    Moves pool (pool.events c) (pool.afterCall c) := by
  cases c with
  | allocate =>
      cases hfree : pool.freeBlocks with
      | nil =>
          have hrun := run_allocate_of_nil hfree
          rw [events, afterCall, EStateM.final_of_error hrun, EStateM.value?, hrun]
          exact .nil pool
      | cons block freeBlocks =>
          have hrun := run_allocate_of_cons hfree
          rw [events, afterCall, EStateM.final_of_ok hrun, EStateM.value?_of_ok hrun]
          exact .cons (.handedOut hfree) (.nil _)
  | allocateMany count =>
      rcases run_allocateMany pool count with ⟨e, hrun⟩ | ⟨blocks, pool', hrun, hmoves⟩
      · rw [events, afterCall, EStateM.final_of_error hrun, EStateM.value?, hrun]
        exact .nil pool
      · rw [events, afterCall, EStateM.final_of_ok hrun, EStateM.value?_of_ok hrun]
        exact hmoves
  | release block =>
      rw [events, afterCall, givenBack]
      rcases run_release pool block with ⟨e, hrun, _⟩ | ⟨pool', hrun, hmove⟩
      · rw [EStateM.final_of_error hrun, EStateM.value?, hrun]
        exact .nil pool
      · rw [EStateM.final_of_ok hrun, EStateM.value?_of_ok hrun]
        exact .cons hmove (.nil pool')
  | releaseMany blocks => exact moves_releaseMany pool blocks

/-! ## The views in step -/

/-- The stack lists the free set, and the two sets share the blocks out. -/
structure InStep (totalBlocks : ℤ) (pool : PagedKVBlockPool) : Prop where
  totalBlocks_eq : pool.totalBlocks = totalBlocks
  nodup : pool.freeBlocks.Nodup
  mem_free : ∀ b, b ∈ pool.freeBlocks ↔ b ∈ pool.freeSet
  disjoint : Disjoint pool.freeSet pool.usedSet
  union_eq : pool.freeSet ∪ pool.usedSet = Finset.Ico 0 totalBlocks

section InStep

variable {totalBlocks : ℤ} {event : BlockEvent} {history : List BlockEvent}

theorem InStep.move (h : pool.InStep totalBlocks) (hmove : BlockMove pool event pool') :
    pool'.InStep totalBlocks := by
  have hdisjoint := Finset.disjoint_left.mp h.disjoint
  cases hmove with
  | @handedOut block freeBlocks hfree =>
      have hnodup := h.nodup
      have hmem := h.mem_free
      rw [hfree] at hnodup hmem
      obtain ⟨hnot, hrest⟩ := List.nodup_cons.mp hnodup
      have hblock : block ∈ pool.freeSet := (hmem block).mp List.mem_cons_self
      refine ⟨h.totalBlocks_eq, hrest, fun b => ?_, ?_, ?_⟩
      · rw [Finset.mem_erase, ← hmem, List.mem_cons]
        constructor
        · intro hb
          exact ⟨fun heq => hnot (heq ▸ hb), Or.inr hb⟩
        · rintro ⟨hne, heq | hb⟩
          · exact absurd heq hne
          · exact hb
      · rw [Finset.disjoint_insert_right]
        exact ⟨Finset.notMem_erase _ _, h.disjoint.mono_left (Finset.erase_subset _ _)⟩
      · rw [Finset.union_insert, ← Finset.insert_union, Finset.insert_erase hblock, h.union_eq]
  | @givenBack block hvalid hfree hused =>
      refine ⟨h.totalBlocks_eq, ?_, fun b => ?_, ?_, ?_⟩
      · exact List.nodup_cons.mpr ⟨fun hb => hfree ((h.mem_free _).mp hb), h.nodup⟩
      · rw [List.mem_cons, Finset.mem_insert, h.mem_free]
      · rw [Finset.disjoint_insert_left]
        exact ⟨Finset.notMem_erase _ _, h.disjoint.mono_right (Finset.erase_subset _ _)⟩
      · rw [Finset.insert_union, ← Finset.union_insert, Finset.insert_erase hused, h.union_eq]

theorem InStep.available_add_used (h : pool.InStep totalBlocks) (hpos : 0 < totalBlocks) :
    pool.available + pool.used = totalBlocks := by
  have hset : pool.freeBlocks.toFinset = pool.freeSet := by
    ext b
    rw [List.mem_toFinset, h.mem_free]
  have hcard := Finset.card_union_of_disjoint h.disjoint
  rw [h.union_eq, Int.card_Ico, ← hset, List.toFinset_card_of_nodup h.nodup] at hcard
  rw [available, used]
  omega

theorem construct_eq (hpos : 0 < totalBlocks) :
    ∃ pool, construct totalBlocks = .ok pool ∧ pool.InStep totalBlocks ∧ pool.usedSet = ∅ := by
  obtain ⟨count, rfl⟩ := Int.eq_ofNat_of_zero_le hpos.le
  have hloop : ∀ rest : List ℕ, (rest.foldr addFree ⟨count, [], ∅, ∅⟩ : PagedKVBlockPool) =
      ⟨count, rest.map (fun block : ℕ => (block : ℤ)),
        (rest.map (fun block : ℕ => (block : ℤ))).toFinset, ∅⟩ := by
    intro rest
    induction rest with
    | nil => rfl
    | cons block rest ih =>
        rw [List.foldr_cons, ih]
        simp [addFree]
  refine ⟨_, if_neg (Int.not_le.mpr hpos), ?_, ?_⟩
  · rw [hloop, Int.toNat_natCast]
    refine ⟨rfl, ?_, fun b => by simp, Finset.disjoint_empty_right _, ?_⟩
    · exact List.nodup_range.map Nat.cast_injective
    · ext b
      rw [Finset.union_empty, List.mem_toFinset, List.mem_map, Finset.mem_Ico]
      constructor
      · rintro ⟨block, hblock, rfl⟩
        have := List.mem_range.mp hblock
        omega
      · rintro ⟨hb, hlt⟩
        exact ⟨b.toNat, List.mem_range.mpr (by omega), Int.toNat_of_nonneg hb⟩
  · rw [hloop]

/-! ## Histories -/

/-- The block is out: it was handed out and not given back since. -/
def IsOut (history : List BlockEvent) (block : ℤ) : Prop :=
  history.OpenSince (· = .handedOut block) (· = .givenBack block)

/-- Between two times a block is handed out it is given back. -/
def NeverTwice (history : List BlockEvent) : Prop :=
  ∀ block front mid back,
    history = front ++ .handedOut block :: (mid ++ .handedOut block :: back) →
      .givenBack block ∈ mid

/-- The pool and what its callers have seen. -/
structure Traced (totalBlocks : ℤ) (history : List BlockEvent) (pool : PagedKVBlockPool) :
    Prop where
  inStep : pool.InStep totalBlocks
  used_iff : ∀ block, block ∈ pool.usedSet ↔ IsOut history block
  neverTwice : NeverTwice history

theorem NeverTwice.snoc (h : NeverTwice history)
    (hevent : ∀ block, event = .handedOut block → ¬ IsOut history block) :
    NeverTwice (history ++ [event]) := by
  intro block front mid back hsplit
  have hsplit' : history ++ [event] = (front ++ .handedOut block :: mid) ++
      .handedOut block :: back := by simpa using hsplit
  rcases List.append_singleton_eq_append_cons_iff.mp hsplit' with
    ⟨hhistory, hlast, _⟩ | ⟨back', _, hhistory⟩
  · by_contra hnone
    refine hevent block hlast ⟨front, .handedOut block, mid, hhistory, rfl, ?_⟩
    rintro e he rfl
    exact hnone he
  · exact h block front mid back' (by simpa using hhistory)

theorem Traced.move (h : pool.Traced totalBlocks history) (hmove : BlockMove pool event pool') :
    pool'.Traced totalBlocks (history ++ [event]) := by
  refine ⟨h.inStep.move hmove, fun b => ?_, h.neverTwice.snoc fun block hevent => ?_⟩
  · rw [IsOut, List.openSince_append_singleton]
    cases hmove with
    | @handedOut block freeBlocks hfree =>
        have hused := h.used_iff b
        rw [IsOut] at hused
        simp only [Finset.mem_insert, hused, BlockEvent.handedOut.injEq, reduceCtorEq,
          not_false_eq_true, and_true, eq_comm (a := b)]
    | @givenBack block hvalid hfree hused =>
        have hused := h.used_iff b
        rw [IsOut] at hused
        simp only [Finset.mem_erase, hused, BlockEvent.givenBack.injEq, reduceCtorEq, false_or,
          ne_eq, eq_comm (a := b), and_comm]
  · subst hevent
    cases hmove with
    | handedOut hfree =>
        have hblock : block ∈ pool.freeSet := by
          rw [← h.inStep.mem_free, hfree]
          exact List.mem_cons_self
        rw [← h.used_iff]
        exact Finset.disjoint_left.mp h.inStep.disjoint hblock

theorem Traced.moves {events : List BlockEvent} (h : pool.Traced totalBlocks history)
    (hmoves : Moves pool events pool') : pool'.Traced totalBlocks (history ++ events) := by
  induction hmoves generalizing history with
  | nil pool => rwa [List.append_nil]
  | cons hmove _ ih => simpa using ih (h.move hmove)

/-- What holds of a pool after any calls. -/
structure PoolSpec (totalBlocks : ℤ) (history : List BlockEvent) (pool : PagedKVBlockPool) :
    Prop where
  nodup : pool.freeBlocks.Nodup
  mem_free : ∀ block, block ∈ pool.freeBlocks ↔ block ∈ pool.freeSet
  disjoint : Disjoint pool.freeSet pool.usedSet
  union_eq : pool.freeSet ∪ pool.usedSet = Finset.Ico 0 totalBlocks
  available_add_used : pool.available + pool.used = totalBlocks
  neverTwice : NeverTwice history
  release_throws : ∀ block,
    (∃ e pool', (release block).run pool = .error e pool') ↔ ¬ IsOut history block
  allocateMany_throws : ∀ count e pool', (allocateMany count).run pool = .error e pool' →
    pool' = pool

theorem Traced.poolSpec (h : pool.Traced totalBlocks history) (hpos : 0 < totalBlocks) :
    pool.PoolSpec totalBlocks history := by
  refine ⟨h.inStep.nodup, h.inStep.mem_free, h.inStep.disjoint, h.inStep.union_eq,
    h.inStep.available_add_used hpos, h.neverTwice, fun block => ?_, ?_⟩
  · rw [← h.used_iff]
    rcases run_release pool block with ⟨e, hrun, hnot⟩ | ⟨pool', hrun, hmove⟩
    · refine ⟨fun _ hused => hnot ⟨?_, ?_, hused⟩, fun _ => ⟨e, pool, hrun⟩⟩
      · rw [h.inStep.totalBlocks_eq, ← Finset.mem_Ico, ← h.inStep.union_eq]
        exact Finset.mem_union_right _ hused
      · exact Finset.disjoint_right.mp h.inStep.disjoint hused
    · cases hmove with
      | givenBack hvalid hfree hused =>
          refine ⟨?_, fun hnot => absurd hused hnot⟩
          rintro ⟨e, pool'', herror⟩
          rw [hrun] at herror
          cases herror
  · intro count e pool' herror
    rcases run_allocateMany pool count with ⟨e', hrun⟩ | ⟨blocks, pool'', hrun, _⟩
    · rw [hrun] at herror
      cases herror
      rfl
    · rw [hrun] at herror
      cases herror

/-- After every history of calls the three structures of the pool are in step. -/
theorem pool_inStep (hpos : 0 < totalBlocks) :
    ∃ pool₀, construct totalBlocks = .ok pool₀ ∧
      ∀ (τs : List (Transition PagedKVBlockPool Call BlockEvent)) (pool : PagedKVBlockPool),
        Run CallStep pool₀ τs pool → pool.PoolSpec totalBlocks (Run.outputs τs) := by
  obtain ⟨pool₀, hconstruct, hinStep, hused⟩ := construct_eq hpos
  refine ⟨pool₀, hconstruct, fun τs pool hrun => ?_⟩
  have htraced : pool.Traced totalBlocks (Run.outputs τs) := by
    refine hrun.invariant_history (I := fun τs pool => pool.Traced totalBlocks (Run.outputs τs))
      ?_ ?_
    · refine ⟨hinStep, fun b => ?_, fun block front mid back hsplit => ?_⟩
      · rw [hused, Run.outputs_nil]
        exact ⟨fun hb => absurd hb (Finset.notMem_empty b),
          fun h => absurd h List.not_openSince_nil⟩
      · simp at hsplit
    · rintro τs pool c out pool' _ htraced ⟨rfl, rfl⟩
      rw [Run.outputs_append, Run.outputs_singleton]
      exact htraced.moves (moves_of_call pool c)
  exact htraced.poolSpec hpos

/-- Three blocks are handed out. A list with a block twice is taken back up to there, and the block
goes out once more. -/
def halfDoneCalls : List Call := [.allocate, .allocateMany 2, .releaseMany [1, 1, 2], .allocate]

theorem pool_inStep_three : ∃ pool₀ τs pool,
    construct 3 = .ok pool₀ ∧ Run CallStep pool₀ τs pool ∧
      τs.map Transition.event = halfDoneCalls ∧
      Run.outputs τs = [.handedOut 0, .handedOut 1, .handedOut 2, .givenBack 1, .handedOut 1] ∧
      pool.PoolSpec 3 (Run.outputs τs) := by
  obtain ⟨pool₀, hconstruct, hspec⟩ := pool_inStep (show (0 : ℤ) < 3 by decide)
  have hsome : ((construct 3).toOption.bind fun pool =>
      Run.execute (fun pool c => some (pool.afterCall c, pool.events c)) pool halfDoneCalls).map
        (fun run => Run.outputs run.1) =
      some [.handedOut 0, .handedOut 1, .handedOut 2, .givenBack 1, .handedOut 1] := by
    decide +kernel
  rw [hconstruct, Except.toOption, Option.bind_some] at hsome
  obtain ⟨⟨τs, pool⟩, hexecute, houtputs⟩ := Option.map_eq_some_iff.mp hsome
  have hrun : Run CallStep pool₀ τs pool := Run.of_execute hexecute fun τ _ hcall => by
    obtain ⟨hpool, hevents⟩ := Prod.mk.inj (Option.some.inj hcall)
    exact ⟨hpool.symm, hevents.symm⟩
  exact ⟨pool₀, τs, pool, hconstruct, hrun, Run.execute_events hexecute, houtputs,
    hspec τs pool hrun⟩

end InStep

end PagedKVBlockPool

end PagedKV

end MiniVLLM
