import MiniVLLM.Library.Run
import MiniVLLM.Verification.Cache.Ownership

/-! # Arbitrary calls of the cache manager

The scheduler calls the manager with care. Here every operation comes in any order and with
any arguments, and calls that raise are part of the history. -/

namespace MiniVLLM

namespace KVCacheManager

inductive Call where
  | create (requestId : RequestId)
  | canReserve (requestId : RequestId) (targetTokens : ℕ)
  | reserve (requestId : RequestId) (targetTokens : ℕ)
  | slots (requestId : RequestId) (start count : ℕ)
  | blockTable (requestId : RequestId)
  | release (requestId : RequestId)
  deriving DecidableEq, Repr

inductive Answer where
  | none
  | bool (fits : Bool)
  | list (values : List ℕ)
  deriving DecidableEq, Repr

def Call.execute (blockSize : ℕ) : Call → Py KVCacheManager Answer
  | .create requestId => do
      KVCacheManager.create requestId
      pure .none
  | .canReserve requestId targetTokens => do
      let fits ← KVCacheManager.canReserve blockSize requestId targetTokens
      pure (.bool fits)
  | .reserve requestId targetTokens => do
      KVCacheManager.reserve blockSize requestId targetTokens
      pure .none
  | .slots requestId start count => do
      let slots ← KVCacheManager.slots blockSize requestId start count
      pure (.list slots)
  | .blockTable requestId => do
      let blocks ← KVCacheManager.blockTable requestId
      pure (.list blocks)
  | .release requestId => do
      KVCacheManager.release requestId
      pure .none

/-- A call leads to the state it ends in, also where it raises. -/
def CallStep (blockSize : ℕ) (m : KVCacheManager) (call : Call) (out : List Unit)
    (m' : KVCacheManager) : Prop :=
  out = [] ∧ (call.execute blockSize).final m = m'

/-! ## Outcomes -/

/-- What one call can do: it raises and changes nothing, or it returns. -/
inductive CallDerivation (blockSize : ℕ) (m : KVCacheManager) :
    Call → EStateM.Result PyError KVCacheManager Answer → Prop where
  | raise {call error} : (∀ requestId, call ≠ .release requestId) →
      CallDerivation blockSize m call (.error error m)
  | create {requestId} (hnew : requestId ∉ m.tables.keys) :
      CallDerivation blockSize m (.create requestId) (.ok .none (m.opened requestId))
  | canReserve {requestId targetTokens t} (ht : m.tables.get? requestId = some t) :
      CallDerivation blockSize m (.canReserve requestId targetTokens)
        (.ok (.bool (decide (requiredBlocks blockSize targetTokens - t.length ≤
          m.pool.free.length))) m)
  | reserve {requestId targetTokens t} (ht : m.tables.get? requestId = some t)
      (hfree : requiredBlocks blockSize targetTokens - t.length ≤ m.pool.free.length) :
      CallDerivation blockSize m (.reserve requestId targetTokens)
        (.ok .none (m.grown requestId t (requiredBlocks blockSize targetTokens - t.length)))
  | slots {requestId start count t} (ht : m.tables.get? requestId = some t)
      (hin : ∀ p ∈ List.range' start count, p / blockSize < t.length) :
      CallDerivation blockSize m (.slots requestId start count)
        (.ok (.list ((List.range' start count).map (Paging.slot blockSize t))) m)
  | blockTable {requestId t} (ht : m.tables.get? requestId = some t) :
      CallDerivation blockSize m (.blockTable requestId) (.ok (.list t) m)
  | release {requestId t} (ht : m.tables.get? requestId = some t) :
      CallDerivation blockSize m (.release requestId) (.ok .none (m.reclaimed requestId t))
  | releaseUnknown {requestId} (ht : m.tables.get? requestId = none) :
      CallDerivation blockSize m (.release requestId) (.ok .none m)

section Outcomes

variable {numBlocks blockSize : ℕ} {m : KVCacheManager}

theorem run_table_of_none {requestId : RequestId} (h : m.tables.get? requestId = none) :
    (table requestId).run m = .error (.keyError requestId) m := by
  simp [table, h]

theorem run_canReserve_of_none {requestId : RequestId} (targetTokens : ℕ)
    (h : m.tables.get? requestId = none) :
    (KVCacheManager.canReserve blockSize requestId targetTokens).run m =
      .error (.keyError requestId) m := by
  simp [KVCacheManager.canReserve, blocksNeeded, run_table_of_none h]

theorem run_reserve_of_none {requestId : RequestId} (targetTokens : ℕ)
    (h : m.tables.get? requestId = none) :
    (KVCacheManager.reserve blockSize requestId targetTokens).run m =
      .error (.keyError requestId) m := by
  simp [KVCacheManager.reserve, blocksNeeded, run_table_of_none h]

theorem run_reserve_of_lt {requestId : RequestId} {targetTokens : ℕ} {t : List ℕ}
    (h : m.tables.get? requestId = some t)
    (hfull : m.pool.free.length < requiredBlocks blockSize targetTokens - t.length) :
    (KVCacheManager.reserve blockSize requestId targetTokens).run m =
      .error (.memoryError "paged KV cache has no free physical blocks") m := by
  have hpool : (onPool (BlockPool.allocate
      (requiredBlocks blockSize targetTokens - t.length))).run m =
        .error (.memoryError "paged KV cache has no free physical blocks") m :=
    EStateM.run_zoom_of_error (BlockPool.run_allocate_of_lt hfull)
  simp only [KVCacheManager.reserve]
  rw [EStateM.run_bind_of_ok (run_blocksNeeded targetTokens h),
    EStateM.run_bind_of_ok (run_table h), EStateM.run_bind_of_error hpool]

theorem run_slotsFrom_of_le {t positions : List ℕ} {p : ℕ} (hp : p ∈ positions)
    (hout : t.length ≤ p / blockSize) :
    (slotsFrom blockSize t positions).run m = .error (.indexError "list index out of range") m := by
  induction positions with
  | nil => simp at hp
  | cons q positions ih =>
      cases hblock : t[q / blockSize]? with
      | none => simp [slotsFrom, hblock]
      | some block =>
          have hq : q / blockSize < t.length := (List.getElem?_eq_some_iff.mp hblock).1
          rcases List.mem_cons.mp hp with rfl | hp
          · omega
          · simp [slotsFrom, hblock, ih hp]

theorem Owned.call_derivation (blockSize : ℕ) (h : m.Owned numBlocks) (call : Call) :
    CallDerivation blockSize m call ((call.execute blockSize).run m) := by
  cases call with
  | create requestId =>
      by_cases hkey : requestId ∈ m.tables.keys
      · have hrun : ((Call.create requestId).execute blockSize).run m =
            .error (.runtimeError s!"request {requestId} already has a block table") m := by
          simp [Call.execute, KVCacheManager.create, hkey]
        rw [hrun]
        exact .raise (by simp)
      · rw [Call.execute, EStateM.run_bind_of_ok (run_create hkey)]
        exact .create hkey
  | canReserve requestId targetTokens =>
      cases ht : m.tables.get? requestId with
      | none =>
          rw [Call.execute, EStateM.run_bind_of_error (run_canReserve_of_none targetTokens ht)]
          exact .raise (by simp)
      | some t =>
          rw [Call.execute, EStateM.run_bind_of_ok (run_canReserve blockSize targetTokens ht)]
          exact .canReserve ht
  | reserve requestId targetTokens =>
      cases ht : m.tables.get? requestId with
      | none =>
          rw [Call.execute, EStateM.run_bind_of_error (run_reserve_of_none targetTokens ht)]
          exact .raise (by simp)
      | some t =>
          by_cases hfree : requiredBlocks blockSize targetTokens - t.length ≤ m.pool.free.length
          · rw [Call.execute, EStateM.run_bind_of_ok (run_reserve ht hfree)]
            exact .reserve ht hfree
          · rw [Call.execute,
              EStateM.run_bind_of_error (run_reserve_of_lt ht (Nat.lt_of_not_le hfree))]
            exact .raise (by simp)
  | slots requestId start count =>
      cases ht : m.tables.get? requestId with
      | none =>
          have hrun : (KVCacheManager.slots blockSize requestId start count).run m =
              .error (.keyError requestId) m := by
            rw [KVCacheManager.slots, EStateM.run_bind_of_error (run_table_of_none ht)]
          rw [Call.execute, EStateM.run_bind_of_error hrun]
          exact .raise (by simp)
      | some t =>
          by_cases hin : ∀ p ∈ List.range' start count, p / blockSize < t.length
          · have hrun : (KVCacheManager.slots blockSize requestId start count).run m =
                .ok ((List.range' start count).map (Paging.slot blockSize t)) m := by
              rw [KVCacheManager.slots, EStateM.run_bind_of_ok (run_table ht), run_slotsFrom hin]
            rw [Call.execute, EStateM.run_bind_of_ok hrun]
            exact .slots ht hin
          · obtain ⟨p, hp, hout⟩ : ∃ p ∈ List.range' start count, t.length ≤ p / blockSize := by
              simpa only [not_forall, exists_prop, not_lt] using hin
            have hrun : (KVCacheManager.slots blockSize requestId start count).run m =
                .error (.indexError "list index out of range") m := by
              rw [KVCacheManager.slots, EStateM.run_bind_of_ok (run_table ht),
                run_slotsFrom_of_le hp hout]
            rw [Call.execute, EStateM.run_bind_of_error hrun]
            exact .raise (by simp)
  | blockTable requestId =>
      cases ht : m.tables.get? requestId with
      | none =>
          have hrun : (KVCacheManager.blockTable requestId).run m =
              .error (.keyError requestId) m := run_table_of_none ht
          rw [Call.execute, EStateM.run_bind_of_error hrun]
          exact .raise (by simp)
      | some t =>
          rw [Call.execute, EStateM.run_bind_of_ok (run_blockTable ht)]
          exact .blockTable ht
  | release requestId =>
      cases ht : m.tables.get? requestId with
      | none =>
          rw [Call.execute, EStateM.run_bind_of_ok (run_release_of_none ht)]
          exact .releaseUnknown ht
      | some t =>
          rw [Call.execute, EStateM.run_bind_of_ok (h.run_release ht)]
          exact .release ht

end Outcomes

/-! ## Histories -/

section Histories

variable {numBlocks blockSize : ℕ} {m m' : KVCacheManager}

theorem Owned.call_step (h : m.Owned numBlocks) {call : Call} {out : List Unit}
    (hstep : CallStep blockSize m call out m') : m'.Owned numBlocks := by
  obtain ⟨_, rfl⟩ := hstep
  have hd := h.call_derivation blockSize call
  unfold EStateM.final
  generalize (call.execute blockSize).run m = result at hd ⊢
  cases hd with
  | raise => exact h
  | create hnew => exact h.opened hnew
  | canReserve => exact h
  | reserve ht => exact h.grown ht _
  | slots => exact h
  | blockTable => exact h
  | release ht => exact h.reclaimed ht
  | releaseUnknown => exact h

/-- A call other than the release of a request only extends its table. -/
theorem Owned.table_step (h : m.Owned numBlocks) {call : Call} {out : List Unit}
    (hstep : CallStep blockSize m call out m') {requestId : RequestId}
    (hkeep : call ≠ .release requestId) {t : List ℕ} (ht : m.tables.get? requestId = some t) :
    ∃ extra, m'.tables.get? requestId = some (t ++ extra) := by
  obtain ⟨_, rfl⟩ := hstep
  have hd := h.call_derivation blockSize call
  have hsame : ∃ extra, m.tables.get? requestId = some (t ++ extra) :=
    ⟨[], by rw [ht, List.append_nil]⟩
  unfold EStateM.final
  generalize (call.execute blockSize).run m = result at hd ⊢
  cases hd with
  | raise => exact hsame
  | @create other hnew =>
      have hne : requestId ≠ other := fun heq => hnew (heq ▸ Dict.mem_keys_of_get? ht)
      exact ⟨[], by rw [List.append_nil, KVCacheManager.opened, Dict.get?_set_of_ne _ _ hne, ht]⟩
  | canReserve => exact hsame
  | @reserve other _ u hu =>
      by_cases heq : requestId = other
      · subst heq
        obtain rfl : t = u := Option.some.inj (ht.symm.trans hu)
        exact ⟨_, Dict.get?_set_self _ _ _⟩
      · exact ⟨[], by rw [List.append_nil, KVCacheManager.grown, Dict.get?_set_of_ne _ _ heq, ht]⟩
  | slots => exact hsame
  | blockTable => exact hsame
  | @release other u hu =>
      have hne : requestId ≠ other := fun heq => hkeep (by rw [heq])
      exact ⟨[], by rw [List.append_nil, KVCacheManager.reclaimed, Dict.get?_erase_of_ne _ hne, ht]⟩
  | releaseUnknown => exact hsame

/-- Between its creation and its release, a table only grows at its end. -/
theorem Owned.table_run (h : m.Owned numBlocks) {τs : List (Transition KVCacheManager Call Unit)}
    (hrun : Run (CallStep blockSize) m τs m') {requestId : RequestId}
    (hkeep : ∀ τ ∈ τs, τ.event ≠ .release requestId) {t : List ℕ}
    (ht : m.tables.get? requestId = some t) :
    ∃ extra, m'.tables.get? requestId = some (t ++ extra) := by
  induction hrun with
  | nil => exact ⟨[], by rw [ht, List.append_nil]⟩
  | @snoc τs mid call out m' hmid hstep ih =>
      obtain ⟨extra, hextra⟩ := ih (fun τ hτ => hkeep τ (List.mem_append_left _ hτ))
      have howned : mid.Owned numBlocks :=
        hmid.invariant h (fun _ _ _ _ hs hstep => hs.call_step hstep)
      obtain ⟨extra', hextra'⟩ := howned.table_step hstep
        (hkeep ⟨mid, call, out, m'⟩ (by simp)) hextra
      exact ⟨extra ++ extra', by rw [hextra', List.append_assoc]⟩

end Histories

/-! ## The representation -/

/-- Pool and tables hold each block once, and covered positions have slots of their own. -/
structure Represents (numBlocks blockSize : ℕ) (m : KVCacheManager) : Prop where
  free_nodup : m.pool.free.Nodup
  free_or_used : ∀ b, b ∈ m.pool.free ∨ b ∈ m.pool.used ↔ b < numBlocks
  free_not_used : ∀ b ∈ m.pool.free, b ∉ m.pool.used
  tables_disjoint : ∀ id id' t t', id ≠ id' → m.tables.get? id = some t →
    m.tables.get? id' = some t' → t.Disjoint t'
  tables_nodup : ∀ id t, m.tables.get? id = some t → t.Nodup
  used_iff : ∀ b, b ∈ m.pool.used ↔ ∃ id t, m.tables.get? id = some t ∧ b ∈ t
  slot_lt : ∀ id t p, m.tables.get? id = some t → Paging.Covers blockSize t (p + 1) →
    Paging.slot blockSize t p < numBlocks * blockSize
  slot_inj : ∀ id id' t t' p p', m.tables.get? id = some t → m.tables.get? id' = some t' →
    Paging.Covers blockSize t (p + 1) → Paging.Covers blockSize t' (p' + 1) →
    Paging.slot blockSize t p = Paging.slot blockSize t' p' → id = id' ∧ p = p'

theorem Owned.represents {numBlocks blockSize : ℕ} {m : KVCacheManager} (h : m.Owned numBlocks)
    (hpos : 0 < blockSize) : m.Represents numBlocks blockSize where
  free_nodup := h.free_nodup
  free_or_used := fun _ => h.mem_free_or_used
  free_not_used := fun _ => h.free_disjoint_used
  tables_disjoint := fun _ _ _ _ hne ht ht' => h.tables_disjoint hne ht ht'
  tables_nodup := fun _ _ => h.table_nodup
  used_iff := by
    intro b
    rw [h.used_eq, List.mem_toFinset, List.mem_flatten]
    constructor
    · rintro ⟨t, ht, hb⟩
      obtain ⟨id, hid⟩ := Dict.mem_values_iff.mp ht
      exact ⟨id, t, hid, hb⟩
    · rintro ⟨id, t, hid, hb⟩
      exact ⟨t, Dict.mem_values_iff.mpr ⟨id, hid⟩, hb⟩
  slot_lt := fun _ _ p ht hp =>
    Paging.slot_lt hpos (h.table_lt ht) (hp.div_lt (Nat.lt_succ_self p))
  slot_inj := by
    intro id id' t t' p p' ht ht' hp hp' hslot
    have hdiv := hp.div_lt (Nat.lt_succ_self p)
    have hdiv' := hp'.div_lt (Nat.lt_succ_self p')
    by_cases hid : id = id'
    · subst hid
      obtain rfl : t = t' := Option.some.inj (ht.symm.trans ht')
      exact ⟨rfl, Paging.slot_inj hpos (h.table_nodup ht) hdiv hdiv' hslot⟩
    · exact absurd hslot (Paging.slot_ne_of_disjoint hpos (h.tables_disjoint hid ht ht') hdiv hdiv')

/-- After every sequence of calls, failing ones included, the representation holds, tables
have only grown since they were created, and a call that raises changes nothing. -/
theorem calls_keep_representation {numBlocks blockSize : ℕ} (hpos : 0 < blockSize)
    {τs : List (Transition KVCacheManager Call Unit)} {m : KVCacheManager}
    (h : Run (CallStep blockSize) (init numBlocks) τs m) :
    m.Represents numBlocks blockSize ∧
      (∀ τs' m', Run (CallStep blockSize) m τs' m' → ∀ id t,
        (∀ τ ∈ τs', τ.event ≠ .release id) → m.tables.get? id = some t →
        ∃ extra, m'.tables.get? id = some (t ++ extra) ∧
          ∀ p, Paging.Covers blockSize t (p + 1) →
            Paging.slot blockSize (t ++ extra) p = Paging.slot blockSize t p) ∧
      (∀ call e m', (Call.execute blockSize call).run m = .error e m' → m' = m) ∧
      (∀ id target, (∃ message m', (reserve blockSize id target).run m =
          .error (.memoryError message) m') ↔ (canReserve blockSize id target).run m = .ok false m) ∧
      ∀ id, ∃ m', (release id).run m = .ok () m' := by
  have howned : m.Owned numBlocks :=
    h.invariant (owned_init numBlocks) (fun _ _ _ _ hs hstep => hs.call_step hstep)
  refine ⟨howned.represents hpos, ?_, ?_, ?_, ?_⟩
  · intro τs' m' hrun id t hkeep ht
    obtain ⟨extra, hextra⟩ := howned.table_run hrun hkeep ht
    exact ⟨extra, hextra, fun p hp => Paging.slot_append extra (hp.div_lt (Nat.lt_succ_self p))⟩
  · intro call e m' hrun
    have hd := howned.call_derivation blockSize call
    rw [hrun] at hd
    cases hd
    rfl
  · intro id target
    cases ht : m.tables.get? id with
    | none => simp [run_reserve_of_none target ht, run_canReserve_of_none target ht]
    | some t =>
        rw [run_canReserve blockSize target ht]
        by_cases hfree : requiredBlocks blockSize target - t.length ≤ m.pool.free.length
        · simp [run_reserve ht hfree, hfree]
        · simp [run_reserve_of_lt ht (Nat.lt_of_not_le hfree), hfree]
  · intro id
    cases ht : m.tables.get? id with
    | none => exact ⟨m, run_release_of_none ht⟩
    | some t => exact ⟨_, howned.run_release ht⟩

def mixedCalls : List Call :=
  [.create "a", .create "a", .reserve "a" 3, .slots "a" 0 9, .create "b", .reserve "b" 9,
    .release "c", .release "a"]

theorem calls_keep_representation_mixed : ∃ τs m,
    Run (CallStep 2) (init 4) τs m ∧ τs.map Transition.event = mixedCalls ∧
      m.Represents 4 2 := by
  have hstep : ∀ (m : KVCacheManager) (call : Call),
      CallStep 2 m call [] ((call.execute 2).final m) := fun _ _ => ⟨rfl, rfl⟩
  obtain ⟨⟨τs, m⟩, hdrive⟩ : ∃ run, Run.execute (ο := Unit)
      (fun m (call : Call) => some ((call.execute 2).final m, [])) (init 4) mixedCalls =
        some run := ⟨_, rfl⟩
  have hrun : Run (CallStep 2) (init 4) τs m := by
    refine Run.of_execute hdrive (fun τ _ h => ?_)
    obtain ⟨hpost, hout⟩ := Prod.mk.inj (Option.some.inj h)
    rw [← hpost, ← hout]
    exact hstep _ _
  exact ⟨τs, m, hrun, Run.execute_events hdrive, (calls_keep_representation (by decide) hrun).1⟩

end KVCacheManager

end MiniVLLM
