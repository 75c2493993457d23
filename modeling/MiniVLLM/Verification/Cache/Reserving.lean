import MiniVLLM.Model.PagedKV
import MiniVLLM.Verification.Cache.Calls

/-! # Reservations of the C++ cache manager

A reservation takes blocks one at a time and stops in the middle when none is left, with the
blocks it has taken still in the table. -/

namespace MiniVLLM

namespace PagedKV

open MiniVLLM.KVCacheManager (requiredBlocks requiredBlocks_eq_ceilDiv)

theorem SequenceState.eta (s : SequenceState) : (⟨s.length, s.blockTable⟩ : SequenceState) = s := rfl

def KVCacheConfig.required (config : KVCacheConfig) (targetLength : ℤ) : ℕ :=
  requiredBlocks config.blockSize.toNat targetLength.toNat

theorem KVCacheConfig.tdiv_eq_required {config : KVCacheConfig} {targetLength : ℤ}
    (hsize : 0 < config.blockSize) (htarget : 0 ≤ targetLength) :
    (targetLength + config.blockSize - 1).tdiv config.blockSize = config.required targetLength := by
  obtain ⟨target, rfl⟩ := Int.eq_ofNat_of_zero_le htarget
  obtain ⟨size, hs⟩ := Int.eq_ofNat_of_zero_le hsize.le
  have hpos : 0 < size := by omega
  have hsum : (target : ℤ) + size - 1 = ((target + size - 1 : ℕ) : ℤ) := by omega
  rw [KVCacheConfig.required, requiredBlocks, hs, hsum, Int.toNat_natCast, Int.toNat_natCast,
    Int.tdiv_eq_ediv_of_nonneg (Int.natCast_nonneg _), Int.natCast_ediv]

namespace KVCacheManager

/-! ## Outcomes of the operations -/

/-- The manager after `count` blocks moved from the free list to the end of a table. -/
def taking (m : KVCacheManager) (requestId : String) (s : SequenceState) (count : ℕ) :
    KVCacheManager where
  freeBlocks := m.freeBlocks.drop count
  sequences := m.sequences.set requestId ⟨s.length, s.blockTable ++ m.freeBlocks.take count⟩

/-- The manager after a reservation that found enough blocks. -/
def reserved (m : KVCacheManager) (requestId : String) (s : SequenceState) (count : ℕ)
    (targetLength : ℤ) : KVCacheManager where
  freeBlocks := m.freeBlocks.drop count
  sequences := m.sequences.set requestId
    ⟨max s.length targetLength, s.blockTable ++ m.freeBlocks.take count⟩

def reclaimed (m : KVCacheManager) (requestId : String) (s : SequenceState) : KVCacheManager where
  freeBlocks := s.blockTable.reverse ++ m.freeBlocks
  sequences := m.sequences.erase requestId

def outOfMemory : CppError := .runtimeError "paged KV cache OOM: no free blocks"

section Outcomes

variable {m : KVCacheManager} {requestId : String} {s : SequenceState}

theorem run_sequenceState (h : m.sequences.get? requestId = some s) :
    (sequenceState requestId).run m = .ok s m := by
  simp [sequenceState, h]

theorem run_sequenceState_of_none (h : m.sequences.get? requestId = none) :
    (sequenceState requestId).run m = .error (.runtimeError "unknown sequence") m := by
  simp [sequenceState, h]

theorem taking_zero (h : m.sequences.get? requestId = some s) : m.taking requestId s 0 = m := by
  simp [taking, SequenceState.eta, Dict.set_of_get? h]

/-- The loop takes the missing blocks, or every free block before it throws. -/
theorem run_growTable (required fuel : ℕ) (h : m.sequences.get? requestId = some s)
    (hfuel : required - s.blockTable.length ≤ fuel) :
    (growTable requestId required fuel).run m =
      if required - s.blockTable.length ≤ m.freeBlocks.length then
        .ok () (m.taking requestId s (required - s.blockTable.length))
      else .error outOfMemory (m.taking requestId s m.freeBlocks.length) := by
  induction fuel generalizing m s with
  | zero =>
      have hzero : required - s.blockTable.length = 0 := Nat.le_zero.mp hfuel
      simp [growTable, hzero, taking_zero h]
  | succ fuel ih =>
      rw [growTable, EStateM.run_bind_of_ok (run_sequenceState h)]
      by_cases hmore : s.blockTable.length < required
      · have hmore' : (s.blockTable.length : ℤ) < (required : ℤ) := by exact_mod_cast hmore
        cases hfree : m.freeBlocks with
        | nil =>
            have hnot : ¬ required - s.blockTable.length ≤ 0 := by omega
            have hsame : m.taking requestId s 0 = m := taking_zero h
            simp [hmore', allocateBlock, hfree, hnot, hsame, outOfMemory]
        | cons block freeBlocks =>
            simp only [hmore', if_true, allocateBlock, EStateM.run_bind, EStateM.run_get, hfree,
              EStateM.run_set, EStateM.run_pure, EStateM.run_modify]
            rw [ih (s := ⟨s.length, s.blockTable ++ [block]⟩) (Dict.get?_set_self _ _ _)
              (by simp only [List.length_append, List.length_singleton]; omega)]
            have hleft : required - (s.blockTable ++ [block]).length + 1 =
                required - s.blockTable.length := by
              simp only [List.length_append, List.length_singleton]
              omega
            have htaking : ∀ count, taking
                ⟨freeBlocks, m.sequences.set requestId ⟨s.length, s.blockTable ++ [block]⟩⟩
                requestId ⟨s.length, s.blockTable ++ [block]⟩ count =
                  m.taking requestId s (count + 1) := by
              intro count
              simp [taking, hfree, Dict.set_set]
            rw [← hleft, List.length_cons, htaking, htaking]
            simp only [Nat.add_le_add_iff_right]
      · have hmore' : ¬ (s.blockTable.length : ℤ) < (required : ℤ) := by exact_mod_cast hmore
        have hzero : required - s.blockTable.length = 0 := by omega
        simp [hmore', hzero, taking_zero h]

theorem run_createSequence (h : requestId ∉ m.sequences.keys) :
    (createSequence requestId).run m =
      .ok () { m with sequences := m.sequences.set requestId {} } := by
  simp [createSequence, h]

theorem run_freeSequence (h : m.sequences.get? requestId = some s) :
    (freeSequence requestId).run m = .ok s.blockTable (m.reclaimed requestId s) := by
  have hfold : ∀ table free : List ℕ,
      table.foldl (fun freeBlocks block => block :: freeBlocks) free = table.reverse ++ free := by
    intro table free
    induction table generalizing free with
    | nil => rfl
    | cons block table ih => simp [ih]
  rw [freeSequence, EStateM.run_bind_of_ok (run_sequenceState h)]
  simp [hfold, reclaimed]

end Outcomes

/-- The ways a reservation can end. -/
inductive ReserveDerivation (config : KVCacheConfig) (m : KVCacheManager) (requestId : String)
    (targetLength : ℤ) : EStateM.Result CppError KVCacheManager Unit → Prop where
  | negative (h : targetLength < 0) : ReserveDerivation config m requestId targetLength
      (.error (.invalidArgument "target_length must be non-negative") m)
  | unknown (h : m.sequences.get? requestId = none) :
      ReserveDerivation config m requestId targetLength
        (.error (.runtimeError "unknown sequence") m)
  | overflow (h : CInt.intMax < targetLength + config.blockSize) :
      ReserveDerivation config m requestId targetLength (.error .overflow m)
  | exhausted {s} (hs : m.sequences.get? requestId = some s) (htarget : 0 ≤ targetLength)
      (hint : targetLength + config.blockSize ≤ CInt.intMax)
      (hfree : m.freeBlocks.length < config.required targetLength - s.blockTable.length) :
      ReserveDerivation config m requestId targetLength
        (.error outOfMemory (m.taking requestId s m.freeBlocks.length))
  | reserved {s} (hs : m.sequences.get? requestId = some s) (htarget : 0 ≤ targetLength)
      (hint : targetLength + config.blockSize ≤ CInt.intMax)
      (hfree : config.required targetLength - s.blockTable.length ≤ m.freeBlocks.length) :
      ReserveDerivation config m requestId targetLength (.ok () (m.reserved requestId s
        (config.required targetLength - s.blockTable.length) targetLength))

theorem reserveTokens_derivation {config : KVCacheConfig} (hsize : 0 < config.blockSize)
    (m : KVCacheManager) (requestId : String) (targetLength : ℤ) :
    ReserveDerivation config m requestId targetLength
      ((reserveTokens config requestId targetLength).run m) := by
  by_cases htarget : targetLength < 0
  · have hrun : (reserveTokens config requestId targetLength).run m =
        .error (.invalidArgument "target_length must be non-negative") m := by
      simp [reserveTokens, htarget]
    rw [hrun]
    exact .negative htarget
  · simp only [reserveTokens, htarget, if_false]
    cases hs : m.sequences.get? requestId with
    | none =>
        rw [EStateM.run_bind_of_error (run_sequenceState_of_none hs)]
        exact .unknown hs
    | some s =>
        rw [EStateM.run_bind_of_ok (run_sequenceState hs)]
        by_cases hint : CInt.intMax < targetLength + config.blockSize
        · simp only [hint, if_true, EStateM.run_throw_any]
          exact .overflow hint
        · simp only [hint, if_false]
          rw [KVCacheConfig.tdiv_eq_required hsize (not_lt.mp htarget), Int.toNat_natCast]
          have hgrow := run_growTable (config.required targetLength)
            (config.required targetLength) hs (Nat.sub_le _ _)
          by_cases hfree : config.required targetLength - s.blockTable.length ≤ m.freeBlocks.length
          · rw [if_pos hfree] at hgrow
            rw [EStateM.run_bind_of_ok hgrow,
              EStateM.run_bind_of_ok (run_sequenceState (Dict.get?_set_self _ _ _))]
            have hend := ReserveDerivation.reserved hs (not_lt.mp htarget) (not_lt.mp hint) hfree
            by_cases hlonger : s.length < targetLength
            · simpa [hlonger, taking, reserved, Dict.set_set, max_eq_right hlonger.le] using hend
            · simpa [hlonger, taking, reserved, max_eq_left (not_lt.mp hlonger)] using hend
          · rw [if_neg hfree] at hgrow
            rw [EStateM.run_bind_of_error hgrow]
            exact .exhausted hs (not_lt.mp htarget) (not_lt.mp hint) (not_le.mp hfree)

/-! ## All or nothing -/

def blocksFor (config : KVCacheConfig) (length : ℤ) : ℕ :=
  length.toNat ⌈/⌉ config.blockSize.toNat

theorem required_eq_blocksFor (config : KVCacheConfig) (length : ℤ) :
    config.required length = blocksFor config length :=
  requiredBlocks_eq_ceilDiv _

theorem blocksFor_mono (config : KVCacheConfig) {length length' : ℤ} (h : length ≤ length') :
    blocksFor config length ≤ blocksFor config length' := by
  rw [← required_eq_blocksFor, ← required_eq_blocksFor]
  exact MiniVLLM.KVCacheManager.requiredBlocks_mono _ (Int.toNat_le_toNat h)

theorem blocksFor_max (config : KVCacheConfig) (length length' : ℤ) :
    blocksFor config (max length length') =
      max (blocksFor config length) (blocksFor config length') :=
  Monotone.map_max (fun _ _ h => blocksFor_mono config h)

/-- A reservation throws and leaves the manager as it was, or returns with a table that grew
at its end to the blocks of the target. Undefined behaviour is neither. -/
def AllOrNothing (config : KVCacheConfig) (m : KVCacheManager) (requestId : String)
    (targetLength : ℤ) : Prop :=
  ∀ s, m.sequences.get? requestId = some s →
    match (reserveTokens config requestId targetLength).run m with
    | .error .overflow _ => False
    | .error _ m' => m' = m
    | .ok _ m' => ∃ extra, m'.sequences.get? requestId =
          some ⟨max s.length targetLength, s.blockTable ++ extra⟩ ∧
        (s.blockTable ++ extra).length =
          max s.blockTable.length (blocksFor config targetLength) ∧
        blocksFor config (max s.length targetLength) ≤ (s.blockTable ++ extra).length

/-- The sum fits an `int`, and the missing blocks are free or none is free at all. -/
def HasRoom (config : KVCacheConfig) (m : KVCacheManager) (requestId : String)
    (targetLength : ℤ) : Prop :=
  targetLength + config.blockSize ≤ CInt.intMax ∧
    ∀ s, m.sequences.get? requestId = some s →
      blocksFor config targetLength ≤ s.blockTable.length + m.freeBlocks.length ∨
        m.freeBlocks = []

def Covered (config : KVCacheConfig) (m : KVCacheManager) : Prop :=
  ∀ id s, m.sequences.get? id = some s → blocksFor config s.length ≤ s.blockTable.length

section Reserve

variable {config : KVCacheConfig} {m : KVCacheManager} {requestId : String} {targetLength : ℤ}

/-- A reservation is all or nothing just where there is room for it. -/
theorem Covered.allOrNothing_iff (h : Covered config m) (hsize : 0 < config.blockSize)
    (htarget : 0 ≤ targetLength) (hlive : requestId ∈ m.sequences.keys) :
    AllOrNothing config m requestId targetLength ↔ HasRoom config m requestId targetLength := by
  obtain ⟨s, hs⟩ := Dict.mem_keys_iff.mp hlive
  have honly : ∀ {u}, m.sequences.get? requestId = some u → u = s :=
    fun hu => Option.some.inj (hu.symm.trans hs)
  have hd := reserveTokens_derivation hsize m requestId targetLength
  unfold AllOrNothing HasRoom
  generalize (reserveTokens config requestId targetLength).run m = result at hd ⊢
  cases hd with
  | negative hneg => exact absurd hneg (not_lt.mpr htarget)
  | unknown hnone => simp [hs] at hnone
  | overflow hover =>
      exact ⟨fun hall => (hall s hs).elim, fun hroom => absurd hroom.1 (not_le.mpr hover)⟩
  | @exhausted u hu _ hint hfree =>
      obtain rfl := honly hu
      rw [required_eq_blocksFor] at hfree
      constructor
      · intro hall
        have hfreeBlocks : m.freeBlocks.drop m.freeBlocks.length = m.freeBlocks :=
          congrArg KVCacheManager.freeBlocks (hall u hu)
        exact ⟨hint, fun _ _ => Or.inr (by rw [← hfreeBlocks, List.drop_length])⟩
      · rintro ⟨_, hroom⟩ w hw
        rcases hroom u hu with hfit | hnone
        · omega
        · simpa [hnone, outOfMemory] using taking_zero hu
  | @reserved u hu _ hint hfree =>
      obtain rfl := honly hu
      have hcount : (u.blockTable ++ m.freeBlocks.take
          (config.required targetLength - u.blockTable.length)).length =
            max u.blockTable.length (blocksFor config targetLength) := by
        rw [List.length_append, List.length_take_of_le hfree, required_eq_blocksFor]
        omega
      rw [required_eq_blocksFor] at hfree
      constructor
      · exact fun _ => ⟨hint, fun w hw => Or.inl (by rw [honly hw]; omega)⟩
      · intro _ w hw
        obtain rfl := honly hw
        refine ⟨_, Dict.get?_set_self _ _ _, hcount, ?_⟩
        rw [hcount, blocksFor_max]
        exact max_le_max (h requestId _ hu) le_rfl

end Reserve
/-! ## Histories -/

inductive Call where
  | createSequence (requestId : String)
  | reserveTokens (requestId : String) (targetLength : ℤ)
  | freeSequence (requestId : String)
  deriving DecidableEq, Repr

def Call.execute (config : KVCacheConfig) : Call → Cpp KVCacheManager Unit
  | .createSequence requestId => KVCacheManager.createSequence requestId
  | .reserveTokens requestId targetLength =>
      KVCacheManager.reserveTokens config requestId targetLength
  | .freeSequence requestId => do
      let _ ← KVCacheManager.freeSequence requestId
      pure ()

/-- A call with the exception it threw, if any. No state follows undefined behaviour. -/
def CallStep (config : KVCacheConfig) (m : KVCacheManager) (call : Call) (out : List CppError)
    (m' : KVCacheManager) : Prop :=
  match (call.execute config).run m with
  | .ok _ post => out = [] ∧ m' = post
  | .error .overflow _ => False
  | .error error post => out = [error] ∧ m' = post

/-- What one step of a history can be. -/
inductive StepDerivation (config : KVCacheConfig) (m : KVCacheManager) :
    Call → List CppError → KVCacheManager → Prop where
  | rejected {call error} (herror : error ≠ outOfMemory) : StepDerivation config m call [error] m
  | created {requestId} (hnew : requestId ∉ m.sequences.keys) :
      StepDerivation config m (.createSequence requestId) []
        { m with sequences := m.sequences.set requestId {} }
  | exhausted {requestId targetLength s} (hs : m.sequences.get? requestId = some s)
      (htarget : 0 ≤ targetLength)
      (hfree : m.freeBlocks.length < config.required targetLength - s.blockTable.length) :
      StepDerivation config m (.reserveTokens requestId targetLength) [outOfMemory]
        (m.taking requestId s m.freeBlocks.length)
  | reserved {requestId targetLength s} (hs : m.sequences.get? requestId = some s)
      (htarget : 0 ≤ targetLength)
      (hfree : config.required targetLength - s.blockTable.length ≤ m.freeBlocks.length) :
      StepDerivation config m (.reserveTokens requestId targetLength) []
        (m.reserved requestId s (config.required targetLength - s.blockTable.length) targetLength)
  | freed {requestId s} (hs : m.sequences.get? requestId = some s) :
      StepDerivation config m (.freeSequence requestId) [] (m.reclaimed requestId s)

theorem CallStep.derivation {config : KVCacheConfig} (hsize : 0 < config.blockSize)
    {m m' : KVCacheManager} {call : Call} {out : List CppError}
    (h : CallStep config m call out m') : StepDerivation config m call out m' := by
  cases call with
  | createSequence requestId =>
      by_cases hkey : requestId ∈ m.sequences.keys
      · have hrun : ((Call.createSequence requestId).execute config).run m =
            .error (.runtimeError "sequence already exists") m := by
          simp [Call.execute, KVCacheManager.createSequence, hkey]
        simp only [CallStep, hrun] at h
        obtain ⟨rfl, rfl⟩ := h
        exact .rejected (by decide)
      · simp only [CallStep, Call.execute, run_createSequence hkey] at h
        obtain ⟨rfl, rfl⟩ := h
        exact .created hkey
  | reserveTokens requestId targetLength =>
      have hd := reserveTokens_derivation hsize m requestId targetLength
      simp only [CallStep, Call.execute] at h
      generalize (KVCacheManager.reserveTokens config requestId targetLength).run m = result
        at hd h
      cases hd with
      | negative =>
          obtain ⟨rfl, rfl⟩ := h
          exact .rejected (by decide)
      | unknown =>
          obtain ⟨rfl, rfl⟩ := h
          exact .rejected (by decide)
      | overflow => exact h.elim
      | exhausted hs htarget _ hfree =>
          obtain ⟨rfl, rfl⟩ := h
          exact .exhausted hs htarget hfree
      | reserved hs htarget _ hfree =>
          obtain ⟨rfl, rfl⟩ := h
          exact .reserved hs htarget hfree
  | freeSequence requestId =>
      cases hs : m.sequences.get? requestId with
      | none =>
          have hrun : ((Call.freeSequence requestId).execute config).run m =
              .error (.runtimeError "unknown sequence") m := by
            rw [Call.execute, KVCacheManager.freeSequence, EStateM.run_bind_of_error]
            exact EStateM.run_bind_of_error (run_sequenceState_of_none hs)
          simp only [CallStep, hrun] at h
          obtain ⟨rfl, rfl⟩ := h
          exact .rejected (by decide)
      | some s =>
          have hrun : ((Call.freeSequence requestId).execute config).run m =
              .ok () (m.reclaimed requestId s) := by
            rw [Call.execute, EStateM.run_bind_of_ok (run_freeSequence hs)]
            rfl
          simp only [CallStep, hrun] at h
          obtain ⟨rfl, rfl⟩ := h
          exact .freed hs

theorem blocksFor_zero {config : KVCacheConfig} (hsize : 0 < config.blockSize) :
    blocksFor config 0 = 0 := by
  rw [← required_eq_blocksFor]
  exact MiniVLLM.KVCacheManager.requiredBlocks_zero (by omega)

theorem Covered.step {config : KVCacheConfig} (hsize : 0 < config.blockSize)
    {m m' : KVCacheManager} (h : Covered config m) {call : Call} {out : List CppError}
    (hstep : CallStep config m call out m') : Covered config m' := by
  intro id u hu
  cases hstep.derivation hsize with
  | rejected => exact h id u hu
  | @created requestId =>
      rw [Dict.get?_set] at hu
      split at hu
      · obtain rfl := Option.some.inj hu
        exact (blocksFor_zero hsize).le
      · exact h id u hu
  | @exhausted requestId _ s hs =>
      rw [taking, Dict.get?_set] at hu
      split at hu
      · obtain rfl := Option.some.inj hu
        refine (h requestId s hs).trans ?_
        simp
      · exact h id u hu
  | @reserved requestId targetLength s hs _ hfree =>
      rw [KVCacheManager.reserved, Dict.get?_set] at hu
      split at hu
      · obtain rfl := Option.some.inj hu
        have hold := h requestId s hs
        rw [blocksFor_max, List.length_append, List.length_take_of_le hfree,
          ← required_eq_blocksFor config targetLength]
        omega
      · exact h id u hu
  | @freed requestId s =>
      rw [reclaimed, Dict.get?_erase] at hu
      split at hu
      · simp at hu
      · exact h id u hu

/-! ## The Python manager on the same calls -/

/-- The call of the Python manager that a call of the C++ manager corresponds to. -/
def Call.toPython : Call → MiniVLLM.KVCacheManager.Call
  | .createSequence requestId => .create requestId
  | .reserveTokens requestId targetLength => .reserve requestId targetLength.toNat
  | .freeSequence requestId => .release requestId

/-- The calls of a history that succeeded or ran out of memory, as Python calls. -/
def pythonCalls (τs : List (Transition KVCacheManager Call CppError)) :
    List MiniVLLM.KVCacheManager.Call :=
  (τs.filter fun τ => τ.out = [] ∨ τ.out = [outOfMemory]).map fun τ => τ.event.toPython

/-- The managers agree on the free blocks, in their order, and on every table. -/
structure Mirrors (m : KVCacheManager) (p : MiniVLLM.KVCacheManager) : Prop where
  free_eq : p.pool.free = m.freeBlocks
  tables_eq : ∀ id, p.tables.get? id = (m.sequences.get? id).map SequenceState.blockTable

/-- Every reservation of the history on a live sequence had room. -/
def Roomy (config : KVCacheConfig) (τs : List (Transition KVCacheManager Call CppError)) : Prop :=
  ∀ τ ∈ τs, ∀ requestId targetLength, τ.event = .reserveTokens requestId targetLength →
    0 ≤ targetLength → requestId ∈ τ.pre.sequences.keys →
      HasRoom config τ.pre requestId targetLength

section Simulation

variable {config : KVCacheConfig} {m m' : KVCacheManager} {p : MiniVLLM.KVCacheManager}

theorem Mirrors.get? (h : Mirrors m p) {id : String} {s : SequenceState}
    (hs : m.sequences.get? id = some s) : p.tables.get? id = some s.blockTable := by
  rw [h.tables_eq, hs]
  rfl

theorem Mirrors.set (h : Mirrors m p) {id : String} {table : List ℕ} {s : SequenceState}
    (hs : s.blockTable = table) (id' : String) :
    (p.tables.set id table).get? id' =
      ((m.sequences.set id s).get? id').map SequenceState.blockTable := by
  rw [Dict.get?_set, Dict.get?_set]
  split
  · rw [← hs]
    rfl
  · exact h.tables_eq id'

/-- A counted call keeps the managers together, where a reservation has room. -/
theorem Mirrors.step {numBlocks : ℕ} (h : Mirrors m p) (howned : p.Owned numBlocks)
    {call : Call} {out : List CppError} (hd : StepDerivation config m call out m')
    (hout : out = [] ∨ out = [outOfMemory])
    (hroom : ∀ requestId targetLength, call = .reserveTokens requestId targetLength →
      0 ≤ targetLength → requestId ∈ m.sequences.keys → HasRoom config m requestId targetLength) :
    Mirrors m' ((call.toPython.execute config.blockSize.toNat).final p) := by
  cases hd with
  | rejected herror => simp [herror] at hout
  | @created requestId hnew =>
      have hnew' : requestId ∉ p.tables.keys := by
        rw [← Dict.get?_eq_none_iff, h.tables_eq, Dict.get?_eq_none_iff.mpr hnew]
        rfl
      have hrun := MiniVLLM.KVCacheManager.run_create hnew'
      simp only [Call.toPython, MiniVLLM.KVCacheManager.Call.execute, EStateM.final]
      rw [EStateM.run_bind_of_ok hrun]
      exact ⟨h.free_eq, h.set rfl⟩
  | @exhausted requestId targetLength s hs htarget hfree =>
      -- With room, the loop can only have thrown before it took a block.
      have hnone : m.freeBlocks = [] := by
        obtain ⟨_, hfit⟩ := hroom requestId targetLength rfl htarget (Dict.mem_keys_of_get? hs)
        refine (hfit s hs).resolve_left ?_
        rw [← required_eq_blocksFor]
        omega
      have hfull : p.pool.free.length <
          requiredBlocks config.blockSize.toNat targetLength.toNat - s.blockTable.length := by
        rw [h.free_eq]
        exact hfree
      have hrun := MiniVLLM.KVCacheManager.run_reserve_of_lt (h.get? hs) hfull
      simp only [Call.toPython, MiniVLLM.KVCacheManager.Call.execute, EStateM.final]
      rw [EStateM.run_bind_of_error hrun, hnone, List.length_nil, taking_zero hs]
      exact h
  | @reserved requestId targetLength s hs htarget hfree =>
      have hfree' : requiredBlocks config.blockSize.toNat targetLength.toNat -
          s.blockTable.length ≤ p.pool.free.length := by
        rw [h.free_eq]
        exact hfree
      have hrun := MiniVLLM.KVCacheManager.run_reserve (h.get? hs) hfree'
      simp only [Call.toPython, MiniVLLM.KVCacheManager.Call.execute, EStateM.final]
      rw [EStateM.run_bind_of_ok hrun]
      refine ⟨?_, h.set ?_⟩
      · show p.pool.free.drop _ = m.freeBlocks.drop _
        rw [h.free_eq]
        rfl
      · rw [h.free_eq]
        rfl
  | @freed requestId s hs =>
      have hrun := howned.run_release (h.get? hs)
      simp only [Call.toPython, MiniVLLM.KVCacheManager.Call.execute, EStateM.final]
      rw [EStateM.run_bind_of_ok hrun]
      refine ⟨?_, fun id => ?_⟩
      · show s.blockTable.reverse ++ p.pool.free = s.blockTable.reverse ++ m.freeBlocks
        rw [h.free_eq]
      · show (p.tables.erase requestId).get? id =
          ((m.sequences.erase requestId).get? id).map SequenceState.blockTable
        rw [Dict.get?_erase, Dict.get?_erase]
        split
        · rfl
        · exact h.tables_eq id

/-- The Python manager can follow every history whose reservations had room. -/
theorem exists_mirror (hsize : 0 < config.blockSize) {numBlocks : ℕ} {m₀ : KVCacheManager}
    (hinit : Mirrors m₀ (.init numBlocks))
    {τs : List (Transition KVCacheManager Call CppError)} (hrun : Run (CallStep config) m₀ τs m)
    (hroomy : Roomy config τs) :
    ∃ ρs p, Run (MiniVLLM.KVCacheManager.CallStep config.blockSize.toNat) (.init numBlocks) ρs p ∧
      ρs.map Transition.event = pythonCalls τs ∧ Mirrors m p := by
  induction hrun with
  | nil => exact ⟨[], _, .nil, rfl, hinit⟩
  | @snoc τs mid call out post hmid hstep ih =>
      obtain ⟨ρs, p, hpython, hevents, hmirrors⟩ :=
        ih (fun τ hτ => hroomy τ (List.mem_append_left _ hτ))
      have hd := hstep.derivation hsize
      by_cases hout : out = [] ∨ out = [outOfMemory]
      · have howned : p.Owned numBlocks := hpython.invariant
          (MiniVLLM.KVCacheManager.owned_init numBlocks) (fun _ _ _ _ hs hstep => hs.call_step hstep)
        refine ⟨_, _, .snoc hpython ⟨rfl, rfl⟩, ?_,
          hmirrors.step howned hd hout (hroomy ⟨mid, call, out, post⟩ (by simp))⟩
        simp [pythonCalls, List.filter_append, hout, hevents]
      · refine ⟨ρs, p, hpython, ?_, ?_⟩
        · simp [pythonCalls, List.filter_append, hout, hevents]
        · cases hd with
          | rejected => exact hmirrors
          | created => simp at hout
          | exhausted => simp at hout
          | reserved => simp at hout
          | freed => simp at hout

end Simulation
/-! ## The managers compared -/

theorem of_construct {config : KVCacheConfig} {m : KVCacheManager} (h : construct config = .ok m) :
    0 < config.blockSize ∧ m = ⟨List.range config.maxBlocks.toNat, .empty⟩ := by
  unfold construct validateConfig at h
  split at h
  · cases h
  · rename_i hvalid
    simp only [not_or, not_le] at hvalid
    exact ⟨hvalid.2.2.2.1, (Except.ok.inj h).symm⟩

theorem covered_of_run {config : KVCacheConfig} {m₀ m : KVCacheManager}
    (hinit : construct config = .ok m₀) {τs : List (Transition KVCacheManager Call CppError)}
    (hrun : Run (CallStep config) m₀ τs m) : Covered config m := by
  obtain ⟨hsize, rfl⟩ := of_construct hinit
  refine hrun.invariant ?_ (fun _ _ _ _ h hstep => h.step hsize hstep)
  intro id s hs
  simp at hs

/-- After every history a reservation is all or nothing just where it has room, and the Python
manager follows a history with the same tables where every reservation had room. -/
theorem reserveTokens_allOrNothing_iff {config : KVCacheConfig} {m₀ m : KVCacheManager}
    (hinit : construct config = .ok m₀) {τs : List (Transition KVCacheManager Call CppError)}
    (hrun : Run (CallStep config) m₀ τs m) :
    (∀ requestId ∈ m.sequences.keys, ∀ targetLength, 0 ≤ targetLength →
      (AllOrNothing config m requestId targetLength ↔ HasRoom config m requestId targetLength)) ∧
    (Roomy config τs → ∃ ρs p,
      Run (MiniVLLM.KVCacheManager.CallStep config.blockSize.toNat)
        (.init config.maxBlocks.toNat) ρs p ∧
      ρs.map Transition.event = pythonCalls τs ∧
      ∀ id, p.tables.get? id = (m.sequences.get? id).map SequenceState.blockTable) := by
  have hcovered := covered_of_run hinit hrun
  obtain ⟨hsize, rfl⟩ := of_construct hinit
  refine ⟨fun requestId hlive targetLength htarget =>
    hcovered.allOrNothing_iff hsize htarget hlive, fun hroomy => ?_⟩
  have hmirrors₀ : Mirrors ⟨List.range config.maxBlocks.toNat, .empty⟩
      (MiniVLLM.KVCacheManager.init config.maxBlocks.toNat) := ⟨rfl, fun _ => rfl⟩
  obtain ⟨ρs, p, hpython, hevents, hmirrors⟩ := exists_mirror hsize hmirrors₀ hrun hroomy
  exact ⟨ρs, p, hpython, hevents, hmirrors.tables_eq⟩

def twoBlocks : KVCacheConfig where
  numLayers := 1
  numKvHeads := 1
  headDim := 1
  blockSize := 1
  maxBlocks := 2

/-- A history with a reservation that finds no block at all. -/
def fullCalls : List Call :=
  [.createSequence "a", .reserveTokens "a" 2, .reserveTokens "a" 3, .freeSequence "a",
    .createSequence "b", .reserveTokens "b" 1]

/-- The state and the exception that a call of two blocks leads to. -/
def driveTwoBlocks (m : KVCacheManager) (call : Call) :
    Option (KVCacheManager × List CppError) :=
  match (call.execute twoBlocks).run m with
  | .ok _ post => some (post, [])
  | .error .overflow _ => none
  | .error error post => some (post, [error])

theorem callStep_of_driveTwoBlocks {m m' : KVCacheManager} {call : Call} {out : List CppError}
    (h : driveTwoBlocks m call = some (m', out)) : CallStep twoBlocks m call out m' := by
  unfold driveTwoBlocks at h
  unfold CallStep
  split at h
  · obtain ⟨rfl, rfl⟩ := Prod.mk.inj (Option.some.inj h)
    exact ⟨rfl, rfl⟩
  · cases h
  · obtain ⟨rfl, rfl⟩ := Prod.mk.inj (Option.some.inj h)
    exact ⟨rfl, rfl⟩

theorem reserveTokens_allOrNothing_iff_two : ∃ m₀ τs m, construct twoBlocks = .ok m₀ ∧
    Run (CallStep twoBlocks) m₀ τs m ∧ τs.map Transition.event = fullCalls ∧
    (AllOrNothing twoBlocks m "b" 2 ↔ HasRoom twoBlocks m "b" 2) ∧
    ∃ ρs p, Run (MiniVLLM.KVCacheManager.CallStep 1) (.init 2) ρs p ∧
      p.tables.get? "b" = some [1] := by
  obtain ⟨⟨τs, m⟩, hdrive⟩ : ∃ run, Run.execute driveTwoBlocks ⟨[0, 1], .empty⟩ fullCalls =
    some run := ⟨_, rfl⟩
  have hrun := Run.of_execute hdrive (fun _ _ h => callStep_of_driveTwoBlocks h)
  have hinit : construct twoBlocks = .ok ⟨[0, 1], .empty⟩ := rfl
  have hevents := Run.execute_events hdrive
  have hb : m.sequences.get? "b" = some ⟨1, [1]⟩ := by
    cases hdrive
    rfl
  have hroomy : Roomy twoBlocks τs := by
    cases hdrive
    intro τ hτ requestId targetLength hevent _ _
    simp only [List.mem_cons, List.not_mem_nil, or_false] at hτ
    rcases hτ with rfl | rfl | rfl | rfl | rfl | rfl
    · cases hevent
    · cases hevent
      exact ⟨by decide, fun s hs => Or.inl (by cases hs; decide)⟩
    · cases hevent
      exact ⟨by decide, fun s hs => Or.inr rfl⟩
    · cases hevent
    · cases hevent
    · cases hevent
      exact ⟨by decide, fun s hs => Or.inl (by cases hs; decide)⟩
  obtain ⟨hall, hmirror⟩ := reserveTokens_allOrNothing_iff hinit hrun
  obtain ⟨ρs, p, hpython, _, htables⟩ := hmirror hroomy
  refine ⟨_, τs, m, hinit, hrun, hevents,
    hall "b" (Dict.mem_keys_of_get? hb) 2 (by decide), ρs, p, hpython, ?_⟩
  rw [htables, hb]
  rfl

/-- With two of three blocks free, the reservation throws with both in the table. -/
theorem reserveTokens_keeps_part : ∃ m₀ τs m m', construct twoBlocks = .ok m₀ ∧
    Run (CallStep twoBlocks) m₀ τs m ∧ "a" ∈ m.sequences.keys ∧
    (reserveTokens twoBlocks "a" 3).run m = .error outOfMemory m' ∧
    m.freeBlocks = [0, 1] ∧ m.sequences.get? "a" = some ⟨0, []⟩ ∧
    m'.freeBlocks = [] ∧ m'.sequences.get? "a" = some ⟨0, [0, 1]⟩ ∧
    ¬ AllOrNothing twoBlocks m "a" 3 := by
  have hinit : construct twoBlocks = .ok ⟨[0, 1], .empty⟩ := rfl
  have hcreate : CallStep twoBlocks ⟨[0, 1], .empty⟩ (.createSequence "a") []
      ⟨[0, 1], .singleton "a" {}⟩ := callStep_of_driveTwoBlocks rfl
  refine ⟨_, _, _, ⟨[], .singleton "a" ⟨0, [0, 1]⟩⟩, hinit, .snoc .nil hcreate, by decide, rfl, rfl,
    rfl, rfl, rfl, ?_⟩
  intro hall
  cases hall ⟨0, []⟩ rfl

end KVCacheManager

end PagedKV

end MiniVLLM
