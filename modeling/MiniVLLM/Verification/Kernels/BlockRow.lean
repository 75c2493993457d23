import MiniVLLM.Library.Tiling
import MiniVLLM.Model.AttentionBackends

/-! # A row of the extension's kernels

A block of 256 threads keeps the online softmax of one row. Between two barriers its threads run
in any order. -/

namespace MiniVLLM

namespace CudaAttentionBackend

open Launch NativeInts Reduction FloatOps

namespace RowArgs

def rowStart (args : RowArgs EReal) : ℕ :=
  (args.queryIndex * args.queryHeads + args.queryHead) * args.headDim

variable {args : RowArgs EReal} {query : ℕ → ℝ} {key value : ℕ → ℕ → ℝ} {token : ℕ}
  {block : BlockCell → EReal}

theorem queryOffset_eq {dim : ℕ} (hdim : dim < args.headDim)
    (hfits : args.rowStart + args.headDim ≤ 2 ^ 31) :
    args.queryOffset dim = some ((args.rowStart + dim : ℕ) : ℤ) := by
  have hrow : args.queryIndex * args.queryHeads + args.queryHead ≤ args.rowStart :=
    Nat.le_mul_of_pos_right _ (Nat.zero_lt_of_lt hdim)
  rw [queryOffset, CInt.index_natCast (by omega), Option.bind_eq_bind, Option.bind_some,
    CInt.index_natCast (show args.rowStart + dim < 2 ^ 31 by omega)]
  rfl

/-- What a block finds in the query and in the caches. -/
structure ReadsSpec (args : RowArgs EReal) (query : ℕ → ℝ) (key value : ℕ → ℕ → ℝ) : Prop where
  headDim_le : args.headDim ≤ kThreads
  start_le : args.rowStart + args.headDim ≤ 2 ^ 31
  query_eq : ∀ dim < args.headDim,
    (args.queryOffset dim).bind (Buffer.load args.query) = some (query dim : EReal)
  token_eq : ∀ token < args.contextLen, ∃ slot : ℤ,
    pagedSlot args.blockTable args.blockSize token = some slot ∧ ∀ dim < args.headDim,
      (args.cacheOffset slot dim).bind (Buffer.load args.keyCache) =
        some (key token dim : EReal) ∧
      (args.cacheOffset slot dim).bind (Buffer.load args.valueCache) =
        some (value token dim : EReal)

/-! ## The product of a token -/

/-- What a thread multiplies. Threads beyond the head hold zero. -/
def productAt (args : RowArgs EReal) (query keyRow : ℕ → ℝ) (dim : ℕ) : ℝ :=
  if dim < args.headDim then query dim * keyRow dim else 0

def reductionTarget (entry : ℕ → EReal) (thread : ℕ) (cell : BlockCell) : Option EReal :=
  if cell = .reduction thread then some (entry thread) else none

theorem reductionTarget_apart (entry : ℕ → EReal) {thread thread' : ℕ} (hne : thread ≠ thread') :
    Apart (reductionTarget entry thread) (reductionTarget entry thread') := by
  intro cell
  by_cases hcell : cell = .reduction thread
  · exact Or.inr (if_neg fun h => hne (BlockCell.reduction.inj (hcell.symm.trans h)))
  · exact Or.inl (if_neg hcell)

theorem productThread_stores (h : ReadsSpec args query key value) (htoken : token < args.contextLen)
    (block : BlockCell → EReal) (thread : ℕ) :
    ∃ block', args.productThread token block thread = some block' ∧
      Stores (reductionTarget (fun dim => (args.productAt query (key token) dim : EReal)) thread)
        block block' := by
  refine ⟨Function.update block (.reduction thread)
    (args.productAt query (key token) thread : EReal), ?_, fun cell => ?_⟩
  · rw [productThread, productAt]
    by_cases hdim : thread < args.headDim
    · obtain ⟨slot, hslot, hcells⟩ := h.token_eq token htoken
      rw [if_pos hdim, if_pos hdim, hslot]
      simp only [Option.bind_eq_bind, Option.bind_some, h.query_eq thread hdim,
        (hcells thread hdim).1, EReal.coe_mul]
      rfl
    · rw [if_neg hdim, if_neg hdim, EReal.coe_zero]
      rfl
  · rw [reductionTarget]
    by_cases hcell : cell = .reduction thread
    · rw [if_pos hcell, hcell, Function.update_self]
      rfl
    · rw [if_neg hcell, Function.update_of_ne hcell]
      rfl

/-- After the first barrier the shared memory holds the products of a token. -/
theorem exists_launch_product (schedule : Launch.Schedule) (h : ReadsSpec args query key value)
    (htoken : token < args.contextLen) (block : BlockCell → EReal) :
    ∃ block', schedule.launch kThreads (args.productThread token) block = some block' ∧
      (∀ i < kThreads,
        block' (.reduction i) = (args.productAt query (key token) i : EReal)) ∧
      ∀ cell, (∀ i, cell ≠ .reduction i) → block' cell = block cell := by
  obtain ⟨block', hlaunch, hscattered⟩ := schedule.exists_launch_memory kThreads
    (fun _ _ _ _ hne => reductionTarget_apart _ hne)
    (fun block' thread _ _ => productThread_stores h htoken block' thread)
  refine ⟨block', hlaunch, fun i hi => ?_, fun cell hcell => ?_⟩
  · exact hscattered.stored i (List.mem_range.mpr hi) _ _ (if_pos rfl)
  · exact hscattered.kept cell fun thread _ => if_neg (hcell thread)

/-! ## The sum of the products -/

/-- A step of the reduction, on its shared memory. -/
noncomputable def halve (stride : ℕ) (value : ℕ → EReal) (i : ℕ) : EReal :=
  if i < stride then value i + value (i + stride) else value i

noncomputable def halveTarget (stride : ℕ) (value : ℕ → EReal) (thread : ℕ) (cell : BlockCell) :
    Option EReal :=
  if thread < stride then reductionTarget (halve stride value) thread cell else none

theorem halveTarget_apart (stride : ℕ) (value : ℕ → EReal) {thread thread' : ℕ}
    (hne : thread ≠ thread') :
    Apart (halveTarget stride value thread) (halveTarget stride value thread') := by
  intro cell
  by_cases hthread : thread < stride
  · by_cases hthread' : thread' < stride
    · rw [halveTarget, halveTarget, if_pos hthread, if_pos hthread']
      exact reductionTarget_apart _ hne cell
    · exact Or.inr (if_neg hthread')
  · exact Or.inl (if_neg hthread)

theorem halveThread_stores {stride thread : ℕ} {value : ℕ → EReal}
    (hread : thread < stride → block (.reduction thread) = value thread ∧
      block (.reduction (thread + stride)) = value (thread + stride)) :
    Stores (halveTarget stride value thread) block (halveThread stride block thread) := by
  intro cell
  rw [halveThread, halveTarget]
  by_cases hthread : thread < stride
  · obtain ⟨hfirst, hsecond⟩ := hread hthread
    rw [if_pos hthread, if_pos hthread, reductionTarget]
    by_cases hcell : cell = .reduction thread
    · rw [if_pos hcell, hcell, Function.update_self, hfirst, hsecond, Option.getD_some, halve,
        if_pos hthread]
    · rw [if_neg hcell, Function.update_of_ne hcell]
      rfl
  · rw [if_neg hthread, if_neg hthread]
    rfl

/-- A cell that only one thread may store: its own, or one from `stride` on. -/
theorem halveTarget_eq_none {stride thread i : ℕ} {value : ℕ → EReal}
    (h : i ≠ thread ∨ stride ≤ i) : halveTarget stride value thread (.reduction i) = none := by
  rw [halveTarget]
  by_cases hthread : thread < stride
  · rw [if_pos hthread, reductionTarget, if_neg]
    intro hcell
    obtain rfl := BlockCell.reduction.inj hcell
    omega
  · exact if_neg hthread

/-- No thread stores what another one adds. -/
theorem exists_launch_halve (schedule : Launch.Schedule) {stride : ℕ} (hstride : stride ≤ kThreads)
    (block : BlockCell → EReal) :
    ∃ block', schedule.launch kThreads (fun block dim => some (halveThread stride block dim)) block =
        some block' ∧
      (∀ i, block' (.reduction i) = halve stride (fun i => block (.reduction i)) i) ∧
      ∀ cell, (∀ i, cell ≠ .reduction i) → block' cell = block cell := by
  obtain ⟨block', hlaunch, hscattered⟩ := schedule.exists_launch_memory kThreads
    (fun _ _ _ _ hne => halveTarget_apart stride (fun i => block (.reduction i)) hne)
    (fun block' thread _ hkept => ⟨halveThread stride block' thread, rfl,
      halveThread_stores fun _ => ⟨hkept _ fun thread' _ => (eq_or_ne thread' thread).imp_right
        fun hne => halveTarget_eq_none (Or.inl hne.symm),
        hkept _ fun thread' _ => Or.inr (halveTarget_eq_none (Or.inr (Nat.le_add_left _ _)))⟩⟩)
  refine ⟨block', hlaunch, fun i => ?_, fun cell hcell => ?_⟩
  · by_cases hi : i < stride
    · refine hscattered.stored i (List.mem_range.mpr (hi.trans_le hstride)) _ _ ?_
      rw [halveTarget, if_pos hi, reductionTarget, if_pos rfl]
    · rw [halve, if_neg hi]
      exact hscattered.kept _ fun thread _ =>
        halveTarget_eq_none (Or.inr (Nat.le_of_not_lt hi))
  · refine hscattered.kept cell fun thread _ => ?_
    rw [halveTarget, reductionTarget, if_neg (hcell thread), ite_self]

theorem exists_launch_halves (schedule : ℕ → Launch.Schedule) {strides : List ℕ}
    (hstrides : ∀ stride ∈ strides, stride ≤ kThreads) (block : BlockCell → EReal) :
    ∃ block', strides.foldlM (fun block stride => (schedule stride).launch kThreads
        (fun block dim => some (halveThread stride block dim)) block) block = some block' ∧
      (fun i => block' (.reduction i)) =
        strides.foldl (fun value stride => halve stride value) (fun i => block (.reduction i)) ∧
      ∀ cell, (∀ i, cell ≠ .reduction i) → block' cell = block cell := by
  induction strides using List.reverseRecOn with
  | nil => exact ⟨block, rfl, rfl, fun _ _ => rfl⟩
  | append_singleton strides stride ih =>
      obtain ⟨block', hrun, hvalue, hkept⟩ := ih fun s hs => hstrides s (List.mem_append_left _ hs)
      obtain ⟨block'', hnext, hvalue', hkept'⟩ :=
        exists_launch_halve (schedule stride) (hstrides stride (by simp)) block'
      refine ⟨block'', ?_, ?_, fun cell hcell => (hkept' cell hcell).trans (hkept cell hcell)⟩
      · rw [List.foldlM_append, hrun, Option.bind_eq_bind, Option.bind_some, List.foldlM_cons, hnext]
        rfl
      · rw [List.foldl_append, ← hvalue]
        exact funext hvalue'

/-- The reduction leaves the sum of all threads in its first cell. -/
theorem exists_reduction (schedule : ℕ → Launch.Schedule) (block : BlockCell → EReal) :
    ∃ block', (halvings (kThreads / 2)).foldlM (fun block stride => (schedule stride).launch kThreads
        (fun block dim => some (halveThread stride block dim)) block) block = some block' ∧
      block' (.reduction 0) = ((List.range kThreads).map fun i => block (.reduction i)).sum ∧
      ∀ cell, (∀ i, cell ≠ .reduction i) → block' cell = block cell := by
  have hpow : halvings (kThreads / 2) = (List.range 8).reverse.map (2 ^ ·) := halvings_two_pow 7
  have hstrides : ∀ stride ∈ (List.range 8).reverse.map (2 ^ ·), stride ≤ kThreads := by decide
  obtain ⟨block', hrun, hvalue, hkept⟩ := exists_launch_halves schedule hstrides block
  refine ⟨block', hpow ▸ hrun, (congrFun hvalue 0).trans ?_, hkept⟩
  exact foldl_halvings (k := 8) _ fun j _ value lane hlane => if_pos hlane

/-! ## The row -/

variable {row : OnlineSoftmax EReal ℕ} {score : EReal} {values : ℕ → EReal}

/-- A block whose registers hold `row`. -/
structure Holds (headDim : ℕ) (row : OnlineSoftmax EReal ℕ) (block : BlockCell → EReal) : Prop where
  max_eq : ∀ thread < kThreads, block (.rowMax thread) = row.rowMax
  sum_eq : ∀ thread < kThreads, block (.rowSum thread) = row.rowSum
  accumulator_eq : ∀ dim < headDim, block (.accumulator dim) = row.output dim

/-- The statistics of a row that meets a score. -/
structure HoldsStats (row : OnlineSoftmax EReal ℕ) (score : EReal) (block : BlockCell → EReal) :
    Prop where
  decay_eq : block (.stats 0) = OnlineSoftmax.decay row.rowMax (max row.rowMax score)
  weight_eq : block (.stats 1) = FloatOps.exp (score - max row.rowMax score)
  max_eq : block (.stats 2) = max row.rowMax score
  sum_eq : block (.stats 3) = OnlineSoftmax.decay row.rowMax (max row.rowMax score) * row.rowSum +
    FloatOps.exp (score - max row.rowMax score)

/-- Cells of the shared memory do not count for the row. -/
theorem Holds.of_kept {block' : BlockCell → EReal} (h : Holds args.headDim row block)
    (hkept : ∀ cell, (∀ i, cell ≠ .reduction i) → (∀ i, cell ≠ .stats i) →
      block' cell = block cell) : Holds args.headDim row block' where
  max_eq := fun thread hthread => (hkept _ (by simp) (by simp)).trans (h.max_eq thread hthread)
  sum_eq := fun thread hthread => (hkept _ (by simp) (by simp)).trans (h.sum_eq thread hthread)
  accumulator_eq := fun dim hdim => (hkept _ (by simp) (by simp)).trans (h.accumulator_eq dim hdim)

noncomputable def statsTarget (args : RowArgs EReal) (block : BlockCell → EReal) (thread : ℕ) :
    BlockCell → Option EReal
  | .stats i => if thread = 0 ∧ i < 4 then some (args.statsThread block 0 (.stats i)) else none
  | _ => none

theorem statsTarget_eq_none {thread : ℕ} (hthread : thread ≠ 0) (cell : BlockCell) :
    statsTarget args block thread cell = none := by
  cases cell with
  | stats i => exact if_neg fun h => hthread h.1
  | _ => rfl

theorem statsTarget_apart (args : RowArgs EReal) (block : BlockCell → EReal) {thread thread' : ℕ}
    (hne : thread ≠ thread') :
    Apart (statsTarget args block thread) (statsTarget args block thread') := by
  intro cell
  by_cases hthread : thread = 0
  · exact Or.inr (statsTarget_eq_none (fun h => hne (hthread.trans h.symm)) cell)
  · exact Or.inl (statsTarget_eq_none hthread cell)

/-- Thread zero stores its four statistics and nothing else. -/
theorem statsThread_stores (args : RowArgs EReal) (block : BlockCell → EReal) :
    Stores (statsTarget args block 0) block (args.statsThread block 0) := by
  intro cell
  cases cell with
  | stats i =>
      by_cases hi : i < 4
      · rw [statsTarget, if_pos ⟨rfl, hi⟩]
        rfl
      · rw [statsTarget, if_neg fun h => hi h.2, statsThread, if_pos rfl]
        have hne : ∀ j < 4, BlockCell.stats i ≠ .stats j :=
          fun j hj heq => hi (BlockCell.stats.inj heq ▸ hj)
        rw [Function.update_of_ne (hne 3 (by decide)), Function.update_of_ne (hne 2 (by decide)),
          Function.update_of_ne (hne 1 (by decide)), Function.update_of_ne (hne 0 (by decide))]
        rfl
  | _ => simp [statsTarget, statsThread]

theorem holdsStats_statsThread (h : Holds args.headDim row block)
    (hscore : block (.reduction 0) * FloatOps.rsqrt ((args.headDim : ℤ) : EReal) = score) :
    HoldsStats row score (args.statsThread block 0) := by
  have hmax := h.max_eq 0 (by decide)
  have hsum := h.sum_eq 0 (by decide)
  rw [statsThread, if_pos rfl, hscore, hmax, hsum]
  refine ⟨?_, ?_, ?_, ?_⟩
  · simp
  · simp
  · simp
  · simp

theorem exists_launch_stats (schedule : Launch.Schedule) (h : Holds args.headDim row block)
    (hscore : block (.reduction 0) * FloatOps.rsqrt ((args.headDim : ℤ) : EReal) = score) :
    ∃ block', schedule.launch kThreads (fun block dim => some (args.statsThread block dim)) block =
        some block' ∧ Holds args.headDim row block' ∧ HoldsStats row score block' := by
  obtain ⟨block', hlaunch, hscattered⟩ := schedule.exists_launch_memory kThreads
    (fun _ _ _ _ hne => statsTarget_apart args block hne)
    (fun block' thread _ hkept => by
      refine ⟨args.statsThread block' thread, rfl, ?_⟩
      by_cases hthread : thread = 0
      · subst hthread
        have hsame : block' = block := funext fun cell => hkept cell fun thread' _ =>
          (eq_or_ne thread' 0).imp_right fun hne => statsTarget_eq_none hne cell
        rw [hsame]
        exact statsThread_stores args block
      · intro cell
        rw [statsTarget_eq_none hthread, statsThread, if_neg hthread]
        rfl)
  have hstats : ∀ i < 4, block' (.stats i) = args.statsThread block 0 (.stats i) := fun i hi =>
    hscattered.stored 0 (List.mem_range.mpr (by decide)) _ _ (if_pos ⟨rfl, hi⟩)
  have hspec := holdsStats_statsThread h hscore
  refine ⟨block', hlaunch, h.of_kept fun cell _ hcell => ?_, ?_⟩
  · refine hscattered.kept cell fun thread _ => ?_
    cases cell with
    | stats i => exact absurd rfl (hcell i)
    | _ => rfl
  · exact ⟨(hstats 0 (by decide)).trans hspec.decay_eq, (hstats 1 (by decide)).trans hspec.weight_eq,
      (hstats 2 (by decide)).trans hspec.max_eq, (hstats 3 (by decide)).trans hspec.sum_eq⟩

/-- What a thread stores in its registers. -/
def registerTarget (headDim : ℕ) (row : OnlineSoftmax EReal ℕ) (thread : ℕ) :
    BlockCell → Option EReal
  | .accumulator dim => if dim = thread ∧ dim < headDim then some (row.output dim) else none
  | .rowMax other => if other = thread then some row.rowMax else none
  | .rowSum other => if other = thread then some row.rowSum else none
  | _ => none

theorem registerTarget_apart (headDim : ℕ) (row : OnlineSoftmax EReal ℕ) {thread thread' : ℕ}
    (hne : thread ≠ thread') :
    Apart (registerTarget headDim row thread) (registerTarget headDim row thread') := by
  intro cell
  cases cell with
  | accumulator dim =>
      by_cases hdim : dim = thread
      · exact Or.inr (if_neg fun h => hne (hdim.symm.trans h.1))
      · exact Or.inl (if_neg fun h => hdim h.1)
  | rowMax other =>
      by_cases hother : other = thread
      · exact Or.inr (if_neg fun h => hne (hother.symm.trans h))
      · exact Or.inl (if_neg hother)
  | rowSum other =>
      by_cases hother : other = thread
      · exact Or.inr (if_neg fun h => hne (hother.symm.trans h))
      · exact Or.inl (if_neg hother)
  | reduction index => exact Or.inl rfl
  | stats index => exact Or.inl rfl

theorem accumulateThread_stores (h : ReadsSpec args query key value)
    (htoken : token < args.contextLen) {thread : ℕ} (hstats : HoldsStats row score block)
    (haccumulator : thread < args.headDim → block (.accumulator thread) = row.output thread) :
    ∃ block', args.accumulateThread token block thread = some block' ∧
      Stores (registerTarget args.headDim (row.attend score fun dim => (value token dim : EReal))
        thread) block block' := by
  by_cases hdim : thread < args.headDim
  · obtain ⟨slot, hslot, hcells⟩ := h.token_eq token htoken
    refine ⟨_, by
      rw [accumulateThread, if_pos hdim, hslot]
      simp only [Option.bind_eq_bind, Option.bind_some, (hcells thread hdim).2, Option.pure_def]
      rfl, fun cell => ?_⟩
    cases cell with
    | accumulator dim =>
        by_cases heq : dim = thread
        · subst heq
          simp [registerTarget, hdim, hstats.decay_eq, hstats.weight_eq, haccumulator hdim,
            OnlineSoftmax.attend]
        · simp [registerTarget, heq]
    | rowMax other =>
        by_cases heq : other = thread
        · subst heq
          simp [registerTarget, hstats.max_eq, OnlineSoftmax.attend]
        · simp [registerTarget, heq]
    | rowSum other =>
        by_cases heq : other = thread
        · subst heq
          simp [registerTarget, hstats.sum_eq, OnlineSoftmax.attend]
        · simp [registerTarget, heq]
    | reduction index => simp [registerTarget]
    | stats index => simp [registerTarget]
  · refine ⟨_, by
      rw [accumulateThread, if_neg hdim]
      rfl, fun cell => ?_⟩
    cases cell with
    | accumulator dim =>
        have hne : ¬ (dim = thread ∧ dim < args.headDim) := fun h => hdim (h.1 ▸ h.2)
        simp [registerTarget, hne]
    | rowMax other =>
        by_cases heq : other = thread
        · subst heq
          simp [registerTarget, hstats.max_eq, OnlineSoftmax.attend]
        · simp [registerTarget, heq]
    | rowSum other =>
        by_cases heq : other = thread
        · subst heq
          simp [registerTarget, hstats.sum_eq, OnlineSoftmax.attend]
        · simp [registerTarget, heq]
    | reduction index => simp [registerTarget]
    | stats index => simp [registerTarget]

theorem exists_launch_accumulate (schedule : Launch.Schedule) (h : ReadsSpec args query key value)
    (htoken : token < args.contextLen) (hholds : Holds args.headDim row block)
    (hstats : HoldsStats row score block) :
    ∃ block', schedule.launch kThreads (args.accumulateThread token) block = some block' ∧
      Holds args.headDim (row.attend score fun dim => (value token dim : EReal)) block' := by
  let next := row.attend score fun dim => (value token dim : EReal)
  obtain ⟨block', hlaunch, hscattered⟩ := schedule.exists_launch_memory kThreads
    (fun _ _ _ _ hne => registerTarget_apart args.headDim next hne)
    (fun block' thread _ hkept => by
      have hsame : ∀ i, block' (.stats i) = block (.stats i) :=
        fun i => hkept _ fun _ _ => Or.inr rfl
      refine accumulateThread_stores h htoken ⟨(hsame 0).trans hstats.decay_eq,
        (hsame 1).trans hstats.weight_eq, (hsame 2).trans hstats.max_eq,
        (hsame 3).trans hstats.sum_eq⟩ fun hdim => ?_
      refine (hkept _ fun thread' _ => ?_).trans (hholds.accumulator_eq thread hdim)
      exact (eq_or_ne thread' thread).imp_right fun hne => if_neg fun hin => hne hin.1.symm)
  refine ⟨block', hlaunch, fun thread hthread => ?_, fun thread hthread => ?_, fun dim hdim => ?_⟩
  · exact hscattered.stored thread (List.mem_range.mpr hthread) _ _ (if_pos rfl)
  · exact hscattered.stored thread (List.mem_range.mpr hthread) _ _ (if_pos rfl)
  · exact hscattered.stored dim (List.mem_range.mpr (hdim.trans_le h.headDim_le)) _ _
      (if_pos ⟨rfl, hdim⟩)

/-! ## The token loop -/

/-- The threads of a block multiply and add up the scaled product. -/
theorem sum_productAt (h : ReadsSpec args query key value) (keyRow : ℕ → ℝ) :
    ((List.range kThreads).map fun i => (args.productAt query keyRow i : EReal)).sum *
        FloatOps.rsqrt ((args.headDim : ℤ) : EReal) =
      (OnlineSoftmax.scaledDot args.headDim query keyRow : EReal) := by
  have hsum : ((List.range kThreads).map (args.productAt query keyRow)).sum =
      ((List.range args.headDim).map fun i => query i * keyRow i).sum := by
    rw [Tiling.sum_range_padded (f := args.productAt query keyRow) h.headDim_le
      fun i hi => if_neg (Nat.not_lt.mpr hi)]
    exact congrArg List.sum (List.map_congr_left fun i hi => if_pos (List.mem_range.mp hi))
  rw [FloatOps.sum_coe, hsum, OnlineSoftmax.scaledDot, EReal.coe_mul]
  rfl

/-- One more token joins the row of the block. -/
theorem exists_attendToken (schedule : BlockSchedule) (h : ReadsSpec args query key value)
    (htoken : token < args.contextLen) (hholds : Holds args.headDim row block) :
    ∃ block', args.attendToken schedule block token = some block' ∧
      Holds args.headDim
        (row.attend (OnlineSoftmax.scaledDot args.headDim query (key token) : EReal)
          fun dim => (value token dim : EReal)) block' := by
  obtain ⟨products, hproducts, hproduct, hkept⟩ :=
    exists_launch_product (schedule token .product) h htoken block
  obtain ⟨reduced, hreduced, hsum, hkept'⟩ :=
    exists_reduction (fun stride => schedule token (.halve stride)) products
  have hholds' : Holds args.headDim row reduced :=
    hholds.of_kept fun cell hcell _ => (hkept' cell hcell).trans (hkept cell hcell)
  have hscore : reduced (.reduction 0) * FloatOps.rsqrt ((args.headDim : ℤ) : EReal) =
      (OnlineSoftmax.scaledDot args.headDim query (key token) : EReal) := by
    rw [hsum, List.map_congr_left fun i hi => hproduct i (List.mem_range.mp hi), sum_productAt h]
  obtain ⟨counted, hcounted, hrow, hstats⟩ :=
    exists_launch_stats (schedule token .stats) hholds' hscore
  obtain ⟨block', haccumulate, hnext⟩ :=
    exists_launch_accumulate (schedule token .accumulate) h htoken hrow hstats
  refine ⟨block', ?_, hnext⟩
  rw [attendToken, hproducts, Option.bind_eq_bind, Option.bind_some, hreduced, Option.bind_some,
    hcounted]
  exact haccumulate

theorem exists_attendTokens (schedule : BlockSchedule) (h : ReadsSpec args query key value)
    {tokens : List ℕ} (htokens : ∀ token ∈ tokens, token < args.contextLen)
    (garbage : BlockCell → EReal) :
    ∃ block, tokens.foldlM (args.attendToken schedule) (startBlock garbage) = some block ∧
      Holds args.headDim (OnlineSoftmax.start.attendAll
        (OnlineSoftmax.exactly (OnlineSoftmax.scored args.headDim query key value tokens)))
        block := by
  induction tokens using List.reverseRecOn with
  | nil => exact ⟨_, rfl, fun _ _ => rfl, fun _ _ => rfl, fun _ _ => rfl⟩
  | append_singleton tokens token ih =>
      obtain ⟨block, hrun, hblock⟩ := ih fun t ht => htokens t (List.mem_append_left _ ht)
      obtain ⟨block', hnext, hblock'⟩ :=
        exists_attendToken schedule h (htokens token (by simp)) hblock
      refine ⟨block', ?_, ?_⟩
      · rw [List.foldlM_append, hrun, Option.bind_eq_bind, Option.bind_some, List.foldlM_cons,
          hnext]
        rfl
      · rw [OnlineSoftmax.scored_append, OnlineSoftmax.exactly_append,
          OnlineSoftmax.attendAll_append]
        exact hblock'

/-! ## The output -/

def outputTarget (entry : ℕ → EReal) (headDim start thread i : ℕ) : Option (Option EReal) :=
  if thread < headDim ∧ i = start + thread then some (some (entry thread)) else none

theorem outputTarget_apart (entry : ℕ → EReal) (headDim start : ℕ) {thread thread' : ℕ}
    (hne : thread ≠ thread') :
    Apart (outputTarget entry headDim start thread) (outputTarget entry headDim start thread') := by
  intro i
  by_cases hi : i = start + thread
  · exact Or.inr (if_neg fun h => hne (Nat.add_left_cancel (hi.symm.trans h.2)))
  · exact Or.inl (if_neg fun h => hi h.2)

theorem outputThread_stores {outputs : List EReal} {entry : ℕ → EReal} {thread : ℕ}
    (hthread : thread < kThreads) (hholds : Holds args.headDim row block)
    (hentry : ∀ dim < args.headDim, row.output dim / row.rowSum = entry dim)
    (hfits : args.rowStart + args.headDim ≤ 2 ^ 31)
    (hroom : args.rowStart + args.headDim ≤ outputs.length) :
    ∃ outputs', args.outputThread block outputs thread = some outputs' ∧
      outputs'.length = outputs.length ∧
      Stores (outputTarget entry args.headDim (args.rowStart) thread) (outputs[·]?)
        (outputs'[·]?) := by
  by_cases hdim : thread < args.headDim
  · have hlt : args.rowStart + thread < outputs.length := by omega
    refine ⟨outputs.set (args.rowStart + thread) (entry thread), ?_, List.length_set ..,
      fun i => ?_⟩
    · rw [outputThread, if_pos hdim, queryOffset_eq hdim hfits, hholds.accumulator_eq thread hdim,
        hholds.sum_eq thread hthread, hentry thread hdim]
      exact Buffer.store_natCast _ hlt
    · show (outputs.set (args.rowStart + thread) (entry thread))[i]? = _
      rw [List.getElem?_set, outputTarget]
      by_cases hi : i = args.rowStart + thread
      · rw [if_pos hi.symm, if_pos hlt, if_pos ⟨hdim, hi⟩]
        rfl
      · rw [if_neg (Ne.symm hi), if_neg fun h => hi h.2]
        rfl
  · refine ⟨outputs, if_neg hdim, rfl, fun i => ?_⟩
    rw [outputTarget, if_neg fun h => hdim h.1]
    rfl

/-- A block stores the attention of its row. -/
theorem onlinePagedAttention_stores (schedule : BlockSchedule) (garbage : BlockCell → EReal)
    (h : ReadsSpec args query key value) (hpos : 0 < args.contextLen) {outputs : List EReal}
    {rows r : ℕ} {entry : ℕ → ℕ → EReal}
    (hr : args.queryIndex * args.queryHeads + args.queryHead = r) (hrow : r < rows)
    (hentry : ∀ dim < args.headDim, entry r dim = (OnlineSoftmax.attention args.headDim query key
      value (List.range args.contextLen) dim : EReal))
    (hroom : rows * args.headDim ≤ outputs.length) :
    ∃ outputs', args.onlinePagedAttention schedule garbage outputs = some outputs' ∧
      outputs'.length = outputs.length ∧
      Stores (wholeRow (fun row dim => some (entry row dim)) rows args.headDim r) (outputs[·]?)
        (outputs'[·]?) := by
  obtain ⟨block, hrun, hblock⟩ := exists_attendTokens schedule h
    (fun token htoken => List.mem_range.mp htoken) garbage
  have hne : List.range args.contextLen ≠ [] :=
    List.ne_nil_of_mem (List.mem_range.mpr hpos)
  have hquotient : ∀ dim < args.headDim, (OnlineSoftmax.start.attendAll (OnlineSoftmax.exactly
      (OnlineSoftmax.scored args.headDim query key value (List.range args.contextLen)))).output dim /
      (OnlineSoftmax.start.attendAll (OnlineSoftmax.exactly (OnlineSoftmax.scored args.headDim query
        key value (List.range args.contextLen)))).rowSum = entry r dim := by
    intro dim hdim
    rw [hentry dim hdim]
    exact OnlineSoftmax.attendAll_output_div_rowSum (OnlineSoftmax.scored_ne_nil hne) dim
  have hstart : args.rowStart = r * args.headDim := by rw [rowStart, hr]
  have hend : args.rowStart + args.headDim ≤ outputs.length := by
    calc args.rowStart + args.headDim = (r + 1) * args.headDim := by
          rw [hstart, Nat.add_mul, Nat.one_mul]
      _ ≤ rows * args.headDim := Nat.mul_le_mul_right _ hrow
      _ ≤ outputs.length := hroom
  obtain ⟨outputs', hlaunch, hlength, hscattered⟩ :=
    (schedule args.contextLen .output).exists_launch kThreads
    (fun (outputs : List EReal) (i : ℕ) => outputs[i]?)
    (P := fun outputs' : List EReal => outputs'.length = outputs.length) rfl
    (fun _ _ _ _ hne => outputTarget_apart (entry r) args.headDim (args.rowStart) hne)
    (fun outputs' thread hthread hlength _ => by
      obtain ⟨outputs'', hthreadRun, hlength', hstores⟩ :=
        outputThread_stores hthread hblock hquotient h.start_le (hlength.symm ▸ hend)
      exact ⟨outputs'', hthreadRun, hlength'.trans hlength, hstores⟩)
  refine ⟨outputs', ?_, hlength, fun i => ?_⟩
  · rw [onlinePagedAttention, hrun]
    exact hlaunch
  · rw [wholeRow]
    by_cases hi : i / args.headDim = r ∧ i % args.headDim < args.headDim
    · rw [if_pos ⟨hrow, hi⟩, Option.getD_some]
      refine hscattered.stored (i % args.headDim)
        (List.mem_range.mpr (hi.2.trans_le h.headDim_le)) i _ (if_pos ⟨hi.2, ?_⟩)
      rw [hstart, ← hi.1, Nat.div_add_mod']
    · rw [if_neg fun hin => hi hin.2]
      refine hscattered.kept i fun thread _ => if_neg ?_
      rintro ⟨hdim, rfl⟩
      rw [hstart, row_div _ hdim, row_mod _ hdim] at hi
      exact hi ⟨rfl, hdim⟩

/-! ## Overflow -/

/-- The thread of a cell whose offset in the query or in the keys is no `int`. -/
theorem productThread_eq_none {dim : ℕ} (hdim : dim < args.headDim)
    (h : ∀ slot, pagedSlot args.blockTable args.blockSize token = some slot →
      args.queryOffset dim = none ∨ args.cacheOffset slot dim = none)
    (block : BlockCell → EReal) : args.productThread token block dim = none := by
  rw [productThread, if_pos hdim]
  cases hslot : pagedSlot args.blockTable args.blockSize token with
  | none => rfl
  | some slot =>
      rw [Option.bind_eq_bind, Option.bind_some]
      rcases h slot hslot with hoffset | hoffset
      · rw [hoffset]
        rfl
      · rw [hoffset]
        cases (args.queryOffset dim).bind (Buffer.load args.query) <;> rfl

/-- A row one of whose threads always fails. -/
theorem onlinePagedAttention_eq_none {dim : ℕ} (htoken : token < args.contextLen)
    (hdim : dim < kThreads) (h : ∀ block, args.productThread token block dim = none)
    (schedule : BlockSchedule) (garbage : BlockCell → EReal) (outputs : List EReal) :
    args.onlinePagedAttention schedule garbage outputs = none := by
  have hturn : ∀ block, args.attendToken schedule block token = none := by
    intro block
    rw [attendToken, Schedule.launch_eq_none hdim h]
    rfl
  rw [onlinePagedAttention, Option.foldlM_eq_none (List.mem_range.mpr htoken) hturn]
  rfl

end RowArgs

end CudaAttentionBackend

end MiniVLLM
