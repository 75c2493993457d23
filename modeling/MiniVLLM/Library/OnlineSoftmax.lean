import MiniVLLM.Library.Floats

/-! # Online softmax

A softmax-weighted average in one pass. The pass keeps the greatest score it has met, and the
sum of the weights and of the weighted values relative to that score. A greater score rescales
both sums. Rows that met parts of the scores merge into one. -/

/-- The running maximum, the running sum and the running output. -/
structure OnlineSoftmax (α ι : Type) where
  rowMax : α
  rowSum : α
  output : ι → α

namespace OnlineSoftmax

/-! ## The pass -/

section Pass

variable {α ι : Type} [FloatOps α]

/-- The factor by which a new maximum rescales the sums. -/
def decay (rowMax newMax : α) : α :=
  if FloatOps.isNegInfinity rowMax then 0 else FloatOps.exp (rowMax - newMax)

def start : OnlineSoftmax α ι := ⟨FloatOps.negInfinity, 0, fun _ => 0⟩

def attend (row : OnlineSoftmax α ι) (score : α) (value : ι → α) : OnlineSoftmax α ι where
  rowMax := max row.rowMax score
  rowSum := decay row.rowMax (max row.rowMax score) * row.rowSum +
    FloatOps.exp (score - max row.rowMax score)
  output i := decay row.rowMax (max row.rowMax score) * row.output i +
    FloatOps.exp (score - max row.rowMax score) * value i

def attendAll (row : OnlineSoftmax α ι) (pairs : List (α × (ι → α))) : OnlineSoftmax α ι :=
  pairs.foldl (fun row pair => row.attend pair.1 pair.2) row

@[simp] theorem attendAll_nil (row : OnlineSoftmax α ι) : row.attendAll [] = row := rfl

@[simp] theorem attendAll_append (row : OnlineSoftmax α ι) (pairs pairs' : List (α × (ι → α))) :
    row.attendAll (pairs ++ pairs') = (row.attendAll pairs).attendAll pairs' :=
  List.foldl_append ..

@[simp] theorem attendAll_singleton (row : OnlineSoftmax α ι) (pair : α × (ι → α)) :
    row.attendAll [pair] = row.attend pair.1 pair.2 := rfl

/-- The running maximum and the running sum depend on the scores alone. -/
theorem attendAll_stats_congr {τ : Type} {f g : τ → α × (ι → α)} {l : List τ}
    (hscore : ∀ t ∈ l, (f t).1 = (g t).1) :
    (start.attendAll (l.map f)).rowMax = (start.attendAll (l.map g)).rowMax ∧
      (start.attendAll (l.map f)).rowSum = (start.attendAll (l.map g)).rowSum := by
  induction l using List.reverseRecOn with
  | nil => exact ⟨rfl, rfl⟩
  | append_singleton l t ih =>
      obtain ⟨hmax, hsum⟩ := ih (fun t ht => hscore t (List.mem_append_left _ ht))
      have hs : (f t).1 = (g t).1 := hscore t (by simp)
      simp only [List.map_append, List.map_cons, List.map_nil, attendAll_append,
        attendAll_singleton, attend, hmax, hsum, hs, and_self]

/-- One entry of the output depends on the scores and on that entry of the values. -/
theorem attendAll_output_congr {τ : Type} {f g : τ → α × (ι → α)} {l : List τ} {i : ι}
    (hscore : ∀ t ∈ l, (f t).1 = (g t).1) (hvalue : ∀ t ∈ l, (f t).2 i = (g t).2 i) :
    (start.attendAll (l.map f)).output i = (start.attendAll (l.map g)).output i := by
  induction l using List.reverseRecOn with
  | nil => rfl
  | append_singleton l t ih =>
      have hscore' : ∀ t ∈ l, (f t).1 = (g t).1 :=
        fun t ht => hscore t (List.mem_append_left _ ht)
      have houtput := ih hscore' (fun t ht => hvalue t (List.mem_append_left _ ht))
      have hs : (f t).1 = (g t).1 := hscore t (by simp)
      have hv : (f t).2 i = (g t).2 i := hvalue t (by simp)
      simp only [List.map_append, List.map_cons, List.map_nil, attendAll_append,
        attendAll_singleton, attend, (attendAll_stats_congr hscore').1, houtput, hs, hv]

/-- Where two passes agree on the scores and on one entry of the values, they agree on the
quotient. -/
theorem quotient_congr {τ : Type} {f g : τ → α × (ι → α)} {l : List τ} {i : ι}
    (hscore : ∀ t ∈ l, (f t).1 = (g t).1) (hvalue : ∀ t ∈ l, (f t).2 i = (g t).2 i) :
    (start.attendAll (l.map f)).output i / (start.attendAll (l.map f)).rowSum =
      (start.attendAll (l.map g)).output i / (start.attendAll (l.map g)).rowSum := by
  rw [(attendAll_stats_congr hscore).2, attendAll_output_congr hscore hvalue]

end Pass

/-! ## Merging and two passes -/

section Merge

variable {α ι : Type} [FloatOps α]

/-- The greatest of the running maxima. -/
def mergeMax (rows : List (OnlineSoftmax α ι)) : α :=
  rows.foldl (fun rowMax row => max rowMax row.rowMax) FloatOps.negInfinity

/-- The running sums relative to `rowMax`. A row that has met nothing is skipped. -/
def mergeSum (rows : List (OnlineSoftmax α ι)) (rowMax : α) : α :=
  rows.foldl (fun sum row => if FloatOps.isNegInfinity row.rowMax then sum
    else sum + FloatOps.exp (row.rowMax - rowMax) * row.rowSum) 0

/-- The running outputs relative to `rowMax`. -/
def mergeOutput (rows : List (OnlineSoftmax α ι)) (rowMax : α) (i : ι) : α :=
  rows.foldl (fun output row => if FloatOps.isNegInfinity row.rowMax then output
    else output + FloatOps.exp (row.rowMax - rowMax) * row.output i) 0

/-- The softmax-weighted average, once all scores are known. -/
def twoPass (pairs : List (α × (ι → α))) (i : ι) : α :=
  let rowMax := pairs.foldl (fun rowMax pair => max rowMax pair.1) FloatOps.negInfinity
  let rowSum := pairs.foldl (fun sum pair => sum + FloatOps.exp (pair.1 - rowMax)) 0
  pairs.foldl (fun output pair => output + FloatOps.exp (pair.1 - rowMax) / rowSum * pair.2 i) 0

/-- The average depends on the scores and on one entry of the values. -/
theorem twoPass_congr {τ : Type} {f g : τ → α × (ι → α)} {l : List τ} {i : ι}
    (hscore : ∀ t ∈ l, (f t).1 = (g t).1) (hvalue : ∀ t ∈ l, (f t).2 i = (g t).2 i) :
    twoPass (l.map f) i = twoPass (l.map g) i := by
  have hmax : (l.map f).foldl (fun rowMax pair => max rowMax pair.1) FloatOps.negInfinity =
      (l.map g).foldl (fun rowMax pair => max rowMax pair.1) FloatOps.negInfinity := by
    rw [List.foldl_map, List.foldl_map]
    exact List.foldl_ext _ _ _ fun rowMax t ht => by rw [hscore t ht]
  have hsum : ∀ m : α, (l.map f).foldl (fun sum pair => sum + FloatOps.exp (pair.1 - m)) 0 =
      (l.map g).foldl (fun sum pair => sum + FloatOps.exp (pair.1 - m)) 0 := by
    intro m
    rw [List.foldl_map, List.foldl_map]
    exact List.foldl_ext _ _ _ fun sum t ht => by rw [hscore t ht]
  have houtput : ∀ m s : α, (l.map f).foldl
        (fun output pair => output + FloatOps.exp (pair.1 - m) / s * pair.2 i) 0 =
      (l.map g).foldl (fun output pair => output + FloatOps.exp (pair.1 - m) / s * pair.2 i) 0 := by
    intro m s
    rw [List.foldl_map, List.foldl_map]
    exact List.foldl_ext _ _ _ fun output t ht => by rw [hscore t ht, hvalue t ht]
  rw [twoPass, twoPass, hmax, hsum, houtput]

end Merge

/-! ## Weighted sums -/

section Sums

variable {ι : Type} {pairs pairs' : List (ℝ × (ι → ℝ))} {m m' : ℝ} {i : ι}

/-- The sum of the weights, relative to a score. -/
noncomputable def sumExp (m : ℝ) (pairs : List (ℝ × (ι → ℝ))) : ℝ :=
  (pairs.map fun pair => Real.exp (pair.1 - m)).sum

/-- The sum of the weighted values, relative to a score. -/
noncomputable def sumWeighted (m : ℝ) (pairs : List (ℝ × (ι → ℝ))) (i : ι) : ℝ :=
  (pairs.map fun pair => Real.exp (pair.1 - m) * pair.2 i).sum

/-- The softmax-weighted average of the values. -/
noncomputable def average (pairs : List (ℝ × (ι → ℝ))) (i : ι) : ℝ :=
  (pairs.map fun pair => Real.exp pair.1 * pair.2 i).sum /
    (pairs.map fun pair => Real.exp pair.1).sum

@[simp] theorem sumExp_nil (m : ℝ) : sumExp m ([] : List (ℝ × (ι → ℝ))) = 0 := rfl

@[simp] theorem sumWeighted_nil (m : ℝ) (i : ι) : sumWeighted m [] i = 0 := rfl

@[simp] theorem sumExp_append (m : ℝ) (pairs pairs' : List (ℝ × (ι → ℝ))) :
    sumExp m (pairs ++ pairs') = sumExp m pairs + sumExp m pairs' := by
  simp [sumExp]

@[simp] theorem sumWeighted_append (m : ℝ) (pairs pairs' : List (ℝ × (ι → ℝ))) (i : ι) :
    sumWeighted m (pairs ++ pairs') i = sumWeighted m pairs i + sumWeighted m pairs' i := by
  simp [sumWeighted]

@[simp] theorem sumExp_singleton (m : ℝ) (pair : ℝ × (ι → ℝ)) :
    sumExp m [pair] = Real.exp (pair.1 - m) := by
  simp [sumExp]

@[simp] theorem sumWeighted_singleton (m : ℝ) (pair : ℝ × (ι → ℝ)) (i : ι) :
    sumWeighted m [pair] i = Real.exp (pair.1 - m) * pair.2 i := by
  simp [sumWeighted]

theorem average_perm (h : pairs.Perm pairs') (i : ι) : average pairs i = average pairs' i := by
  rw [average, average, (h.map _).sum_eq, (h.map _).sum_eq]

/-- Sums relative to one score, seen relative to another. -/
theorem exp_mul_sumExp (m m' : ℝ) (pairs : List (ℝ × (ι → ℝ))) :
    Real.exp (m - m') * sumExp m pairs = sumExp m' pairs := by
  rw [sumExp, sumExp, ← List.sum_map_mul_left]
  congr 1
  apply List.map_congr_left
  intro pair _
  rw [← Real.exp_add]
  congr 1
  ring

theorem exp_mul_sumWeighted (m m' : ℝ) (pairs : List (ℝ × (ι → ℝ))) (i : ι) :
    Real.exp (m - m') * sumWeighted m pairs i = sumWeighted m' pairs i := by
  rw [sumWeighted, sumWeighted, ← List.sum_map_mul_left]
  congr 1
  apply List.map_congr_left
  intro pair _
  rw [← mul_assoc, ← Real.exp_add]
  congr 2
  ring

theorem sumExp_nonneg (m : ℝ) (pairs : List (ℝ × (ι → ℝ))) : 0 ≤ sumExp m pairs := by
  apply List.sum_nonneg
  intro x hx
  obtain ⟨pair, _, rfl⟩ := List.mem_map.mp hx
  exact (Real.exp_pos _).le

/-- The weight of the score itself is one. -/
theorem one_le_sumExp (h : ∃ pair ∈ pairs, pair.1 = m) : 1 ≤ sumExp m pairs := by
  obtain ⟨pair, hmem, rfl⟩ := h
  obtain ⟨front, back, rfl⟩ := List.append_of_mem hmem
  have hfront := sumExp_nonneg pair.1 front
  have hback := sumExp_nonneg pair.1 back
  have hcons : pair :: back = [pair] ++ back := rfl
  rw [sumExp_append, hcons, sumExp_append, sumExp_singleton, sub_self, Real.exp_zero]
  linarith

/-- The average does not depend on the score the sums are relative to. -/
theorem sumWeighted_div_sumExp (m : ℝ) (pairs : List (ℝ × (ι → ℝ))) (i : ι) :
    sumWeighted m pairs i / sumExp m pairs = average pairs i := by
  have haverage : average pairs i = sumWeighted 0 pairs i / sumExp 0 pairs := by
    simp [average, sumWeighted, sumExp]
  rw [haverage, ← exp_mul_sumWeighted 0 m, ← exp_mul_sumExp 0 m,
    mul_div_mul_left _ _ (Real.exp_pos _).ne']

end Sums

/-! ## The pass, read exactly -/

section Exact

variable {ι : Type} {row : OnlineSoftmax EReal ι} {pairs : List (ℝ × (ι → ℝ))} {m : ℝ}

/-- Real scores and values as floats. -/
def exactly (pairs : List (ℝ × (ι → ℝ))) : List (EReal × (ι → EReal)) :=
  pairs.map fun pair => ((pair.1 : EReal), fun i => (pair.2 i : EReal))

@[simp] theorem exactly_append (pairs pairs' : List (ℝ × (ι → ℝ))) :
    exactly (pairs ++ pairs') = exactly pairs ++ exactly pairs' :=
  List.map_append

/-- A row has met `pairs`, the greatest of whose scores is `m`. -/
structure Represents (row : OnlineSoftmax EReal ι) (pairs : List (ℝ × (ι → ℝ))) (m : ℝ) :
    Prop where
  attained : ∃ pair ∈ pairs, pair.1 = m
  greatest : ∀ pair ∈ pairs, pair.1 ≤ m
  rowMax_eq : row.rowMax = (m : EReal)
  rowSum_eq : row.rowSum = (sumExp m pairs : EReal)
  output_eq : ∀ i, row.output i = (sumWeighted m pairs i : EReal)

/-- The first score. Nothing of the empty sums is left. -/
theorem represents_start (score : ℝ) (value : ι → ℝ) :
    (start.attend (score : EReal) fun i => (value i : EReal)).Represents [(score, value)] score where
  attained := ⟨_, List.mem_singleton_self _, rfl⟩
  greatest := by simp
  rowMax_eq := by simp [attend, start]
  rowSum_eq := by simp [attend, start, decay]
  output_eq := by
    intro i
    simp [attend, start, decay]

/-- One more score rescales the sums and joins them. -/
theorem Represents.attend (h : row.Represents pairs m) (score : ℝ) (value : ι → ℝ) :
    (row.attend score fun i => (value i : EReal)).Represents (pairs ++ [(score, value)])
      (max m score) := by
  have hmax : max row.rowMax (score : EReal) = ((max m score : ℝ) : EReal) := by
    rw [h.rowMax_eq, FloatOps.max_coe]
  have hdecay : decay row.rowMax ((max m score : ℝ) : EReal) =
      ((Real.exp (m - max m score) : ℝ) : EReal) := by
    rw [decay, h.rowMax_eq, ← EReal.coe_sub, FloatOps.exp_coe, FloatOps.isNegInfinity_coe]
    rfl
  have hweight : FloatOps.exp ((score : EReal) - ((max m score : ℝ) : EReal)) =
      ((Real.exp (score - max m score) : ℝ) : EReal) := by
    rw [← EReal.coe_sub, FloatOps.exp_coe]
  refine ⟨?_, ?_, hmax, ?_, ?_⟩
  · rcases max_choice m score with hm | hm
    · obtain ⟨pair, hmem, hpair⟩ := h.attained
      exact ⟨pair, List.mem_append_left _ hmem, hpair.trans hm.symm⟩
    · exact ⟨(score, value), by simp, hm.symm⟩
  · intro pair hmem
    rcases List.mem_append.mp hmem with hmem | hmem
    · exact (h.greatest pair hmem).trans (le_max_left _ _)
    · rw [List.mem_singleton.mp hmem]
      exact le_max_right _ _
  · rw [sumExp_append, sumExp_singleton, ← exp_mul_sumExp m, EReal.coe_add, EReal.coe_mul]
    simp only [OnlineSoftmax.attend, hmax, hdecay, hweight, h.rowSum_eq]
  · intro i
    rw [sumWeighted_append, sumWeighted_singleton, ← exp_mul_sumWeighted m, EReal.coe_add,
      EReal.coe_mul, EReal.coe_mul]
    simp only [OnlineSoftmax.attend, hmax, hdecay, hweight, h.output_eq]

/-- After any scores the row holds their sums, relative to the greatest one. -/
theorem exists_represents (h : pairs ≠ []) :
    ∃ m, (start.attendAll (exactly pairs)).Represents pairs m := by
  induction pairs using List.reverseRecOn with
  | nil => exact absurd rfl h
  | append_singleton pairs pair ih =>
      obtain ⟨score, value⟩ := pair
      by_cases hpairs : pairs = []
      · subst hpairs
        exact ⟨score, represents_start score value⟩
      · obtain ⟨m, hm⟩ := ih hpairs
        rw [exactly_append, attendAll_append]
        exact ⟨max m score, hm.attend score value⟩

theorem Represents.one_le_rowSum (h : row.Represents pairs m) : 1 ≤ row.rowSum := by
  rw [h.rowSum_eq]
  exact_mod_cast one_le_sumExp h.attained

theorem Represents.output_div_rowSum (h : row.Represents pairs m) (i : ι) :
    row.output i / row.rowSum = (average pairs i : EReal) := by
  rw [h.output_eq, h.rowSum_eq, ← EReal.coe_div, sumWeighted_div_sumExp]

/-- The pass computes the softmax-weighted average. -/
theorem attendAll_output_div_rowSum (h : pairs ≠ []) (i : ι) :
    (start.attendAll (exactly pairs)).output i / (start.attendAll (exactly pairs)).rowSum =
      (average pairs i : EReal) := by
  obtain ⟨m, hm⟩ := exists_represents h
  exact hm.output_div_rowSum i

theorem one_le_attendAll_rowSum (h : pairs ≠ []) :
    1 ≤ (start.attendAll (exactly pairs)).rowSum := by
  obtain ⟨m, hm⟩ := exists_represents h
  exact hm.one_le_rowSum

/-- The greatest of real scores is a real score. -/
theorem exists_foldl_max {τ : Type} {f : τ → EReal} {l : List τ} (htop : ∀ t ∈ l, f t ≠ ⊤)
    (h : ∃ t ∈ l, f t ≠ ⊥) :
    ∃ m : ℝ, l.foldl (fun rowMax t => max rowMax (f t)) FloatOps.negInfinity = (m : EReal) := by
  have hmax : l.foldl (fun rowMax t => max rowMax (f t)) FloatOps.negInfinity ≠ ⊤ ∧
      ∀ t ∈ l, f t ≤ l.foldl (fun rowMax t => max rowMax (f t)) FloatOps.negInfinity := by
    clear h
    induction l using List.reverseRecOn with
    | nil => exact ⟨bot_ne_top, by simp⟩
    | append_singleton l t ih =>
        obtain ⟨hne, hle⟩ := ih fun t' ht' => htop t' (List.mem_append_left _ ht')
        rw [List.foldl_append, List.foldl_cons, List.foldl_nil]
        refine ⟨(max_lt (lt_top_iff_ne_top.mpr hne)
          (lt_top_iff_ne_top.mpr (htop t (by simp)))).ne, fun t' ht' => ?_⟩
        rcases List.mem_append.mp ht' with ht' | ht'
        · exact (hle t' ht').trans (le_max_left _ _)
        · rw [List.mem_singleton.mp ht']
          exact le_max_right _ _
  obtain ⟨t, ht, hne⟩ := h
  have hbelow : ⊥ < l.foldl (fun rowMax t => max rowMax (f t)) FloatOps.negInfinity :=
    (bot_lt_iff_ne_bot.mpr hne).trans_le (hmax.2 t ht)
  exact ⟨_, (EReal.coe_toReal hmax.1 hbelow.ne').symm⟩

/-- Two passes compute the softmax-weighted average. -/
theorem twoPass_exactly (h : pairs ≠ []) (i : ι) :
    twoPass (exactly pairs) i = (average pairs i : EReal) := by
  have hmax : ∃ m : ℝ, (exactly pairs).foldl (fun rowMax pair => max rowMax pair.1)
      FloatOps.negInfinity = (m : EReal) := by
    refine exists_foldl_max (fun t ht => ?_) ?_
    · obtain ⟨pair, _, rfl⟩ := List.mem_map.mp ht
      exact EReal.coe_ne_top _
    · obtain ⟨pair, hpair⟩ := List.exists_mem_of_ne_nil _ h
      exact ⟨_, List.mem_map_of_mem hpair, EReal.coe_ne_bot _⟩
  obtain ⟨m, hm⟩ := hmax
  have hweight : ∀ pair : ℝ × (ι → ℝ), FloatOps.exp ((pair.1 : EReal) - (m : EReal)) =
      ((Real.exp (pair.1 - m) : ℝ) : EReal) := by
    intro pair
    rw [← EReal.coe_sub, FloatOps.exp_coe]
  have hsum : (exactly pairs).foldl (fun sum pair => sum + FloatOps.exp (pair.1 - (m : EReal))) 0 =
      (sumExp m pairs : EReal) := by
    rw [exactly, List.foldl_map, sumExp, ← FloatOps.foldl_add_coe]
    simp only [hweight]
  rw [twoPass, hm, hsum, exactly, List.foldl_map]
  simp only [hweight, ← EReal.coe_div, ← EReal.coe_mul]
  rw [FloatOps.foldl_add_coe, ← sumWeighted_div_sumExp m, sumWeighted, div_eq_mul_inv,
    ← List.sum_map_mul_right]
  congr 2
  apply List.map_congr_left
  intro pair _
  ring

/-- The rows that met the parts of the scores. -/
noncomputable def rowsOf (parts : List (List (ℝ × (ι → ℝ)))) : List (OnlineSoftmax EReal ι) :=
  parts.map fun part => start.attendAll (exactly part)

/-- A row that met no score is still at minus infinity, and one that met a score is not. -/
theorem rowMax_attendAll (part : List (ℝ × (ι → ℝ))) :
    (part = [] ∧ (start.attendAll (exactly part)).rowMax = ⊥) ∨
      ∃ m : ℝ, (start.attendAll (exactly part)).Represents part m := by
  by_cases h : part = []
  · subst h
    exact Or.inl ⟨rfl, rfl⟩
  · exact Or.inr (exists_represents h)

theorem mergeSum_rowsOf (parts : List (List (ℝ × (ι → ℝ)))) (m : ℝ) :
    mergeSum (rowsOf parts) (m : EReal) = (sumExp m parts.flatten : EReal) := by
  rw [mergeSum, rowsOf, List.foldl_map]
  induction parts using List.reverseRecOn with
  | nil => rfl
  | append_singleton parts part ih =>
      rw [List.foldl_append, ih, List.foldl_cons, List.foldl_nil, List.flatten_append,
        sumExp_append, List.flatten_singleton]
      rcases rowMax_attendAll part with ⟨rfl, hbot⟩ | ⟨m', hrow⟩
      · rw [hbot, FloatOps.isNegInfinity_bot, if_pos rfl, sumExp_nil, add_zero]
      · rw [hrow.rowMax_eq, hrow.rowSum_eq, FloatOps.isNegInfinity_coe, ← EReal.coe_sub,
          FloatOps.exp_coe, if_neg Bool.false_ne_true, ← exp_mul_sumExp m' m part, EReal.coe_add,
          EReal.coe_mul]

theorem mergeOutput_rowsOf (parts : List (List (ℝ × (ι → ℝ)))) (m : ℝ) (i : ι) :
    mergeOutput (rowsOf parts) (m : EReal) i = (sumWeighted m parts.flatten i : EReal) := by
  rw [mergeOutput, rowsOf, List.foldl_map]
  induction parts using List.reverseRecOn with
  | nil => rfl
  | append_singleton parts part ih =>
      rw [List.foldl_append, ih, List.foldl_cons, List.foldl_nil, List.flatten_append,
        sumWeighted_append, List.flatten_singleton]
      rcases rowMax_attendAll part with ⟨rfl, hbot⟩ | ⟨m', hrow⟩
      · rw [hbot, FloatOps.isNegInfinity_bot, if_pos rfl, sumWeighted_nil, add_zero]
      · rw [hrow.rowMax_eq, hrow.output_eq, FloatOps.isNegInfinity_coe, ← EReal.coe_sub,
          FloatOps.exp_coe, if_neg Bool.false_ne_true, ← exp_mul_sumWeighted m' m part,
          EReal.coe_add, EReal.coe_mul]

/-- The rows of all parts merge into the row of the whole. -/
theorem mergeOutput_div_mergeSum {parts : List (List (ℝ × (ι → ℝ)))} (h : parts.flatten ≠ [])
    (i : ι) :
    mergeOutput (rowsOf parts) (mergeMax (rowsOf parts)) i /
        mergeSum (rowsOf parts) (mergeMax (rowsOf parts)) =
      (average parts.flatten i : EReal) := by
  have hmax : ∃ m : ℝ, mergeMax (rowsOf parts) = (m : EReal) := by
    refine exists_foldl_max (fun row hrow => ?_) ?_
    · obtain ⟨part, _, rfl⟩ := List.mem_map.mp hrow
      rcases rowMax_attendAll part with ⟨_, hbot⟩ | ⟨m, hrow⟩
      · rw [hbot]
        exact bot_ne_top
      · rw [hrow.rowMax_eq]
        exact EReal.coe_ne_top _
    · obtain ⟨pair, hpair⟩ := List.exists_mem_of_ne_nil _ h
      obtain ⟨part, hpart, hmem⟩ := List.mem_flatten.mp hpair
      obtain ⟨m, hrow⟩ := exists_represents (List.ne_nil_of_mem hmem)
      refine ⟨_, List.mem_map_of_mem hpart, ?_⟩
      rw [hrow.rowMax_eq]
      exact EReal.coe_ne_bot _
  obtain ⟨m, hm⟩ := hmax
  rw [hm, mergeOutput_rowsOf, mergeSum_rowsOf, ← EReal.coe_div, sumWeighted_div_sumExp]

end Exact

/-! ## Heads

The score of a key is its scaled product with the query. -/

section Heads

variable {width : ℕ} {query : ℕ → ℝ} {key value : ℕ → ℕ → ℝ} {tokens tokens' : List ℕ}

noncomputable def scaledDot (width : ℕ) (query key : ℕ → ℝ) : ℝ :=
  ((List.range width).map fun i => query i * key i).sum * (1 / √(width : ℝ))

/-- The scores and the values of some tokens. -/
noncomputable def scored (width : ℕ) (query : ℕ → ℝ) (key value : ℕ → ℕ → ℝ)
    (tokens : List ℕ) : List (ℝ × (ℕ → ℝ)) :=
  tokens.map fun token => (scaledDot width query (key token), value token)

/-- The attention of a query over some tokens. -/
noncomputable def attention (width : ℕ) (query : ℕ → ℝ) (key value : ℕ → ℕ → ℝ)
    (tokens : List ℕ) (i : ℕ) : ℝ :=
  average (scored width query key value tokens) i

@[simp] theorem scored_append (width : ℕ) (query : ℕ → ℝ) (key value : ℕ → ℕ → ℝ)
    (tokens tokens' : List ℕ) : scored width query key value (tokens ++ tokens') =
      scored width query key value tokens ++ scored width query key value tokens' :=
  List.map_append

theorem scored_ne_nil (h : tokens ≠ []) : scored width query key value tokens ≠ [] :=
  fun hnil => h (List.map_eq_nil_iff.mp hnil)

theorem attention_congr {query' : ℕ → ℝ} {key' value' : ℕ → ℕ → ℝ} {i : ℕ}
    (hquery : ∀ dim < width, query dim = query' dim)
    (hkey : ∀ token ∈ tokens, ∀ dim < width, key token dim = key' token dim)
    (hvalue : ∀ token ∈ tokens, value token i = value' token i) :
    attention width query key value tokens i = attention width query' key' value' tokens i := by
  have hscore : ∀ token ∈ tokens,
      scaledDot width query (key token) = scaledDot width query' (key' token) := by
    intro token htoken
    refine congrArg (· * (1 / √(width : ℝ))) (congrArg List.sum ?_)
    refine List.map_congr_left fun dim hdim => ?_
    rw [hquery dim (List.mem_range.mp hdim), hkey token htoken dim (List.mem_range.mp hdim)]
  simp only [attention, average, scored, List.map_map]
  congr 2
  · refine List.map_congr_left fun token htoken => ?_
    simp only [Function.comp_apply, hscore token htoken, hvalue token htoken]
  · refine List.map_congr_left fun token htoken => ?_
    simp only [Function.comp_apply, hscore token htoken]

/-- The order of the tokens does not matter. -/
theorem attention_perm (h : tokens.Perm tokens') (i : ℕ) :
    attention width query key value tokens i = attention width query key value tokens' i :=
  average_perm (h.map _) i

end Heads

end OnlineSoftmax
