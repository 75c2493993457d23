import Mathlib

/-! # Floating-point operations and their exact reading

Numerical code is written against a class of operations. Read exactly, a float is an extended
real number: the operations are those of the real numbers, and minus infinity is the bottom. -/

/-- The `float` operations of numerical code. Nothing is assumed about them. -/
class FloatOps (α : Type) extends Zero α, Add α, Sub α, Mul α, Div α, Max α, IntCast α,
    OfScientific α where
  sin : α → α
  exp : α → α
  sqrt : α → α
  rsqrt : α → α
  negInfinity : α
  isNegInfinity : α → Bool

namespace FloatOps

/-- The exact operations. Those that no float has, such as `sin` at an infinity, are those of
the number zero. -/
noncomputable instance exact : FloatOps EReal where
  toZero := inferInstance
  toAdd := inferInstance
  toSub := inferInstance
  toMul := inferInstance
  toDiv := inferInstance
  toMax := inferInstance
  intCast n := ((n : ℝ) : EReal)
  ofScientific mantissa sign exponent :=
    ((OfScientific.ofScientific mantissa sign exponent : ℝ) : EReal)
  sin x := ((Real.sin x.toReal : ℝ) : EReal)
  exp x := (EReal.exp x : EReal)
  sqrt x := ((√x.toReal : ℝ) : EReal)
  rsqrt x := ((1 / √x.toReal : ℝ) : EReal)
  negInfinity := ⊥
  isNegInfinity x := decide (x = ⊥)

@[simp] theorem exp_coe (x : ℝ) : FloatOps.exp (x : EReal) = ((Real.exp x : ℝ) : EReal) := by
  show (EReal.exp x : EReal) = _
  rw [EReal.exp_coe, EReal.coe_ennreal_ofReal, max_eq_left (Real.exp_pos x).le]

@[simp] theorem exp_zero : FloatOps.exp (0 : EReal) = 1 := by
  rw [← EReal.coe_zero, exp_coe, Real.exp_zero, EReal.coe_one]

@[simp] theorem sqrt_coe (x : ℝ) : FloatOps.sqrt (x : EReal) = ((√x : ℝ) : EReal) := rfl

@[simp] theorem rsqrt_coe (x : ℝ) : FloatOps.rsqrt (x : EReal) = ((1 / √x : ℝ) : EReal) := rfl

theorem max_coe (x y : ℝ) : max (x : EReal) (y : EReal) = ((max x y : ℝ) : EReal) :=
  (EReal.coe_strictMono.monotone.map_max).symm

@[simp] theorem negInfinity_eq : (FloatOps.negInfinity : EReal) = ⊥ := rfl

@[simp] theorem isNegInfinity_coe (x : ℝ) : FloatOps.isNegInfinity (x : EReal) = false := by
  simp [FloatOps.isNegInfinity]

@[simp] theorem isNegInfinity_bot : FloatOps.isNegInfinity (⊥ : EReal) = true := by
  simp [FloatOps.isNegInfinity]

@[simp] theorem intCast_eq (n : ℤ) : (IntCast.intCast n : EReal) = (((n : ℝ)) : EReal) := rfl

@[simp] theorem ofScientific_eq (mantissa : ℕ) (sign : Bool) (exponent : ℕ) :
    (OfScientific.ofScientific mantissa sign exponent : EReal) =
      ((OfScientific.ofScientific mantissa sign exponent : ℝ) : EReal) := rfl

/-- A loop that adds real numbers computes their sum. -/
theorem foldl_add_coe {τ : Type*} (f : τ → ℝ) (l : List τ) :
    l.foldl (fun sum t => sum + (f t : EReal)) 0 = ((l.map f).sum : EReal) := by
  induction l using List.reverseRecOn with
  | nil => rfl
  | append_singleton l t ih =>
      rw [List.foldl_append, ih, List.map_append, List.sum_append, EReal.coe_add]
      simp

/-- A sum of real numbers is a real number. -/
theorem sum_coe {τ : Type*} (f : τ → ℝ) (l : List τ) :
    (l.map fun t => (f t : EReal)).sum = ((l.map f).sum : EReal) := by
  rw [← foldl_add_coe, List.sum_eq_foldl, List.foldl_map]

/-- A loop that adds the products of loaded numbers computes their sum. -/
theorem foldlM_add_mul_coe {τ : Type*} {load load' : τ → Option EReal} {x y : τ → ℝ} {l : List τ}
    (hload : ∀ t ∈ l, load t = some (x t : EReal)) (hload' : ∀ t ∈ l, load' t = some (y t : EReal)) :
    l.foldlM (fun sum t => do
        let a ← load t
        let b ← load' t
        pure (sum + a * b)) (0 : EReal) =
      some ((l.map fun t => x t * y t).sum : EReal) := by
  induction l using List.reverseRecOn with
  | nil => rfl
  | append_singleton l t ih =>
      rw [List.foldlM_append, ih (fun t' ht' => hload t' (List.mem_append_left _ ht'))
        (fun t' ht' => hload' t' (List.mem_append_left _ ht')), Option.bind_eq_bind,
        Option.bind_some, List.foldlM_cons, hload t (by simp), hload' t (by simp), List.map_append,
        List.sum_append, EReal.coe_add, List.map_singleton, List.sum_singleton, EReal.coe_mul]
      rfl

theorem one_div_sqrt (n : ℕ) :
    (1.0 : EReal) / FloatOps.sqrt ((n : ℤ) : EReal) = ((1 / √(n : ℝ) : ℝ) : EReal) := by
  have hsqrt : FloatOps.sqrt ((n : ℤ) : EReal) = ((√(n : ℝ) : ℝ) : EReal) := rfl
  have hone : (1.0 : EReal) = ((1 : ℝ) : EReal) := by
    rw [ofScientific_eq]
    norm_num
  rw [hsqrt, hone, EReal.coe_div]

/-- Real numbers as floats. -/
def asFloats (values : List ℝ) : List EReal := values.map Real.toEReal

theorem length_asFloats (values : List ℝ) : (asFloats values).length = values.length :=
  List.length_map ..

theorem getElem?_asFloats {values : List ℝ} {i : ℕ} (h : i < values.length) :
    (asFloats values)[i]? = some (values.getD i 0 : EReal) := by
  rw [asFloats, List.getElem?_map, List.getElem?_eq_getElem h, List.getD_eq_getElem?_getD,
    List.getElem?_eq_getElem h]
  rfl

end FloatOps
