import Mathlib

/-! # Stateful computations that may raise

`EStateM` keeps the state at the point of failure, as an exception leaves the
mutations made before it. The lemmas below run one component inside a larger state. -/

theorem Except.ok_bind {ε α β : Type} (a : α) (f : α → Except ε β) :
    (Except.ok a >>= f) = f a := rfl

theorem Except.pure_eq_ok {ε α : Type} (a : α) : (pure a : Except ε α) = .ok a := rfl

theorem Except.bind_eq_ok_iff {ε α β : Type} {x : Except ε α} {f : α → Except ε β} {b : β} :
    (x >>= f) = .ok b ↔ ∃ a, x = .ok a ∧ f a = .ok b := by
  cases x with
  | error e => simp [bind, Except.bind]
  | ok a => simp [Except.ok_bind]

/-- Where no element raises, `mapM` is `map`. -/
theorem Except.mapM_eq_ok {ε α β : Type} {f : α → Except ε β} {g : α → β} {l : List α}
    (h : ∀ a ∈ l, f a = .ok (g a)) : l.mapM f = .ok (l.map g) := by
  induction l with
  | nil => rfl
  | cons a l ih =>
      rw [List.mapM_cons, h a (by simp), ih (fun b hb => h b (List.mem_cons_of_mem _ hb))]
      rfl

/-- The results of `mapM`, one for each element. -/
theorem Except.of_mapM {ε α β : Type} {f : α → Except ε β} {l : List α} {l' : List β}
    (h : l.mapM f = .ok l') : l'.length = l.length ∧ ∀ b ∈ l', ∃ a ∈ l, f a = .ok b := by
  induction l generalizing l' with
  | nil =>
      obtain rfl := Except.ok.inj h
      exact ⟨rfl, by simp⟩
  | cons a l ih =>
      rw [List.mapM_cons] at h
      cases ha : f a with
      | error e => simp [ha, bind, Except.bind] at h
      | ok b =>
          cases hl : l.mapM f with
          | error e => simp [ha, hl, bind, Except.bind] at h
          | ok bs =>
              rw [ha, hl] at h
              obtain rfl := Except.ok.inj h
              obtain ⟨hlen, hmem⟩ := ih hl
              refine ⟨by simp [hlen], fun c hc => ?_⟩
              rcases List.mem_cons.mp hc with rfl | hc
              · exact ⟨a, by simp, ha⟩
              · obtain ⟨a', ha', hf⟩ := hmem c hc
                exact ⟨a', List.mem_cons_of_mem _ ha', hf⟩

/-- A check of each element, which returns it. -/
theorem Except.mapM_eq_ok_iff {ε α : Type} {f : α → Except ε α} {p : α → Prop}
    (hf : ∀ a b, f a = .ok b ↔ p a ∧ a = b) {l l' : List α} :
    l.mapM f = .ok l' ↔ (∀ a ∈ l, p a) ∧ l = l' := by
  constructor
  · intro h
    induction l generalizing l' with
    | nil => exact ⟨by simp, Except.ok.inj h⟩
    | cons a l ih =>
        rw [List.mapM_cons] at h
        obtain ⟨b, hb, h⟩ := Except.bind_eq_ok_iff.mp h
        obtain ⟨bs, hbs, h⟩ := Except.bind_eq_ok_iff.mp h
        obtain ⟨ha, rfl⟩ := (hf a b).mp hb
        obtain ⟨hl, rfl⟩ := ih hbs
        exact ⟨List.forall_mem_cons.mpr ⟨ha, hl⟩, Except.ok.inj h⟩
  · rintro ⟨h, rfl⟩
    rw [Except.mapM_eq_ok (fun a ha => (hf a a).mpr ⟨h a ha, rfl⟩), List.map_id']

namespace EStateM

variable {ε σ τ α β : Type}

@[simp] theorem run_throw_any (e : ε) (s : σ) :
    EStateM.run (throw e : EStateM ε σ α) s = .error e s := rfl

theorem run_bind_of_ok {x : EStateM ε σ α} {f : α → EStateM ε σ β} {a : α} {s s' : σ}
    (h : x.run s = .ok a s') : (x >>= f).run s = (f a).run s' := by
  simp [h]

theorem run_bind_of_error {x : EStateM ε σ α} {f : α → EStateM ε σ β} {e : ε} {s s' : σ}
    (h : x.run s = .error e s') : (x >>= f).run s = .error e s' := by
  simp [h]

theorem run_tryCatch_of_ok {x : EStateM ε σ α} {handle : ε → EStateM ε σ α} {a : α} {s s' : σ}
    (h : x.run s = .ok a s') : (tryCatch x handle).run s = .ok a s' := by
  show (EStateM.tryCatch x handle) s = _
  simp only [EStateM.tryCatch]
  rw [show x s = .ok a s' from h]

/-- A handler starts in the state the failed computation left. -/
theorem run_tryCatch_of_error {x : EStateM ε σ α} {handle : ε → EStateM ε σ α} {e : ε}
    {s s' : σ} (h : x.run s = .error e s') :
    (tryCatch x handle).run s = (handle e).run s' := by
  show (EStateM.tryCatch x handle) s = _
  simp only [EStateM.tryCatch]
  rw [show x s = .error e s' from h]
  rfl

/-- Runs a computation on one component of the state. -/
def zoom (view : τ → σ) (put : σ → τ → τ) (x : EStateM ε σ α) : EStateM ε τ α := fun t =>
  match x.run (view t) with
  | .ok a s => .ok a (put s t)
  | .error e s => .error e (put s t)

theorem run_zoom_of_ok {view : τ → σ} {put : σ → τ → τ} {x : EStateM ε σ α} {a : α} {s : σ}
    {t : τ} (h : x.run (view t) = .ok a s) : (zoom view put x).run t = .ok a (put s t) := by
  show (match x.run (view t) with
    | .ok a s => EStateM.Result.ok a (put s t)
    | .error e s => EStateM.Result.error e (put s t)) = .ok a (put s t)
  rw [h]

theorem run_zoom_of_error {view : τ → σ} {put : σ → τ → τ} {x : EStateM ε σ α} {e : ε} {s : σ}
    {t : τ} (h : x.run (view t) = .error e s) :
    (zoom view put x).run t = .error e (put s t) := by
  show (match x.run (view t) with
    | .ok a s => EStateM.Result.ok a (put s t)
    | .error e s => EStateM.Result.error e (put s t)) = .error e (put s t)
  rw [h]

/-- Reads a value that may be missing, raising `e` when it is. -/
def getOrRaise (e : ε) (v : Option α) : EStateM ε σ α :=
  match v with
  | some a => pure a
  | none => throw e

@[simp] theorem run_getOrRaise_some (e : ε) (a : α) (s : σ) :
    (getOrRaise e (some a)).run s = .ok a s := rfl

@[simp] theorem run_getOrRaise_none (e : ε) (s : σ) :
    (getOrRaise (α := α) e none).run s = .error e s := rfl

theorem of_run_getOrRaise {e : ε} {v : Option α} {a : α} {s s' : σ}
    (h : (getOrRaise e v).run s = .ok a s') : v = some a ∧ s' = s := by
  cases v with
  | none => cases h
  | some b =>
      obtain ⟨rfl, rfl⟩ := EStateM.Result.ok.inj h
      exact ⟨rfl, rfl⟩

/-- A computation that reads no state. -/
def ofExcept : Except ε α → EStateM ε σ α
  | .ok a => pure a
  | .error e => throw e

@[simp] theorem run_ofExcept_ok (a : α) (s : σ) :
    (ofExcept (.ok a : Except ε α)).run s = .ok a s := rfl

@[simp] theorem run_ofExcept_error (e : ε) (s : σ) :
    (ofExcept (.error e : Except ε α)).run s = .error e s := rfl

/-- Replaces the state by a function that may raise; then the state stays as it was. -/
def update (f : σ → Except ε σ) : EStateM ε σ Unit := do
  let s ← get
  let s' ← ofExcept (f s)
  set s'

theorem run_update_of_ok {f : σ → Except ε σ} {s s' : σ} (h : f s = .ok s') :
    (update f).run s = .ok () s' := by
  simp [update, h]

/-! ## Invariants of computations -/

/-- The state a computation ends in, also where it raises. -/
def final (x : EStateM ε σ α) (s : σ) : σ :=
  match x.run s with
  | .ok _ s' => s'
  | .error _ s' => s'

theorem final_of_ok {x : EStateM ε σ α} {a : α} {s s' : σ} (h : x.run s = .ok a s') :
    x.final s = s' := by
  rw [final, h]

theorem final_of_error {x : EStateM ε σ α} {e : ε} {s s' : σ} (h : x.run s = .error e s') :
    x.final s = s' := by
  rw [final, h]

/-- The answer of a computation that returns. -/
def value? (x : EStateM ε σ α) (s : σ) : Option α :=
  match x.run s with
  | .ok a _ => some a
  | .error _ _ => none

theorem value?_of_ok {x : EStateM ε σ α} {a : α} {s s' : σ} (h : x.run s = .ok a s') :
    x.value? s = some a := by
  rw [value?, h]

/-- Dropping the answer keeps the state. -/
@[simp] theorem final_discard (x : EStateM ε σ α) (s : σ) :
    (do let _ ← x; pure () : EStateM ε σ Unit).final s = x.final s := by
  cases h : x.run s with
  | ok a s' =>
      rw [final_of_ok h]
      exact final_of_ok (by rw [run_bind_of_ok h]; rfl)
  | error e s' =>
      rw [final_of_error h]
      exact final_of_error (run_bind_of_error h)

/-- Started in `s`, the computation ends in a state with `P`, also where it raises. -/
def Leaves (P : σ → Prop) (x : EStateM ε σ α) (s : σ) : Prop := P (x.final s)

section Leaves

variable {P : σ → Prop} {s : σ}

theorem Leaves.of_ok {x : EStateM ε σ α} {a : α} {s' : σ} (h : x.run s = .ok a s')
    (hs' : P s') : Leaves P x s := by
  rwa [Leaves, final_of_ok h]

theorem Leaves.of_error {x : EStateM ε σ α} {e : ε} {s' : σ} (h : x.run s = .error e s')
    (hs' : P s') : Leaves P x s := by
  rwa [Leaves, final_of_error h]

theorem leaves_pure (a : α) (hs : P s) : Leaves P (pure a : EStateM ε σ α) s := hs

theorem leaves_get (hs : P s) : Leaves P (get : EStateM ε σ σ) s := hs

theorem leaves_set {s' : σ} (hs' : P s') : Leaves P (set s' : EStateM ε σ PUnit) s := hs'

theorem leaves_modify {f : σ → σ} (hs : P (f s)) : Leaves P (modify f : EStateM ε σ PUnit) s := hs

theorem leaves_throw (e : ε) (hs : P s) : Leaves P (throw e : EStateM ε σ α) s := hs

/-- The second part starts where the first one ends. -/
theorem Leaves.bind {x : EStateM ε σ α} {f : α → EStateM ε σ β} (hx : Leaves P x s)
    (hf : ∀ a s', x.run s = .ok a s' → P s' → Leaves P (f a) s') : Leaves P (x >>= f) s := by
  rw [Leaves] at hx
  cases h : x.run s with
  | ok a s' =>
      rw [final_of_ok h] at hx
      rw [Leaves, final, run_bind_of_ok h]
      exact hf a s' h hx
  | error e s' =>
      rw [final_of_error h] at hx
      exact .of_error (run_bind_of_error h) hx

theorem leaves_ofExcept (x : Except ε α) (hs : P s) :
    Leaves P (ofExcept x : EStateM ε σ α) s := by
  cases x with
  | ok a => exact hs
  | error e => exact hs

theorem leaves_getOrRaise (e : ε) (v : Option α) (hs : P s) :
    Leaves P (getOrRaise e v : EStateM ε σ α) s := by
  cases v with
  | some a => exact hs
  | none => exact hs

theorem leaves_update {f : σ → Except ε σ} (hs : P s) (hf : ∀ s', f s = .ok s' → P s') :
    Leaves P (update f) s := by
  cases h : f s with
  | ok s' => exact .of_ok (run_update_of_ok h) (hf s' h)
  | error e => exact .of_error (e := e) (by simp [update, h]) hs

/-- An update that computes one part of the new state first. -/
theorem leaves_update_part {x : σ → Except ε α} {put : σ → α → σ} (hs : P s)
    (hput : ∀ a, x s = .ok a → P (put s a)) :
    Leaves P (update fun s => do let a ← x s; pure (put s a)) s := by
  refine leaves_update hs (fun s' h => ?_)
  cases hx : x s with
  | ok a =>
      rw [hx] at h
      obtain rfl := Except.ok.inj h
      exact hput a hx
  | error e =>
      rw [hx] at h
      cases h

end Leaves

end EStateM
