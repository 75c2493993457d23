import Mathlib

/-! # Runs of labelled transition systems

A system is a relation `Step s e o s'`: in state `s` the event `e` may happen, it reports
the observations `o`, and it leaves the state `s'`. A run keeps its whole history. -/

/-- The ways to split a list that grew by one entry. -/
theorem List.append_singleton_eq_append_cons_iff {α : Type*} {l front back : List α} {a b : α} :
    l ++ [a] = front ++ b :: back ↔
      (l = front ∧ a = b ∧ back = []) ∨ ∃ mid, back = mid ++ [a] ∧ l = front ++ b :: mid := by
  constructor
  · intro hsplit
    rcases List.eq_nil_or_concat back with rfl | ⟨mid, last, rfl⟩
    · obtain ⟨hfront, hlast⟩ := List.append_inj' hsplit rfl
      exact Or.inl ⟨hfront, List.singleton_inj.mp hlast, rfl⟩
    · have hsplit' : l ++ [a] = (front ++ b :: mid) ++ [last] := by simpa using hsplit
      obtain ⟨hfront, hlast⟩ := List.append_inj' hsplit' rfl
      obtain rfl := List.singleton_inj.mp hlast
      exact Or.inr ⟨mid, by simp, hfront⟩
  · rintro (⟨rfl, rfl, rfl⟩ | ⟨mid, rfl, rfl⟩)
    · rfl
    · simp

/-- Some entry opens, and no later entry closes. -/
def List.OpenSince {α : Type*} (opens closes : α → Prop) (l : List α) : Prop :=
  ∃ front a back, l = front ++ a :: back ∧ opens a ∧ ∀ b ∈ back, ¬ closes b

theorem List.not_openSince_nil {α : Type*} {opens closes : α → Prop} :
    ¬ [].OpenSince opens closes := by
  rintro ⟨front, a, back, hsplit, _⟩
  simp at hsplit

theorem List.openSince_append_singleton {α : Type*} {opens closes : α → Prop} {l : List α} {a : α} :
    (l ++ [a]).OpenSince opens closes ↔ opens a ∨ (l.OpenSince opens closes ∧ ¬ closes a) := by
  constructor
  · rintro ⟨front, b, back, hsplit, hopens, hback⟩
    rcases List.append_singleton_eq_append_cons_iff.mp hsplit with
      ⟨_, rfl, _⟩ | ⟨mid, rfl, hfront⟩
    · exact Or.inl hopens
    · exact Or.inr ⟨⟨front, b, mid, hfront, hopens,
        fun c hc => hback c (List.mem_append_left _ hc)⟩, hback a (by simp)⟩
  · rintro (hopens | ⟨⟨front, b, back, rfl, hopens, hback⟩, hcloses⟩)
    · exact ⟨l, a, [], rfl, hopens, by simp⟩
    · refine ⟨front, b, back ++ [a], by simp, hopens, ?_⟩
      intro c hc
      rcases List.mem_append.mp hc with hc | hc
      · exact hback c hc
      · rw [List.mem_singleton.mp hc]
        exact hcloses

/-- One step of a run, with the states around it. -/
structure Transition (σ ε ο : Type*) where
  pre : σ
  event : ε
  out : List ο
  post : σ

/-- A transition with both states seen through a function. -/
def Transition.map {σ σ' ε ο : Type*} (f : σ → σ') (τ : Transition σ ε ο) : Transition σ' ε ο :=
  ⟨f τ.pre, τ.event, τ.out, f τ.post⟩

/-- `Run Step s₀ τs s`: the transitions `τs`, oldest first, lead from `s₀` to `s`. -/
inductive Run {σ ε ο : Type*} (Step : σ → ε → List ο → σ → Prop) (s₀ : σ) :
    List (Transition σ ε ο) → σ → Prop where
  | nil : Run Step s₀ [] s₀
  | snoc {τs s e o s'} : Run Step s₀ τs s → Step s e o s' →
      Run Step s₀ (τs ++ [⟨s, e, o, s'⟩]) s'

namespace Run

variable {σ ε ο : Type*} {Step : σ → ε → List ο → σ → Prop} {s₀ : σ}

/-- Everything a run has reported, oldest first. -/
def outputs (τs : List (Transition σ ε ο)) : List ο := τs.flatMap Transition.out

@[simp] theorem outputs_nil : outputs ([] : List (Transition σ ε ο)) = [] := rfl

@[simp] theorem outputs_append (τs τs' : List (Transition σ ε ο)) :
    outputs (τs ++ τs') = outputs τs ++ outputs τs' := by
  simp [outputs]

@[simp] theorem outputs_singleton (τ : Transition σ ε ο) : outputs [τ] = τ.out := by
  simp [outputs]

/-- What holds first and survives every step holds after every run. -/
theorem invariant {I : σ → Prop} {τs : List (Transition σ ε ο)} {s : σ}
    (h : Run Step s₀ τs s) (hinit : I s₀)
    (hstep : ∀ s e o s', I s → Step s e o s' → I s') : I s := by
  induction h with
  | nil => exact hinit
  | snoc _ hs ih => exact hstep _ _ _ _ ih hs

/-- The same rule for properties that speak about the history too. -/
theorem invariant_history {I : List (Transition σ ε ο) → σ → Prop}
    {τs : List (Transition σ ε ο)} {s : σ} (h : Run Step s₀ τs s) (hinit : I [] s₀)
    (hstep : ∀ τs s e o s', Run Step s₀ τs s → I τs s → Step s e o s' →
      I (τs ++ [⟨s, e, o, s'⟩]) s') : I τs s := by
  induction h with
  | nil => exact hinit
  | snoc hr hs ih => exact hstep _ _ _ _ _ hr ih hs

/-- A transition of a run starts where the run before it ends. -/
theorem of_split {τs : List (Transition σ ε ο)} {s : σ} (h : Run Step s₀ τs s)
    {front back : List (Transition σ ε ο)} {τ : Transition σ ε ο}
    (hsplit : τs = front ++ τ :: back) :
    Run Step s₀ front τ.pre ∧ Step τ.pre τ.event τ.out τ.post := by
  induction h generalizing front τ back with
  | nil => simp at hsplit
  | snoc hr hs ih =>
      rcases List.append_singleton_eq_append_cons_iff.mp hsplit with ⟨rfl, rfl, _⟩ | ⟨mid, _, hmid⟩
      · exact ⟨hr, hs⟩
      · exact ih hmid

/-- Every transition of a run starts after a shorter run and is a step. -/
theorem transition_mem {τs : List (Transition σ ε ο)} {s : σ} (h : Run Step s₀ τs s)
    {τ : Transition σ ε ο} (hτ : τ ∈ τs) :
    (∃ τs', Run Step s₀ τs' τ.pre) ∧ Step τ.pre τ.event τ.out τ.post := by
  obtain ⟨front, back, hsplit⟩ := List.append_of_mem hτ
  obtain ⟨hr, hs⟩ := h.of_split hsplit
  exact ⟨⟨front, hr⟩, hs⟩

/-- A run of a system is a run of every system that allows its steps. -/
theorem mono {Step' : σ → ε → List ο → σ → Prop} {τs : List (Transition σ ε ο)} {s : σ}
    (h : Run Step s₀ τs s) (hle : ∀ s e o s', Step s e o s' → Step' s e o s') :
    Run Step' s₀ τs s := by
  induction h with
  | nil => exact .nil
  | snoc _ hs ih => exact .snoc ih (hle _ _ _ _ hs)

/-- The same, where the steps are compared only in states that satisfy an invariant. -/
theorem mono_of_invariant {Step' : σ → ε → List ο → σ → Prop} {I : σ → Prop}
    {τs : List (Transition σ ε ο)} {s : σ} (h : Run Step s₀ τs s) (hinit : I s₀)
    (hstep : ∀ s e o s', I s → Step s e o s' → I s')
    (hle : ∀ s e o s', I s → Step s e o s' → Step' s e o s') : Run Step' s₀ τs s := by
  induction h with
  | nil => exact .nil
  | snoc hr hs ih => exact .snoc ih (hle _ _ _ _ (hr.invariant hinit hstep) hs)

/-- Runs compose. -/
theorem append {τs τs' : List (Transition σ ε ο)} {s s' : σ} (h : Run Step s₀ τs s)
    (h' : Run Step s τs' s') : Run Step s₀ (τs ++ τs') s' := by
  induction h' with
  | nil => rwa [List.append_nil]
  | snoc _ hs ih =>
      rw [← List.append_assoc]
      exact .snoc ih hs

/-- A run seen through a function of the states. -/
theorem map {σ' : Type*} {Step' : σ' → ε → List ο → σ' → Prop} (f : σ → σ')
    {τs : List (Transition σ ε ο)} {s : σ} (h : Run Step s₀ τs s)
    (hstep : ∀ s e o s', Step s e o s' → Step' (f s) e o (f s')) :
    Run Step' (f s₀) (τs.map (Transition.map f)) (f s) := by
  induction h with
  | nil => exact .nil
  | snoc _ hs ih =>
      rw [List.map_append]
      exact .snoc ih (hstep _ _ _ _ hs)

/-- The run that a list of events drives, if each of them can happen. -/
def execute (step : σ → ε → Option (σ × List ο)) (s : σ) :
    List ε → Option (List (Transition σ ε ο) × σ)
  | [] => some ([], s)
  | e :: es =>
      match step s e with
      | none => none
      | some (s', o) => (execute step s' es).map fun (τs, t) => (⟨s, e, o, s'⟩ :: τs, t)

theorem execute_events {step : σ → ε → Option (σ × List ο)} {es : List ε} {s s' : σ}
    {τs : List (Transition σ ε ο)} (h : execute step s es = some (τs, s')) :
    τs.map Transition.event = es := by
  induction es generalizing s τs with
  | nil =>
      obtain ⟨rfl, rfl⟩ := Prod.mk.inj (Option.some.inj h)
      rfl
  | cons e es ih =>
      unfold execute at h
      split at h
      · simp at h
      · obtain ⟨⟨τs', t'⟩, hrest, heq⟩ := Option.map_eq_some_iff.mp h
        obtain ⟨rfl, rfl⟩ := Prod.mk.inj heq
        rw [List.map_cons, ih hrest]

theorem of_execute {step : σ → ε → Option (σ × List ο)} {es : List ε} {s s' : σ}
    {τs : List (Transition σ ε ο)} (h : execute step s es = some (τs, s'))
    (hstep : ∀ τ ∈ τs, step τ.pre τ.event = some (τ.post, τ.out) →
      Step τ.pre τ.event τ.out τ.post) : Run Step s τs s' := by
  induction es generalizing s τs with
  | nil =>
      obtain ⟨rfl, rfl⟩ := Prod.mk.inj (Option.some.inj h)
      exact .nil
  | cons e es ih =>
      unfold execute at h
      split at h
      · simp at h
      · rename_i t o hse
        obtain ⟨⟨τs', t'⟩, hrest, heq⟩ := Option.map_eq_some_iff.mp h
        obtain ⟨rfl, rfl⟩ := Prod.mk.inj heq
        have hfirst : Run Step s [⟨s, e, o, t⟩] t :=
          .snoc .nil (hstep ⟨s, e, o, t⟩ (by simp) hse)
        exact hfirst.append (ih hrest (fun τ hτ => hstep τ (List.mem_cons_of_mem _ hτ)))

/-- The same, where the steps are compared only for events of a kind and in states that satisfy an
invariant. -/
theorem of_execute_of_invariant {step : σ → ε → Option (σ × List ο)} {I : σ → Prop} {Q : ε → Prop}
    {es : List ε} {s s' : σ} {τs : List (Transition σ ε ο)}
    (h : execute step s es = some (τs, s')) (hevents : ∀ e ∈ es, Q e) (hinit : I s)
    (hstep : ∀ s e o s', I s → Step s e o s' → I s')
    (hle : ∀ s e o s', I s → Q e → step s e = some (s', o) → Step s e o s') :
    Run Step s τs s' := by
  have hrun : Run (fun s e o s' => Q e ∧ step s e = some (s', o)) s τs s' := by
    refine of_execute h (fun τ hτ hnext => ⟨hevents _ ?_, hnext⟩)
    rw [← execute_events h]
    exact List.mem_map.mpr ⟨τ, hτ, rfl⟩
  refine hrun.mono_of_invariant hinit ?_ fun s e o s' hinv hnext =>
    hle s e o s' hinv hnext.1 hnext.2
  exact fun s e o s' hinv hnext => hstep s e o s' hinv (hle s e o s' hinv hnext.1 hnext.2)

end Run
