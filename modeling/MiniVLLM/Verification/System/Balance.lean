import MiniVLLM.Library.Balance
import MiniVLLM.Verification.System.Loads

/-! # How well the coordinator balances

Every ADD goes to a rank with the smallest load, and finished outputs take loads away in any order.
So the greatest load that a rank ever has is what the greatest number of outstanding requests
comes to when it is spread evenly. -/

namespace MiniVLLM

namespace System

section Steps

variable {config : EngineConfig} {promptTokenizer : PromptTokenizer} {tokenizer : Tokenizer}
  {s s' : System} {event : Event} {out : List Observation}

/-- One step forwards at most one ADD, to the rank chosen for it. -/
theorem StepDerivation.forwards
    (h : StepDerivation config promptTokenizer tokenizer s event out s') :
    (∀ rank, out.countP (forwardsAdd rank) = 0) ∨
      ∃ command, isAdd command.value = true ∧
        out = [.forwarded (s.coordinator.leastLoaded config) command] := by
  cases h with
  | quietCall => exact Or.inl fun _ => rfl
  | sendingCall => exact Or.inl fun _ => rfl
  | @forward command commands coordinator target _ _ _ hhandle =>
      cases hvalue : command.value with
      | add request =>
          rw [hvalue] at hhandle
          obtain ⟨_, hrank⟩ := Prod.mk.inj hhandle
          obtain rfl := Option.some.inj hrank
          exact Or.inr ⟨command, by rw [hvalue]; rfl, rfl⟩
      | abort id =>
          left
          intro rank
          simp [forwardsAdd, hvalue, isAdd]
      | shutdown =>
          rw [hvalue] at hhandle
          cases hhandle
  | keepBack => exact Or.inl fun _ => rfl
  | drain => exact Or.inl fun _ => rfl
  | coordinatorLeave => exact Or.inl fun _ => rfl
  | core => exact Or.inl fun rank => forwardsAdd_sent _ _
  | route => exact Or.inl fun rank => forwardsAdd_deliveries _ _

theorem outstanding_append_singleton (rank : ℕ) (τs : List SystemTransition) (τ : SystemTransition) :
    outstanding rank (τs ++ [τ]) = outstanding rank τs + τ.out.countP (forwardsAdd rank) -
      τ.out.countP (drainsFinished rank) := by
  simp only [outstanding, addsForwarded, finishedDrained, Run.outputs_append, Run.outputs_singleton,
    List.countP_append]
  omega

end Steps

section Runs

variable {config : EngineConfig} {promptTokenizer : PromptTokenizer} {tokenizer : Tokenizer}
  {τs : List SystemTransition} {s : System}

/-- A step is a move of the outstanding loads. -/
theorem SystemRun.moves (h : SystemRun config promptTokenizer tokenizer τs s)
    {front : List SystemTransition} {τ : SystemTransition} (hfront : front ++ [τ] <+: τs) :
    Balance.Moves (Finset.range config.dataParallelSize) (fun rank => outstanding rank front)
      (fun rank => outstanding rank (front ++ [τ])) := by
  obtain ⟨back, rfl⟩ := hfront
  obtain ⟨hfront, hstep⟩ := h.of_split (List.append_assoc front [τ] back)
  have hloads := fun rank => SystemRun.rankLoad_eq hfront rank
  obtain hnone | ⟨command, hadd, hout⟩ := (SystemRun.derivation hfront hstep).forwards
  · refine .shrink fun rank _ => ?_
    rw [outstanding_append_singleton, hnone rank]
    omega
  · obtain ⟨hrank, hleast⟩ := leastLoaded_spec config τ.pre.coordinator
    refine .place (τ.pre.coordinator.leastLoaded config) (Finset.mem_range.mpr hrank)
      (fun other hother => ?_) ?_ (fun other _ hother => ?_)
    · have hle := hleast other (Finset.mem_range.mp hother)
      rw [hloads, hloads] at hle
      exact hle
    · rw [outstanding_append_singleton, hout]
      simp [forwardsAdd, drainsFinished, hadd]
    · rw [outstanding_append_singleton, hout]
      simp [forwardsAdd, drainsFinished, Ne.symm hother]

end Runs

def totalOutstanding (config : EngineConfig) (τs : List SystemTransition) : ℤ :=
  ∑ rank ∈ Finset.range config.dataParallelSize, outstanding rank τs

/-- In every run, the greatest load that any rank ever had is the greatest number of outstanding
requests that there ever were, divided by the number of ranks and rounded up. -/
theorem loads_balanced {config : EngineConfig} {promptTokenizer : PromptTokenizer}
    {tokenizer : Tokenizer} {τs : List SystemTransition} {s : System}
    (h : SystemRun config promptTokenizer tokenizer τs s) :
    ∃ peak, IsGreatest {total | ∃ front, front <+: τs ∧ totalOutstanding config front = total} peak ∧
      IsGreatest {load | ∃ rank < config.dataParallelSize, ∃ front, front <+: τs ∧
        outstanding rank front = load} ⌈(peak : ℚ) / config.dataParallelSize⌉ := by
  obtain ⟨peak, hpeak⟩ := Balance.exists_isGreatest_seen (totalOutstanding config) τs
  have hranks : (Finset.range config.dataParallelSize).Nonempty :=
    ⟨0, Finset.mem_range.mpr config.dataParallelSize_pos⟩
  have hgreatest := Balance.isGreatest_load hranks (fun _ _ => rfl)
    (fun front τ hfront => SystemRun.moves h hfront) hpeak
  rw [Finset.card_range] at hgreatest
  refine ⟨peak, hpeak, ?_⟩
  simpa only [Balance.Seen, Finset.mem_range, Set.mem_ofPred_eq] using hgreatest

theorem loads_balanced_two_ranks : ∃ τs s peak,
    SystemRun twoRanks (.ofTokenizer characterTokenizer) characterTokenizer τs s ∧
      (addsForwarded 0 τs, addsForwarded 1 τs) = (1, 2) ∧
      IsGreatest {total | ∃ front, front <+: τs ∧ totalOutstanding twoRanks front = total} peak ∧
      IsGreatest {load | ∃ rank < twoRanks.dataParallelSize, ∃ front, front <+: τs ∧
        outstanding rank front = load} ⌈(peak : ℚ) / twoRanks.dataParallelSize⌉ := by
  have hsome : (drive twoRanks characterTokenizer balancedEvents).map
      (fun run => (addsForwarded 0 run.1, addsForwarded 1 run.1)) = some (1, 2) := by decide +kernel
  obtain ⟨⟨τs, s⟩, hdrive, hcounts⟩ := Option.map_eq_some_iff.mp hsome
  have hrun := drive_run hdrive (by decide)
  obtain ⟨peak, hgreatest⟩ := loads_balanced hrun
  exact ⟨τs, s, peak, hrun, hcounts, hgreatest⟩

end System

end MiniVLLM
