import MiniVLLM.Model.Protocol

/-! # The data-parallel coordinator

Load balancing over the ranks. The loads are integers, as in the source, so that the clamp at
zero could act. -/

namespace MiniVLLM

structure DPCoordinator where
  requestRanks : Dict RequestId ℕ := .empty
  rankLoad : ℕ → ℤ := fun _ => 0
  shutdown : Bool := false
  stopped : Bool := false

namespace DPCoordinator

/-- `min(range(data_parallel_size), key=self.rank_load.__getitem__)`: the first rank of the
smallest load. -/
def leastLoaded (config : EngineConfig) (coordinator : DPCoordinator) : ℕ :=
  let ranks := List.range config.dataParallelSize
  (ranks.find? fun rank =>
    ranks.all fun other => coordinator.rankLoad rank ≤ coordinator.rankLoad other).getD 0

/-- The coordinator after a command, and the rank the command is forwarded to. -/
def handleCommand (config : EngineConfig) (coordinator : DPCoordinator) :
    EngineCommand → DPCoordinator × Option ℕ
  | .shutdown => ({ coordinator with shutdown := true }, none)
  | .add request =>
      let rank := coordinator.leastLoaded config
      ({ coordinator with
          requestRanks := coordinator.requestRanks.set request.requestId rank
          rankLoad := Function.update coordinator.rankLoad rank (coordinator.rankLoad rank + 1) },
        some rank)
  | .abort requestId => (coordinator, coordinator.requestRanks.get? requestId)

/-- The books after an output of a rank was passed on. -/
def drainOutput (coordinator : DPCoordinator) (rank : ℕ) : OutputEvent → DPCoordinator
  | .metrics _ => coordinator
  | .output output =>
      if output.finished then
        { coordinator with
          requestRanks := coordinator.requestRanks.erase output.requestId
          rankLoad := Function.update coordinator.rankLoad rank
            (max 0 (coordinator.rankLoad rank - 1)) }
      else coordinator

end DPCoordinator

end MiniVLLM
