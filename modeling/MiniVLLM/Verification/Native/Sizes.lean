import MiniVLLM.Model.CudaGraph

/-! # The sizes of a native runtime

`mvllm_create` makes a runtime of the arguments it accepts, unless one of its products leaves
`int`. The sizes of a configuration reach it unchanged where they are `int`s. -/

namespace MiniVLLM

open NativeInts

/-- `ctypes` converts no size of the configuration to another one. -/
structure EngineConfig.FitsInt (config : EngineConfig) : Prop where
  numGpuBlocks : config.numGpuBlocks < 2 ^ 31
  blockSize : config.blockSize < 2 ^ 31
  maxNumSeqs : config.maxNumSeqs < 2 ^ 31
  maxModelLen : config.maxModelLen < 2 ^ 31

namespace NativeRuntime

variable {args : CreateArgs} {sizes : NativeRuntime}

/-- The sizes of the runtime that a tuple of arguments makes. -/
structure MadeFrom (args : CreateArgs) (sizes : NativeRuntime) : Prop where
  accepted : args.Accepted
  numBlocks : (sizes.numBlocks : ℤ) = args.numBlocks
  blockSize : (sizes.blockSize : ℤ) = args.blockSize
  maxNumSeqs : (sizes.graphCapacityRequests : ℤ) = args.maxNumSeqs
  modelLen : args.maxModelLen + args.blockSize < 2 ^ 31
  graphMaxBlocks : sizes.graphMaxBlocks =
    (args.maxModelLen.toNat + sizes.blockSize - 1) / sizes.blockSize
  physicalCacheSlots : sizes.physicalCacheSlots = sizes.numBlocks * sizes.blockSize

theorem madeFrom_of_create (h : create args = some sizes) : MadeFrom args sizes := by
  rw [create] at h
  split at h
  · rename_i haccepted
    obtain ⟨graphMaxBlocks, hgraph, h⟩ := Option.bind_eq_some_iff.mp h
    obtain ⟨physicalCacheSlots, hphysical, h⟩ := Option.bind_eq_some_iff.mp h
    obtain rfl := Option.some.inj h
    obtain ⟨deviceIndex, numBlocks, blockSize, headDim, maxNumSeqs, maxModelLen⟩ := args
    have hpos := haccepted
    simp only [CreateArgs.Accepted, not_or, not_lt, not_le] at hpos
    obtain ⟨_, hblocks, hsize, _, hseqs, hlen⟩ := hpos
    lift numBlocks to ℕ using hblocks.le
    lift blockSize to ℕ using hsize.le
    lift maxNumSeqs to ℕ using hseqs.le
    lift maxModelLen to ℕ using hlen.le
    have hfits : maxModelLen + blockSize < 2 ^ 31 := by
      by_contra hle
      exact nomatch (CInt.ceilDiv_natCast_eq_none (Nat.le_of_not_lt hle)).symm.trans hgraph
    have hceil := (CInt.ceilDiv_natCast hfits (by omega)).symm.trans hgraph
    have hmodelLen : (maxModelLen : ℤ) + blockSize < 2 ^ 31 := by exact_mod_cast hfits
    refine ⟨haccepted, rfl, rfl, rfl, hmodelLen, ?_, ?_⟩
    · obtain rfl := Option.some.inj hceil
      rfl
    · obtain ⟨rfl, _, _⟩ := CInt.of_value hphysical
      simp [Int.toNat_mul]
  · cases h

namespace MadeFrom

theorem blockSize_pos (h : MadeFrom args sizes) : 0 < sizes.blockSize := by
  have haccepted := h.accepted
  have hsize := h.blockSize
  rw [CreateArgs.Accepted] at haccepted
  omega

end MadeFrom

def ofConfig (config : EngineConfig) : NativeRuntime where
  numBlocks := config.numGpuBlocks
  blockSize := config.blockSize
  graphCapacityRequests := config.maxNumSeqs
  graphMaxBlocks := (config.maxModelLen + config.blockSize - 1) / config.blockSize
  physicalCacheSlots := config.numGpuBlocks * config.blockSize

theorem eq_ofConfig {config : EngineConfig} {headDim : ℕ} (hfits : config.FitsInt)
    (h : create (CudaKernelRuntime.createArgs config headDim) = some sizes) :
    sizes = ofConfig config := by
  have hmade := madeFrom_of_create h
  have hnumBlocks := hmade.numBlocks
  have hblockSize := hmade.blockSize
  have hmaxNumSeqs := hmade.maxNumSeqs
  have hmaxBlocks := hmade.graphMaxBlocks
  have hphysical := hmade.physicalCacheSlots
  simp only [CudaKernelRuntime.createArgs, CInt.wrap_natCast hfits.numGpuBlocks,
    CInt.wrap_natCast hfits.blockSize, CInt.wrap_natCast hfits.maxNumSeqs,
    CInt.wrap_natCast hfits.maxModelLen, Nat.cast_inj, Int.toNat_natCast] at *
  obtain ⟨numBlocks, blockSize, graphCapacityRequests, graphMaxBlocks, physicalCacheSlots⟩ := sizes
  dsimp only at *
  subst hnumBlocks hblockSize hmaxNumSeqs hmaxBlocks hphysical
  rfl

/-- No `int` overflows on the way of a call: the caches have at most `2 ^ 31` cells, and the
blocks of `append_kernel` and the entries of the static block tables are counted in `int`. -/
structure Fits (sizes : NativeRuntime) (headDim : ℕ) : Prop where
  cells : (sizes.numBlocks * sizes.blockSize + sizes.graphCapacityRequests) * headDim ≤ 2 ^ 31
  blocks : sizes.graphCapacityRequests * headDim + 256 < 2 ^ 31
  tables : sizes.graphCapacityRequests * sizes.graphMaxBlocks < 2 ^ 31

/-- The sizes of a runtime on which no `int` overflows. -/
structure Ready (sizes : NativeRuntime) (headDim : ℕ) : Prop extends Fits sizes headDim where
  headDim_pos : 0 < headDim
  blockSize_pos : 0 < sizes.blockSize
  physical_eq : sizes.physicalCacheSlots = sizes.numBlocks * sizes.blockSize

namespace Ready

variable {headDim count : ℕ}

theorem capacity_le (h : Ready sizes headDim) :
    (sizes.physicalCacheSlots + sizes.graphCapacityRequests) * headDim ≤ 2 ^ 31 :=
  h.physical_eq.symm ▸ h.cells

theorem slots_le (h : Ready sizes headDim) :
    sizes.physicalCacheSlots + sizes.graphCapacityRequests ≤ 2 ^ 31 :=
  (Nat.le_mul_of_pos_right _ h.headDim_pos).trans h.capacity_le

theorem count_lt (h : Ready sizes headDim) (hcount : count ≤ sizes.graphCapacityRequests) :
    count * headDim + 256 < 2 ^ 31 :=
  (Nat.add_le_add_right (Nat.mul_le_mul_right headDim hcount) 256).trans_lt h.blocks

theorem capacity_lt (h : Ready sizes headDim) : sizes.graphCapacityRequests + 256 < 2 ^ 31 :=
  (Nat.add_le_add_right (Nat.le_mul_of_pos_right _ h.headDim_pos) 256).trans_lt h.blocks

end Ready

end NativeRuntime

end MiniVLLM
