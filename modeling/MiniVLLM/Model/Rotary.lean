import Mathlib
import MiniVLLM.Model.Protocol

/-! # Rotary embedding

Over the real numbers. A tensor is a list with one entry for each token, an entry holds one
row for each head. -/

namespace MiniVLLM

namespace Rotary

/-- `values.chunk(2)`: of an odd number of values, the first chunk has one more. -/
def chunk (values : List ℝ) : List ℝ × List ℝ :=
  values.splitAt ((values.length + 1) / 2)

/-- `_rotate_half`. -/
def rotateHalf (values : List ℝ) : List ℝ :=
  (chunk values).2.map (fun value => -value) ++ (chunk values).1

/-- `torch.arange(0, stop, 2)`. -/
def arangeEven (stop : ℕ) : List ℕ := (List.range ((stop + 1) / 2)).map (fun i => 2 * i)

noncomputable def invFreq (theta : ℝ) (headDim : ℕ) : List ℝ :=
  (arangeEven headDim).map fun i : ℕ => 1 / theta ^ ((i : ℝ) / headDim)

/-- The row of `embedding` at a position. -/
noncomputable def embedding (theta : ℝ) (headDim : ℕ) (position : ℤ) : List ℝ :=
  let frequencies := (invFreq theta headDim).map fun freq => (position : ℝ) * freq
  frequencies ++ frequencies

/-- `values * cos + _rotate_half(values) * sin` for a row. -/
noncomputable def rotate (embedding values : List ℝ) : List ℝ :=
  List.zipWith (· + ·) (List.zipWith (· * ·) values (embedding.map Real.cos))
    (List.zipWith (· * ·) (rotateHalf values) (embedding.map Real.sin))

/-- The same for the heads of every token. -/
noncomputable def rotateTokens (theta : ℝ) (headDim : ℕ) (tokens : List (List (List ℝ)))
    (positions : List ℤ) : List (List (List ℝ)) :=
  List.zipWith (fun heads position => heads.map (rotate (embedding theta headDim position)))
    tokens positions

/-- `apply_rotary_embedding`, where `head_dim` is the last entry of the shape of `query`. -/
noncomputable def applyRotaryEmbedding (headDim : ℕ) (query key : List (List (List ℝ)))
    (positions : List ℤ) (theta : ℝ) :
    Except PyError (List (List (List ℝ)) × List (List (List ℝ))) :=
  if headDim % 2 ≠ 0 then
    .error (.valueError "rotary head dimension must be even")
  else
    .ok (rotateTokens theta headDim query positions, rotateTokens theta headDim key positions)

end Rotary

end MiniVLLM
