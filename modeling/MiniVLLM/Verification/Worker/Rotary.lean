import MiniVLLM.Model.Rotary

/-! # Rotary embedding and relative positions

Coordinate `i` turns together with coordinate `i + head_dim / 2`, in a plane of their own. The
product of two vectors turned by different angles depends on the difference of the angles. -/

namespace MiniVLLM

namespace Rotary

def dot (q k : List ℝ) : ℝ := (List.zipWith (· * ·) q k).sum

theorem dot_append {q q' k k' : List ℝ} (h : q.length = k.length) :
    dot (q ++ q') (k ++ k') = dot q k + dot q' k' := by
  rw [dot, List.zipWith_append h, List.sum_append]
  rfl

/-! ## Halves -/

theorem chunk_append {first second : List ℝ} (h : first.length = second.length) :
    chunk (first ++ second) = (first, second) := by
  have hhalf : (first ++ second).length + 1 = 2 * first.length + 1 := by
    rw [List.length_append]
    omega
  have hcut : ((first ++ second).length + 1) / 2 = first.length := by omega
  rw [chunk, hcut, List.splitAt_eq, List.take_left, List.drop_left]

/-- One half of a rotated row: `xs * cos + ys * sin`. -/
noncomputable def turned (angles xs ys : List ℝ) : List ℝ :=
  List.zipWith (· + ·) (List.zipWith (· * ·) xs (angles.map Real.cos))
    (List.zipWith (· * ·) ys (angles.map Real.sin))

theorem turned_cons (angle x y : ℝ) (angles xs ys : List ℝ) :
    turned (angle :: angles) (x :: xs) (y :: ys) =
      (x * Real.cos angle + y * Real.sin angle) :: turned angles xs ys := rfl

theorem length_turned {angles xs ys : List ℝ} (hx : xs.length = angles.length)
    (hy : ys.length = angles.length) : (turned angles xs ys).length = angles.length := by
  simp [turned, hx, hy]

theorem rotate_append {angles first second : List ℝ} (hfirst : first.length = angles.length)
    (hsecond : second.length = angles.length) :
    rotate (angles ++ angles) (first ++ second) =
      turned angles first (second.map fun value => -value) ++ turned angles second first := by
  have hneg : (second.map fun value => -value).length = angles.length := by simpa using hsecond
  rw [rotate, rotateHalf, chunk_append (hfirst.trans hsecond.symm), List.map_append,
    List.map_append, List.zipWith_append (by simpa using hfirst),
    List.zipWith_append (by simpa using hsecond), List.zipWith_append (by simp [hfirst, hsecond])]
  rfl

/-! ## Planes -/

/-- The sum over the planes, with the angle between the two vectors' turns. -/
noncomputable def planeSum : List ℝ → List ℝ → List ℝ → List ℝ → List ℝ → ℝ
  | angle :: angles, x :: xs, y :: ys, u :: us, v :: vs =>
      (x * u + y * v) * Real.cos angle + (x * v - y * u) * Real.sin angle +
        planeSum angles xs ys us vs
  | _, _, _, _, _ => 0

/-- Two vectors of one plane, turned by two angles. -/
theorem turned_plane (a b x y u v : ℝ) :
    (x * Real.cos a + -y * Real.sin a) * (u * Real.cos b + -v * Real.sin b) +
        (y * Real.cos a + x * Real.sin a) * (v * Real.cos b + u * Real.sin b) =
      (x * u + y * v) * Real.cos (a - b) + (x * v - y * u) * Real.sin (a - b) := by
  rw [Real.cos_sub, Real.sin_sub]
  ring

/-- The product of two turned rows is a sum over the planes. -/
theorem dot_turned {a b x y u v : List ℝ} (hb : b.length = a.length) (hx : x.length = a.length)
    (hy : y.length = a.length) (hu : u.length = a.length) (hv : v.length = a.length) :
    dot (turned a x (y.map fun value => -value)) (turned b u (v.map fun value => -value)) +
        dot (turned a y x) (turned b v u) =
      planeSum (List.zipWith (· - ·) a b) x y u v := by
  induction a generalizing b x y u v with
  | nil => simp [turned, dot, planeSum]
  | cons a₀ a ih =>
      obtain ⟨b₀, b, rfl⟩ := List.exists_cons_of_length_eq_add_one hb
      obtain ⟨x₀, x, rfl⟩ := List.exists_cons_of_length_eq_add_one hx
      obtain ⟨y₀, y, rfl⟩ := List.exists_cons_of_length_eq_add_one hy
      obtain ⟨u₀, u, rfl⟩ := List.exists_cons_of_length_eq_add_one hu
      obtain ⟨v₀, v, rfl⟩ := List.exists_cons_of_length_eq_add_one hv
      simp only [List.length_cons, Nat.add_right_cancel_iff] at hb hx hy hu hv
      have hrest := ih hb hx hy hu hv
      simp only [List.map_cons, turned_cons, dot, List.zipWith_cons_cons, List.sum_cons, planeSum]
        at hrest ⊢
      rw [← turned_plane, ← hrest]
      ring

/-- Where nothing turns, the planes add up to the product of the rows. -/
theorem planeSum_zero {angles x y u v : List ℝ} (hzero : ∀ angle ∈ angles, angle = 0)
    (hx : x.length = angles.length) (hy : y.length = angles.length)
    (hu : u.length = angles.length) (hv : v.length = angles.length) :
    planeSum angles x y u v = dot x u + dot y v := by
  induction angles generalizing x y u v with
  | nil =>
      obtain rfl := List.length_eq_zero_iff.mp hx
      obtain rfl := List.length_eq_zero_iff.mp hy
      simp [planeSum, dot]
  | cons angle angles ih =>
      obtain ⟨x₀, x, rfl⟩ := List.exists_cons_of_length_eq_add_one hx
      obtain ⟨y₀, y, rfl⟩ := List.exists_cons_of_length_eq_add_one hy
      obtain ⟨u₀, u, rfl⟩ := List.exists_cons_of_length_eq_add_one hu
      obtain ⟨v₀, v, rfl⟩ := List.exists_cons_of_length_eq_add_one hv
      simp only [List.length_cons, Nat.add_right_cancel_iff] at hx hy hu hv
      have hrest := ih (fun a ha => hzero a (List.mem_cons_of_mem _ ha)) hx hy hu hv
      obtain rfl := hzero angle (by simp)
      simp only [dot, List.zipWith_cons_cons, List.sum_cons, planeSum, Real.cos_zero,
        Real.sin_zero] at hrest ⊢
      rw [hrest]
      ring

/-! ## Rows -/

section Rows

variable {theta : ℝ} {headDim : ℕ} {q k : List ℝ}

/-- The angles of a position, one for each plane. -/
noncomputable def angles (theta : ℝ) (headDim : ℕ) (position : ℤ) : List ℝ :=
  (invFreq theta headDim).map fun freq => (position : ℝ) * freq

theorem embedding_eq (theta : ℝ) (headDim : ℕ) (position : ℤ) :
    embedding theta headDim position = angles theta headDim position ++
      angles theta headDim position := rfl

theorem length_angles {half : ℕ} (hhalf : headDim = half + half) (position : ℤ) :
    (angles theta headDim position).length = half := by
  simp only [angles, invFreq, arangeEven, List.length_map, List.length_range]
  omega

theorem angles_sub (m n : ℤ) :
    List.zipWith (· - ·) (angles theta headDim m) (angles theta headDim n) =
      angles theta headDim (m - n) := by
  rw [angles, angles, List.zipWith_map, List.zipWith_self, angles]
  apply List.map_congr_left
  intro freq _
  push_cast
  ring

theorem dot_rotate (heven : headDim % 2 = 0) (hq : q.length = headDim) (hk : k.length = headDim)
    (m n : ℤ) :
    dot (rotate (embedding theta headDim m) q) (rotate (embedding theta headDim n) k) =
      planeSum (angles theta headDim (m - n)) (q.take (headDim / 2)) (q.drop (headDim / 2))
        (k.take (headDim / 2)) (k.drop (headDim / 2)) := by
  have hhalf : headDim = headDim / 2 + headDim / 2 := by omega
  have hlen : ∀ position, (angles theta headDim position).length = headDim / 2 :=
    fun position => length_angles hhalf position
  have hfirst : ∀ {row : List ℝ}, row.length = headDim → (row.take (headDim / 2)).length =
      headDim / 2 := by
    intro row hrow
    rw [List.length_take]
    omega
  have hsecond : ∀ {row : List ℝ}, row.length = headDim → (row.drop (headDim / 2)).length =
      headDim / 2 := by
    intro row hrow
    rw [List.length_drop]
    omega
  have hrotate : ∀ {row : List ℝ}, row.length = headDim → ∀ position,
      rotate (embedding theta headDim position) row =
        turned (angles theta headDim position) (row.take (headDim / 2))
            ((row.drop (headDim / 2)).map fun value => -value) ++
          turned (angles theta headDim position) (row.drop (headDim / 2))
            (row.take (headDim / 2)) := by
    intro row hrow position
    conv_lhs => rw [← List.take_append_drop (headDim / 2) row]
    rw [embedding_eq, rotate_append ((hfirst hrow).trans (hlen _).symm)
      ((hsecond hrow).trans (hlen _).symm)]
  rw [hrotate hq m, hrotate hk n, dot_append, dot_turned, angles_sub]
  all_goals simp only [length_turned, List.length_map, hlen, hfirst hq, hfirst hk, hsecond hq,
    hsecond hk]

/-- The product of rotated rows is unchanged when both positions shift. -/
theorem dot_rotate_shift (heven : headDim % 2 = 0) (hq : q.length = headDim)
    (hk : k.length = headDim) (m n s : ℤ) :
    dot (rotate (embedding theta headDim m) q) (rotate (embedding theta headDim n) k) =
      dot (rotate (embedding theta headDim (m + s)) q)
        (rotate (embedding theta headDim (n + s)) k) := by
  rw [dot_rotate heven hq hk, dot_rotate heven hq hk]
  congr 2
  ring

/-- At one position the rotation does not show in the product. -/
theorem dot_rotate_self (heven : headDim % 2 = 0) (hq : q.length = headDim)
    (hk : k.length = headDim) (m : ℤ) :
    dot (rotate (embedding theta headDim m) q) (rotate (embedding theta headDim m) k) =
      dot q k := by
  have hhalf : headDim = headDim / 2 + headDim / 2 := by omega
  rw [dot_rotate heven hq hk, sub_self, planeSum_zero]
  · rw [← dot_append (by rw [List.length_take, List.length_take, hq, hk]),
      List.take_append_drop, List.take_append_drop]
  · intro angle hangle
    obtain ⟨freq, _, rfl⟩ := List.mem_map.mp hangle
    simp
  all_goals
    rw [length_angles hhalf]
    simp only [List.length_take, List.length_drop]
    omega

end Rows

/-! ## Tensors -/

/-- One entry for each token, with rows of one width. -/
structure HasShape (tensor : List (List (List ℝ))) (tokens headDim : ℕ) : Prop where
  tokens_eq : tensor.length = tokens
  row_length : ∀ heads ∈ tensor, ∀ row ∈ heads, row.length = headDim

def row (tensor : List (List (List ℝ))) (token head : ℕ) : Option (List ℝ) :=
  tensor[token]?.bind fun heads => heads[head]?

/-- The product of a query head of one token with a key head of another, before scaling. -/
def score (query key : List (List (List ℝ))) (token head keyToken keyHead : ℕ) : Option ℝ :=
  (row query token head).bind fun q => (row key keyToken keyHead).map fun k => dot q k

section Tensors

variable {theta : ℝ} {headDim : ℕ} {query key tensor : List (List (List ℝ))} {positions : List ℤ}

theorem HasShape.row_length_eq (h : HasShape tensor positions.length headDim) {token head : ℕ}
    {values : List ℝ} (hrow : row tensor token head = some values) : values.length = headDim := by
  obtain ⟨heads, hheads, hvalues⟩ := Option.bind_eq_some_iff.mp hrow
  exact h.row_length heads (List.mem_of_getElem? hheads) values (List.mem_of_getElem? hvalues)

theorem HasShape.row_rotateTokens (h : HasShape tensor positions.length headDim) {token : ℕ}
    {position : ℤ} (hposition : positions[token]? = some position) (head : ℕ) :
    row (rotateTokens theta headDim tensor positions) token head =
      (row tensor token head).map (rotate (embedding theta headDim position)) := by
  have hlt : token < tensor.length :=
    h.tokens_eq.symm ▸ (List.getElem?_eq_some_iff.mp hposition).1
  simp [row, rotateTokens, List.getElem?_zipWith, hposition, List.getElem?_eq_getElem hlt]

theorem row_rotateTokens_eq_none {token : ℕ} (hposition : positions[token]? = none)
    (head : ℕ) : row (rotateTokens theta headDim tensor positions) token head = none := by
  simp [row, rotateTokens, List.getElem?_zipWith, hposition]

theorem score_rotateTokens (hq : HasShape query positions.length headDim)
    (hk : HasShape key positions.length headDim) {token keyToken : ℕ} {m n : ℤ}
    (hm : positions[token]? = some m) (hn : positions[keyToken]? = some n) (head keyHead : ℕ) :
    score (rotateTokens theta headDim query positions)
        (rotateTokens theta headDim key positions) token head keyToken keyHead =
      (row query token head).bind fun q => (row key keyToken keyHead).map fun k =>
        dot (rotate (embedding theta headDim m) q) (rotate (embedding theta headDim n) k) := by
  rw [score, hq.row_rotateTokens hm, hk.row_rotateTokens hn]
  cases row query token head with
  | none => rfl
  | some q => cases row key keyToken keyHead <;> rfl

theorem bind_rows_congr {f g : List ℝ → List ℝ → ℝ} (hq : HasShape query positions.length headDim)
    (hk : HasShape key positions.length headDim) (token head keyToken keyHead : ℕ)
    (h : ∀ q k : List ℝ, q.length = headDim → k.length = headDim → f q k = g q k) :
    ((row query token head).bind fun q => (row key keyToken keyHead).map fun k => f q k) =
      (row query token head).bind fun q => (row key keyToken keyHead).map fun k => g q k := by
  cases hrow : row query token head with
  | none => rfl
  | some q =>
      cases hrow' : row key keyToken keyHead with
      | none => rfl
      | some k =>
          exact congrArg some (h q k (hq.row_length_eq hrow) (hk.row_length_eq hrow'))

end Tensors

/-- Over a batch of tokens the scores of rotated queries and keys do not change when all
positions shift, and tokens at one position have the scores of their own rows. -/
theorem applyRotaryEmbedding_relative {theta : ℝ} {headDim : ℕ} (heven : headDim % 2 = 0)
    {query key : List (List (List ℝ))} {positions : List ℤ}
    (hquery : HasShape query positions.length headDim)
    (hkey : HasShape key positions.length headDim) (s : ℤ) :
    ∃ query' key' query'' key'',
      applyRotaryEmbedding headDim query key positions theta = .ok (query', key') ∧
      applyRotaryEmbedding headDim query key (positions.map (· + s)) theta =
        .ok (query'', key'') ∧
      ∀ token head keyToken keyHead,
        score query'' key'' token head keyToken keyHead =
          score query' key' token head keyToken keyHead ∧
        ∀ m, positions[token]? = some m → positions[keyToken]? = some m →
          score query' key' token head keyToken keyHead =
            score query key token head keyToken keyHead := by
  have hok : ∀ positions, applyRotaryEmbedding headDim query key positions theta =
      .ok (rotateTokens theta headDim query positions,
        rotateTokens theta headDim key positions) := by
    intro positions
    simp [applyRotaryEmbedding, heven]
  refine ⟨_, _, _, _, hok _, hok _, fun token head keyToken keyHead => ⟨?_, ?_⟩⟩
  · have hquery' : HasShape query (positions.map (· + s)).length headDim := by simpa using hquery
    have hkey' : HasShape key (positions.map (· + s)).length headDim := by simpa using hkey
    cases hm : positions[token]? with
    | none => simp [score, row_rotateTokens_eq_none, hm]
    | some m =>
        cases hn : positions[keyToken]? with
        | none => simp [score, row_rotateTokens_eq_none, hn]
        | some n =>
            have hm' : (positions.map (· + s))[token]? = some (m + s) := by simp [hm]
            have hn' : (positions.map (· + s))[keyToken]? = some (n + s) := by simp [hn]
            rw [score_rotateTokens hquery hkey hm hn, score_rotateTokens hquery' hkey' hm' hn']
            exact bind_rows_congr hquery hkey token head keyToken keyHead
              fun q k hq hk => (dot_rotate_shift heven hq hk m n s).symm
  · intro m hm hn
    rw [score_rotateTokens hquery hkey hm hn]
    exact bind_rows_congr hquery hkey token head keyToken keyHead
      fun q k hq hk => dot_rotate_self heven hq hk m

theorem applyRotaryEmbedding_relative_pair : ∃ query' key' query'' key'',
    applyRotaryEmbedding 2 [[[1, 2]], [[3, 4]]] [[[5, 6]], [[7, 8]]] [0, 1] 10000 =
      .ok (query', key') ∧
    applyRotaryEmbedding 2 [[[1, 2]], [[3, 4]]] [[[5, 6]], [[7, 8]]] [5, 6] 10000 =
      .ok (query'', key'') ∧
    score query'' key'' 1 0 0 0 = score query' key' 1 0 0 0 ∧
    score query' key' 1 0 1 0 = some 53 := by
  obtain ⟨query', key', query'', key'', hok, hok', hscore⟩ :=
    @applyRotaryEmbedding_relative 10000 2 (by decide) [[[1, 2]], [[3, 4]]] [[[5, 6]], [[7, 8]]]
      [0, 1] ⟨rfl, by simp⟩ ⟨rfl, by simp⟩ 5
  refine ⟨query', key', query'', key'', hok, hok', (hscore 1 0 0 0).1, ?_⟩
  rw [(hscore 1 0 1 0).2 1 rfl rfl]
  norm_num [score, row, dot]

end Rotary

end MiniVLLM
