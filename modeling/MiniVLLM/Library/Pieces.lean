import MiniVLLM.Library.Run

/-! # Texts made of pieces

A word of a text of pieces ends in exactly one of them. Appending one piece therefore adds
the occurrences that end in it, and no others. -/

namespace Pieces

variable {α τ : Type*}

/-- The word occurs in `before ++ text` and ends inside `text`, not before it. -/
def EndsIn (word before text : List α) : Prop :=
  ∃ v w, v ≠ [] ∧ text = v ++ w ∧ word <:+ before ++ v

/-- The same, and the occurrence does not reach the end of `text`. -/
def EndsInside (word before text : List α) : Prop :=
  ∃ v w, v ≠ [] ∧ w ≠ [] ∧ text = v ++ w ∧ word <:+ before ++ v

theorem EndsInside.endsIn {word before text : List α} (h : EndsInside word before text) :
    EndsIn word before text := by
  obtain ⟨v, w, hv, _, htext, hword⟩ := h
  exact ⟨v, w, hv, htext, hword⟩

/-- An occurrence that ends in `text` reaches its end or does not. -/
theorem EndsIn.cases {word before text : List α} (h : EndsIn word before text) :
    EndsInside word before text ∨ word <:+ before ++ text := by
  obtain ⟨v, w, hv, rfl, hword⟩ := h
  rcases eq_or_ne w [] with rfl | hw
  · right
    simpa using hword
  · exact Or.inl ⟨v, w, hv, hw, rfl, hword⟩

/-- An occurrence lies in the old text or ends in the new piece. -/
theorem infix_append_iff {word before text : List α} :
    word <:+: before ++ text ↔ word <:+: before ∨ EndsIn word before text := by
  constructor
  · rintro ⟨u, w, h⟩
    rcases List.append_eq_append_iff.mp h with ⟨rest, hbefore, _⟩ | ⟨v, hword, htext⟩
    · exact Or.inl ⟨u, rest, hbefore.symm⟩
    · rcases eq_or_ne v [] with rfl | hv
      · rw [List.append_nil] at hword
        exact Or.inl ⟨u, [], by rw [List.append_nil, hword]⟩
      · exact Or.inr ⟨v, w, hv, htext, u, hword⟩
  · rintro (⟨u, w, h⟩ | ⟨v, w, _, rfl, u, h⟩)
    · exact ⟨u, w ++ text, by rw [← h]; simp⟩
    · exact ⟨u, w, by rw [h, List.append_assoc]⟩

/-- A word of a text of pieces ends in one of them. -/
theorem infix_flatMap_iff {word : List α} (hne : word ≠ []) (piece : τ → List α) (ts : List τ) :
    word <:+: ts.flatMap piece ↔
      ∃ front t back, ts = front ++ t :: back ∧ EndsIn word (front.flatMap piece) (piece t) := by
  induction ts using List.reverseRecOn with
  | nil => simp [hne]
  | append_singleton ts last ih =>
      rw [List.flatMap_append, infix_append_iff, ih]
      constructor
      · rintro (⟨front, t, back, rfl, hends⟩ | hends)
        · exact ⟨front, t, back ++ [last], by simp, hends⟩
        · exact ⟨ts, last, [], rfl, by simpa using hends⟩
      · rintro ⟨front, t, back, hsplit, hends⟩
        rcases List.append_singleton_eq_append_cons_iff.mp hsplit with
          ⟨rfl, rfl, _⟩ | ⟨mid, _, rfl⟩
        · exact Or.inr (by simpa using hends)
        · exact Or.inl ⟨front, t, mid, rfl, hends⟩

end Pieces
