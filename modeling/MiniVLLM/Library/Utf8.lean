import Mathlib

/-! # Rendering byte by byte

A renderer reads bytes and writes characters. Bytes of an unfinished character are kept back,
and a placeholder stands for them at the end of the text. Once later bytes have put another
character there, no further input brings the placeholder back. -/

/-- Kept bytes never vanish without a character in their place. -/
structure Renderer (π β γ : Type*) where
  idle : π
  step : π → β → List γ × π
  placeholder : γ
  unfinished : π → Bool
  idle_finished : unfinished idle = false
  silent : ∀ p b, unfinished p = true → (step p b).1 = [] → unfinished (step p b).2 = true

namespace Renderer

variable {π β γ : Type*} (R : Renderer π β γ)

/-- The characters written on the way, and the state at the end. -/
def feed : π → List β → List γ × π
  | p, [] => ([], p)
  | p, b :: bs => ((R.step p b).1 ++ (feed (R.step p b).2 bs).1, (feed (R.step p b).2 bs).2)

def tail (p : π) : List γ := if R.unfinished p then [R.placeholder] else []

def render (bs : List β) : List γ :=
  (R.feed R.idle bs).1 ++ R.tail (R.feed R.idle bs).2

/-- The bytes finish a character begun before them, and it is not the placeholder. -/
def Replaces (before bs : List β) : Prop :=
  R.unfinished (R.feed R.idle before).2 = true ∧
    ∃ c rest, (R.feed (R.feed R.idle before).2 bs).1 = c :: rest ∧ c ≠ R.placeholder

@[simp] theorem render_nil : R.render [] = [] := by
  simp [render, feed, tail, R.idle_finished]

theorem feed_append (p : π) (bs cs : List β) :
    R.feed p (bs ++ cs) =
      ((R.feed p bs).1 ++ (R.feed (R.feed p bs).2 cs).1, (R.feed (R.feed p bs).2 cs).2) := by
  induction bs generalizing p with
  | nil => simp [feed]
  | cons b bs ih => simp [feed, ih]

theorem feed_silent {p : π} {bs : List β} (hp : R.unfinished p = true)
    (hnone : (R.feed p bs).1 = []) : R.unfinished (R.feed p bs).2 = true := by
  induction bs generalizing p with
  | nil => exact hp
  | cons b bs ih =>
      obtain ⟨hstep, hrest⟩ := List.append_eq_nil_iff.mp hnone
      exact ih (R.silent p b hp hstep) hrest

theorem render_append (before bs : List β) :
    R.render (before ++ bs) = (R.feed R.idle before).1 ++
      ((R.feed (R.feed R.idle before).2 bs).1 ++ R.tail (R.feed (R.feed R.idle before).2 bs).2) := by
  simp [render, feed_append]

/-- More bytes extend the text, unless they replace its placeholder. -/
theorem render_prefix_iff (before bs : List β) :
    R.render before <+: R.render (before ++ bs) ↔ ¬ R.Replaces before bs := by
  rw [render_append, render, List.prefix_append_right_inj, Replaces, tail]
  cases hp : R.unfinished (R.feed R.idle before).2 with
  | false => simp
  | true =>
      cases hout : (R.feed (R.feed R.idle before).2 bs).1 with
      | nil => simp [tail, R.feed_silent hp hout]
      | cons c rest => simp [eq_comm]

/-- A replaced placeholder stays replaced. -/
theorem not_prefix_of_replaces {before bs : List β} (h : R.Replaces before bs) (cs : List β) :
    ¬ R.render before <+: R.render (before ++ (bs ++ cs)) := by
  obtain ⟨hp, c, rest, hout, hc⟩ := h
  rw [render_prefix_iff, not_not]
  exact ⟨hp, c, rest ++ _, by rw [feed_append, hout]; rfl, hc⟩

end Renderer

/-! ## UTF-8

Incomplete and invalid sequences are rendered as U+FFFD, one for each maximal part that
begins a well-formed sequence, or for each byte that begins none. -/

namespace Utf8

def replacement : Char := '\uFFFD'

/-- The length of the sequence a lead byte begins. -/
def width (lead : UInt8) : ℕ := if lead < 0xE0 then 2 else if lead < 0xF0 then 3 else 4

/-- Whether a byte may come next. The second byte of some sequences has a smaller range, which
excludes overlong forms, surrogates and values beyond U+10FFFF. -/
def accepts (kept : List UInt8) (b : UInt8) : Bool :=
  let low : UInt8 := if kept = [0xE0] then 0xA0 else if kept = [0xF0] then 0x90 else 0x80
  let high : UInt8 := if kept = [0xED] then 0x9F else if kept = [0xF4] then 0x8F else 0xBF
  low ≤ b && b ≤ high

/-- The character of a complete sequence. -/
def character (bytes : List UInt8) : Char :=
  match bytes.map UInt8.toNat with
  | [a, b] => Char.ofNat ((a % 32) * 64 + b % 64)
  | [a, b, c] => Char.ofNat ((a % 16) * 4096 + (b % 64) * 64 + c % 64)
  | [a, b, c, d] => Char.ofNat ((a % 8) * 262144 + (b % 64) * 4096 + (c % 64) * 64 + d % 64)
  | _ => replacement

/-- A byte at the start of a sequence. -/
def begin (b : UInt8) : List Char × List UInt8 :=
  if b < 0x80 then ([Char.ofNat b.toNat], [])
  else if 0xC2 ≤ b && b ≤ 0xF4 then ([], [b])
  else ([replacement], [])

def push (kept : List UInt8) (b : UInt8) : List Char × List UInt8 :=
  match kept with
  | [] => begin b
  | lead :: _ =>
      if accepts kept b then
        if kept.length + 1 = width lead then ([character (kept ++ [b])], [])
        else ([], kept ++ [b])
      else (replacement :: (begin b).1, (begin b).2)

/-- `bytes.decode("utf-8", errors="replace")`. -/
def lossy : Renderer (List UInt8) UInt8 Char where
  idle := []
  step := push
  placeholder := replacement
  unfinished := fun kept => !kept.isEmpty
  idle_finished := rfl
  silent := by
    intro kept b hkept hnone
    cases kept with
    | nil => simp at hkept
    | cons lead kept =>
        unfold push at hnone ⊢
        dsimp only at hnone ⊢
        split_ifs at hnone ⊢
        simp

example : lossy.render [0x61, 0xC3, 0xA9, 0xE2, 0x82, 0xAC, 0xF0, 0x9F, 0x98, 0x80] =
    ['a', 'é', '€', '😀'] := by decide

example : lossy.render [0xC3, 0x61, 0xE2, 0x82, 0xED, 0xA0, 0x80] =
    [replacement, 'a', replacement, replacement, replacement, replacement] := by decide

end Utf8
