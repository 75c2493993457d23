import Mathlib

/-! # Paged memory

A table of physical blocks turns logical positions into slots. Tables without a common
block never meet in a slot, so each one is a private memory of its own. -/

namespace Paging

/-- The slot of position `p` under a table of physical blocks. -/
def slot (blockSize : ℕ) (table : List ℕ) (p : ℕ) : ℕ :=
  table.getD (p / blockSize) 0 * blockSize + p % blockSize

/-- A table covers `n` positions when each of them has a block. -/
def Covers (blockSize : ℕ) (table : List ℕ) (n : ℕ) : Prop :=
  n ≤ table.length * blockSize

variable {blockSize : ℕ} {table table' : List ℕ} {p q n : ℕ}

theorem Covers.div_lt (h : Covers blockSize table n) (hp : p < n) :
    p / blockSize < table.length := by
  apply Nat.div_lt_of_lt_mul
  rw [Nat.mul_comm]
  exact hp.trans_le h

theorem slot_eq_getElem (h : p / blockSize < table.length) :
    slot blockSize table p = table[p / blockSize] * blockSize + p % blockSize := by
  simp [slot, List.getD_eq_getElem?_getD, List.getElem?_eq_getElem h]

/-- A block and an offset can be read back from the slot they make. -/
theorem block_offset_inj {b b' r r' : ℕ} (hr : r < blockSize) (hr' : r' < blockSize)
    (h : b * blockSize + r = b' * blockSize + r') : b = b' ∧ r = r' := by
  have hpos : 0 < blockSize := Nat.zero_lt_of_lt hr
  have hdiv : ∀ c t, t < blockSize → (c * blockSize + t) / blockSize = c := by
    intro c t ht
    rw [Nat.mul_comm, Nat.mul_add_div hpos, Nat.div_eq_of_lt ht, Nat.add_zero]
  have hb : b = b' := by rw [← hdiv b r hr, h, hdiv b' r' hr']
  subst hb
  exact ⟨rfl, Nat.add_left_cancel h⟩

theorem slot_append (extra : List ℕ) (h : p / blockSize < table.length) :
    slot blockSize (table ++ extra) p = slot blockSize table p := by
  have h' : p / blockSize < (table ++ extra).length := by
    rw [List.length_append]
    omega
  rw [slot_eq_getElem h, slot_eq_getElem h', List.getElem_append_left h]

theorem slot_lt (hpos : 0 < blockSize) (hbound : ∀ b ∈ table, b < n)
    (h : p / blockSize < table.length) : slot blockSize table p < n * blockSize := by
  rw [slot_eq_getElem h]
  have hb : table[p / blockSize] + 1 ≤ n := hbound _ (List.getElem_mem h)
  have hr : p % blockSize < blockSize := Nat.mod_lt _ hpos
  calc table[p / blockSize] * blockSize + p % blockSize
      < table[p / blockSize] * blockSize + blockSize := Nat.add_lt_add_left hr _
    _ = (table[p / blockSize] + 1) * blockSize := by rw [Nat.add_mul, Nat.one_mul]
    _ ≤ n * blockSize := Nat.mul_le_mul_right _ hb

/-- Under one table without repeated blocks, distinct positions have distinct slots. -/
theorem slot_inj (hpos : 0 < blockSize) (hnodup : table.Nodup)
    (hp : p / blockSize < table.length) (hq : q / blockSize < table.length)
    (h : slot blockSize table p = slot blockSize table q) : p = q := by
  rw [slot_eq_getElem hp, slot_eq_getElem hq] at h
  obtain ⟨hb, hr⟩ := block_offset_inj (Nat.mod_lt _ hpos) (Nat.mod_lt _ hpos) h
  have hdiv : p / blockSize = q / blockSize := (hnodup.getElem_inj_iff).mp hb
  rw [← Nat.div_add_mod p blockSize, ← Nat.div_add_mod q blockSize, hdiv, hr]

/-- Tables with no block in common never share a slot. -/
theorem slot_ne_of_disjoint (hpos : 0 < blockSize) (hdisj : table.Disjoint table')
    (hp : p / blockSize < table.length) (hq : q / blockSize < table'.length) :
    slot blockSize table p ≠ slot blockSize table' q := by
  intro h
  rw [slot_eq_getElem hp, slot_eq_getElem hq] at h
  obtain ⟨hb, _⟩ := block_offset_inj (Nat.mod_lt _ hpos) (Nat.mod_lt _ hpos) h
  exact hdisj (List.getElem_mem hp) (hb ▸ List.getElem_mem hq)

/-! ## Slot-indexed stores -/

section Store

variable {α : Type*}

/-- Writes the pairs one after the other; a slot named twice keeps the later value. -/
def write (store : ℕ → Option α) : List (ℕ × α) → ℕ → Option α
  | [] => store
  | (s, a) :: rest => write (Function.update store s (some a)) rest

theorem write_of_not_mem {pairs : List (ℕ × α)} {s : ℕ} (h : s ∉ pairs.map Prod.fst)
    (store : ℕ → Option α) : write store pairs s = store s := by
  induction pairs generalizing store with
  | nil => rfl
  | cons pair pairs ih =>
      simp only [List.map_cons, List.mem_cons, not_or] at h
      rw [write, ih h.2, Function.update_of_ne h.1]

theorem write_of_mem {pairs : List (ℕ × α)} {s : ℕ} {a : α}
    (hnodup : (pairs.map Prod.fst).Nodup) (h : (s, a) ∈ pairs) (store : ℕ → Option α) :
    write store pairs s = some a := by
  induction pairs generalizing store with
  | nil => simp at h
  | cons pair pairs ih =>
      simp only [List.map_cons, List.nodup_cons] at hnodup
      rcases List.mem_cons.mp h with h | h
      · subst h
        rw [write, write_of_not_mem hnodup.1, Function.update_self]
      · exact ih hnodup.2 h _

/-- What a slot holds was written just now or before. -/
theorem of_write_eq_some {store : ℕ → Option α} {pairs : List (ℕ × α)} {s : ℕ} {a : α}
    (h : write store pairs s = some a) :
    (s, a) ∈ pairs ∨ (s ∉ pairs.map Prod.fst ∧ store s = some a) := by
  induction pairs generalizing store with
  | nil => exact Or.inr ⟨List.not_mem_nil, h⟩
  | cons pair pairs ih =>
      obtain ⟨s', a'⟩ := pair
      rcases ih h with hmem | ⟨hother, hstore⟩
      · exact Or.inl (List.mem_cons_of_mem _ hmem)
      · by_cases hs : s = s'
        · subst hs
          rw [Function.update_self] at hstore
          obtain rfl := Option.some.inj hstore
          exact Or.inl List.mem_cons_self
        · rw [Function.update_of_ne hs] at hstore
          refine Or.inr ⟨?_, hstore⟩
          rw [List.map_cons, List.mem_cons, not_or]
          exact ⟨hs, hother⟩

/-- The values a reader finds at a list of slots, if every slot was written. -/
def readAll (store : ℕ → Option α) (slots : List ℕ) : Option (List α) :=
  slots.mapM store

theorem readAll_eq_some {store : ℕ → Option α} {slots : List ℕ} {values : List α}
    (hlen : slots.length = values.length)
    (h : ∀ i (hi : i < slots.length), store slots[i] = values[i]?) :
    readAll store slots = some values := by
  induction slots generalizing values with
  | nil =>
      cases values with
      | nil => rfl
      | cons => simp at hlen
  | cons s slots ih =>
      cases values with
      | nil => simp at hlen
      | cons a values =>
          have hs : store s = some a := h 0 (Nat.succ_pos _)
          have hrest : slots.mapM store = some values := by
            apply ih (by simpa using hlen)
            intro i hi
            exact h (i + 1) (Nat.succ_lt_succ hi)
          simp [readAll, List.mapM_cons, hs, hrest]

/-- Slots that can be read hold the values that are read. -/
theorem of_readAll {store : ℕ → Option α} {slots : List ℕ} {values : List α}
    (h : readAll store slots = some values) : slots.map store = values.map some := by
  induction slots generalizing values with
  | nil =>
      obtain rfl : [] = values := Option.some.inj h
      rfl
  | cons s slots ih =>
      rw [readAll, List.mapM_cons] at h
      obtain ⟨a, hs, h⟩ := Option.bind_eq_some_iff.mp h
      obtain ⟨rest, hrest, h⟩ := Option.bind_eq_some_iff.mp h
      obtain rfl : a :: rest = values := Option.some.inj h
      rw [List.map_cons, List.map_cons, hs, ih hrest]

end Store

end Paging
