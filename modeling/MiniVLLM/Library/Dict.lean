import Mathlib

/-! # Insertion-ordered dictionaries

Entries stand in the order in which their keys were first set. Setting a present
key keeps its place, so iteration order depends on first insertions and removals only. -/

/-- Entries with pairwise distinct keys, oldest key first. -/
structure Dict (κ ν : Type*) where
  entries : List (κ × ν)
  nodup_keys : (entries.map Prod.fst).Nodup
  deriving DecidableEq

namespace Dict

variable {κ ν : Type*}

def empty : Dict κ ν := ⟨[], by simp⟩

def keys (d : Dict κ ν) : List κ := d.entries.map Prod.fst

def values (d : Dict κ ν) : List ν := d.entries.map Prod.snd

def length (d : Dict κ ν) : ℕ := d.entries.length

@[simp] theorem entries_empty : (empty : Dict κ ν).entries = [] := rfl

@[simp] theorem keys_empty : (empty : Dict κ ν).keys = [] := rfl

@[simp] theorem values_empty : (empty : Dict κ ν).values = [] := rfl

theorem keys_nodup (d : Dict κ ν) : d.keys.Nodup := d.nodup_keys

theorem length_keys (d : Dict κ ν) : d.keys.length = d.length := by simp [keys, length]

theorem length_values (d : Dict κ ν) : d.values.length = d.length := by simp [values, length]

theorem ext_entries {d d' : Dict κ ν} (h : d.entries = d'.entries) : d = d' := by
  cases d
  cases d'
  cases h
  rfl

/-- A dictionary holding one entry. -/
def singleton (k : κ) (v : ν) : Dict κ ν := ⟨[(k, v)], by simp⟩

variable [DecidableEq κ]

def get? (d : Dict κ ν) (k : κ) : Option ν := d.entries.lookup k

theorem lookup_eq_some_iff_mem {entries : List (κ × ν)} (h : (entries.map Prod.fst).Nodup)
    (k : κ) (v : ν) : entries.lookup k = some v ↔ (k, v) ∈ entries := by
  induction entries with
  | nil => simp
  | cons e entries ih =>
      obtain ⟨k', v'⟩ := e
      simp only [List.map_cons, List.nodup_cons] at h
      rw [List.lookup_cons]
      by_cases hk : k = k'
      · subst hk
        have hnot : (k, v) ∉ entries := fun hm => h.1 (List.mem_map.mpr ⟨_, hm, rfl⟩)
        simp [hnot, eq_comm]
      · have hb : (k == k') = false := by simpa using hk
        simp only [hb, ih h.2, List.mem_cons, Prod.mk.injEq, hk, false_and, false_or]

theorem get?_eq_some_iff {d : Dict κ ν} {k : κ} {v : ν} :
    d.get? k = some v ↔ (k, v) ∈ d.entries :=
  lookup_eq_some_iff_mem d.nodup_keys k v

theorem mem_keys_iff {d : Dict κ ν} {k : κ} : k ∈ d.keys ↔ ∃ v, d.get? k = some v := by
  simp [keys, get?_eq_some_iff]

theorem mem_keys_of_get? {d : Dict κ ν} {k : κ} {v : ν} (h : d.get? k = some v) : k ∈ d.keys :=
  mem_keys_iff.mpr ⟨v, h⟩

theorem get?_eq_none_iff {d : Dict κ ν} {k : κ} : d.get? k = none ↔ k ∉ d.keys := by
  rw [mem_keys_iff, Option.eq_none_iff_forall_ne_some]
  simp

theorem mem_values_iff {d : Dict κ ν} {v : ν} : v ∈ d.values ↔ ∃ k, d.get? k = some v := by
  simp [values, get?_eq_some_iff]

@[simp] theorem get?_empty (k : κ) : (empty : Dict κ ν).get? k = none := rfl

@[simp] theorem get?_singleton (k k' : κ) (v : ν) :
    (singleton k v).get? k' = if k' = k then some v else none := by
  ext w
  rw [get?_eq_some_iff]
  simp [singleton, eq_comm]

/-- Replaces the value of a present key in place; a new key goes to the end. -/
def set (d : Dict κ ν) (k : κ) (v : ν) : Dict κ ν where
  entries :=
    if k ∈ d.keys then d.entries.map (fun e => if e.1 = k then (k, v) else e)
    else d.entries ++ [(k, v)]
  nodup_keys := by
    split
    · have hmap : (d.entries.map (fun e => if e.1 = k then (k, v) else e)).map Prod.fst =
          d.entries.map Prod.fst := by
        rw [List.map_map]
        apply List.map_congr_left
        intro e _
        by_cases he : e.1 = k <;> simp [he]
      rw [hmap]
      exact d.nodup_keys
    · rename_i hk
      rw [List.map_append, List.nodup_append]
      refine ⟨d.nodup_keys, by simp, ?_⟩
      intro a ha b hb
      simp only [List.map_cons, List.map_nil, List.mem_singleton] at hb
      subst hb
      exact fun hab => hk (hab ▸ ha)

def erase (d : Dict κ ν) (k : κ) : Dict κ ν where
  entries := d.entries.filter (fun e => e.1 ≠ k)
  nodup_keys := by
    have hsub : List.Sublist ((d.entries.filter (fun e => e.1 ≠ k)).map Prod.fst)
        (d.entries.map Prod.fst) := List.filter_sublist.map _
    exact d.nodup_keys.sublist hsub

theorem mem_entries_set {d : Dict κ ν} {k k' : κ} {v v' : ν} :
    (k', v') ∈ (d.set k v).entries ↔
      (k' = k ∧ v' = v) ∨ (k' ≠ k ∧ (k', v') ∈ d.entries) := by
  unfold set
  by_cases hk : k ∈ d.keys
  · simp only [hk, if_true, List.mem_map]
    constructor
    · rintro ⟨e, he, heq⟩
      by_cases hek : e.1 = k
      · rw [if_pos hek, Prod.mk.injEq] at heq
        exact Or.inl ⟨heq.1.symm, heq.2.symm⟩
      · rw [if_neg hek] at heq
        subst heq
        exact Or.inr ⟨hek, he⟩
    · rintro (⟨rfl, rfl⟩ | ⟨hne, he⟩)
      · obtain ⟨w, hw⟩ := mem_keys_iff.mp hk
        exact ⟨(k', w), get?_eq_some_iff.mp hw, by simp⟩
      · exact ⟨(k', v'), he, by simp [hne]⟩
  · simp only [hk, if_false, List.mem_append, List.mem_singleton, Prod.mk.injEq]
    constructor
    · rintro (he | h)
      · refine Or.inr ⟨?_, he⟩
        rintro rfl
        exact hk (mem_keys_of_get? (get?_eq_some_iff.mpr he))
      · exact Or.inl h
    · rintro (h | ⟨_, he⟩)
      · exact Or.inr h
      · exact Or.inl he

theorem get?_set (d : Dict κ ν) (k : κ) (v : ν) (k' : κ) :
    (d.set k v).get? k' = if k' = k then some v else d.get? k' := by
  ext w
  rw [get?_eq_some_iff, mem_entries_set]
  by_cases h : k' = k
  · simp [h, eq_comm]
  · simp [h, get?_eq_some_iff]

@[simp] theorem get?_set_self (d : Dict κ ν) (k : κ) (v : ν) : (d.set k v).get? k = some v := by
  simp [get?_set]

theorem get?_set_of_ne (d : Dict κ ν) {k k' : κ} (v : ν) (h : k' ≠ k) :
    (d.set k v).get? k' = d.get? k' := by
  simp [get?_set, h]

theorem get?_erase (d : Dict κ ν) (k k' : κ) :
    (d.erase k).get? k' = if k' = k then none else d.get? k' := by
  ext w
  rw [get?_eq_some_iff]
  by_cases h : k' = k
  · simp [erase, h]
  · simp [erase, h, get?_eq_some_iff]

@[simp] theorem get?_erase_self (d : Dict κ ν) (k : κ) : (d.erase k).get? k = none := by
  simp [get?_erase]

theorem get?_erase_of_ne (d : Dict κ ν) {k k' : κ} (h : k' ≠ k) :
    (d.erase k).get? k' = d.get? k' := by
  simp [get?_erase, h]

theorem mem_keys_set {d : Dict κ ν} {k k' : κ} {v : ν} :
    k' ∈ (d.set k v).keys ↔ k' = k ∨ k' ∈ d.keys := by
  rw [mem_keys_iff, mem_keys_iff]
  by_cases h : k' = k <;> simp [get?_set, h]

theorem mem_keys_erase {d : Dict κ ν} {k k' : κ} :
    k' ∈ (d.erase k).keys ↔ k' ≠ k ∧ k' ∈ d.keys := by
  rw [mem_keys_iff, mem_keys_iff]
  by_cases h : k' = k <;> simp [get?_erase, h]

theorem keys_erase (d : Dict κ ν) (k : κ) : (d.erase k).keys = d.keys.filter (· ≠ k) := by
  simp [keys, erase, List.filter_map, Function.comp_def]

theorem entries_set_of_mem {d : Dict κ ν} {k : κ} (v : ν) (h : k ∈ d.keys) :
    (d.set k v).entries = d.entries.map (fun e => if e.1 = k then (k, v) else e) := by
  simp [set, h]

theorem entries_set_of_not_mem {d : Dict κ ν} {k : κ} (v : ν) (h : k ∉ d.keys) :
    (d.set k v).entries = d.entries ++ [(k, v)] := by
  simp [set, h]

theorem keys_set_of_not_mem {d : Dict κ ν} {k : κ} (v : ν) (h : k ∉ d.keys) :
    (d.set k v).keys = d.keys ++ [k] := by
  rw [keys, entries_set_of_not_mem v h, List.map_append]
  rfl

theorem keys_set_of_mem {d : Dict κ ν} {k : κ} (v : ν) (h : k ∈ d.keys) :
    (d.set k v).keys = d.keys := by
  simp only [keys, set] at *
  simp only [h, if_true, List.map_map]
  apply List.map_congr_left
  intro e _
  by_cases he : e.1 = k <;> simp [he]

theorem set_length_of_not_mem {d : Dict κ ν} {k : κ} (v : ν) (h : k ∉ d.keys) :
    (d.set k v).length = d.length + 1 := by
  simp [length, entries_set_of_not_mem v h]

theorem set_length_of_mem {d : Dict κ ν} {k : κ} (v : ν) (h : k ∈ d.keys) :
    (d.set k v).length = d.length := by
  rw [← length_keys, ← length_keys, keys_set_of_mem v h]

theorem erase_length_le (d : Dict κ ν) (k : κ) : (d.erase k).length ≤ d.length :=
  List.length_filter_le _ _

/-- A present key contributes one entry beside those of the dictionary without it. -/
theorem entries_perm_erase {d : Dict κ ν} {k : κ} {v : ν} (h : d.get? k = some v) :
    d.entries.Perm ((k, v) :: (d.erase k).entries) := by
  have hd : d.entries.Nodup := d.nodup_keys.of_map
  have hd' : (d.erase k).entries.Nodup := (d.erase k).nodup_keys.of_map
  have hnot : (k, v) ∉ (d.erase k).entries := by simp [erase]
  rw [List.perm_ext_iff_of_nodup hd (List.nodup_cons.mpr ⟨hnot, hd'⟩)]
  rintro ⟨k', v'⟩
  rw [List.mem_cons, ← get?_eq_some_iff, ← get?_eq_some_iff, get?_erase, Prod.mk.injEq]
  by_cases hk : k' = k
  · simp [hk, h, eq_comm]
  · simp [hk]

theorem entries_set_perm (d : Dict κ ν) (k : κ) (v : ν) :
    (d.set k v).entries.Perm ((k, v) :: (d.erase k).entries) := by
  have herase : ((d.set k v).erase k).entries.Perm (d.erase k).entries := by
    have h₁ := ((d.set k v).erase k).nodup_keys.of_map
    have h₂ := (d.erase k).nodup_keys.of_map
    rw [List.perm_ext_iff_of_nodup h₁ h₂]
    rintro ⟨k', v'⟩
    rw [← get?_eq_some_iff, ← get?_eq_some_iff, get?_erase, get?_erase]
    by_cases hk : k' = k
    · simp [hk]
    · simp [hk, get?_set]
  exact (entries_perm_erase (get?_set_self d k v)).trans (herase.cons _)

theorem values_perm_erase {d : Dict κ ν} {k : κ} {v : ν} (h : d.get? k = some v) :
    d.values.Perm (v :: (d.erase k).values) :=
  (entries_perm_erase h).map Prod.snd

theorem values_set_perm (d : Dict κ ν) (k : κ) (v : ν) :
    (d.set k v).values.Perm (v :: (d.erase k).values) :=
  (entries_set_perm d k v).map Prod.snd

theorem erase_of_not_mem {d : Dict κ ν} {k : κ} (h : k ∉ d.keys) : d.erase k = d := by
  apply ext_entries
  apply List.filter_eq_self.mpr
  intro e he
  have hne : e.1 ≠ k := fun hek => h (List.mem_map.mpr ⟨e, he, hek⟩)
  simpa using hne

theorem filter_map_replace (entries : List (κ × ν)) (k : κ) (v : ν) :
    (entries.map (fun e => if e.1 = k then (k, v) else e)).filter (fun e => e.1 ≠ k) =
      entries.filter (fun e => e.1 ≠ k) := by
  induction entries with
  | nil => rfl
  | cons e entries ih =>
      by_cases he : e.1 = k
      · simpa [he] using ih
      · simpa [he] using ih

/-- Removing a key forgets what was last set there. -/
theorem erase_set (d : Dict κ ν) (k : κ) (v : ν) : (d.set k v).erase k = d.erase k := by
  apply ext_entries
  by_cases hk : k ∈ d.keys
  · simpa only [erase, set, hk, if_true] using filter_map_replace d.entries k v
  · simp [erase, set, hk, List.filter_append]

/-- The later of two updates of one key counts. -/
theorem set_set (d : Dict κ ν) (k : κ) (v w : ν) : (d.set k v).set k w = d.set k w := by
  apply ext_entries
  have hk' : k ∈ (d.set k v).keys := mem_keys_set.mpr (Or.inl rfl)
  rw [entries_set_of_mem w hk']
  by_cases hk : k ∈ d.keys
  · rw [entries_set_of_mem v hk, entries_set_of_mem w hk, List.map_map]
    apply List.map_congr_left
    intro e _
    by_cases he : e.1 = k <;> simp [he]
  · have hsame : d.entries.map (fun e => if e.1 = k then (k, w) else e) = d.entries := by
      refine (List.map_congr_left ?_).trans (List.map_id d.entries)
      intro e he
      have hne : e.1 ≠ k := fun hek => hk (List.mem_map.mpr ⟨e, he, hek⟩)
      simp [hne]
    rw [entries_set_of_not_mem v hk, entries_set_of_not_mem w hk, List.map_append, hsame]
    simp

/-- Setting a key to the value it holds changes nothing. -/
theorem set_of_get? {d : Dict κ ν} {k : κ} {v : ν} (h : d.get? k = some v) : d.set k v = d := by
  apply ext_entries
  rw [entries_set_of_mem v (mem_keys_of_get? h)]
  refine (List.map_congr_left ?_).trans (List.map_id d.entries)
  rintro ⟨k', w⟩ he
  by_cases hk : k' = k
  · subst hk
    obtain rfl : w = v := Option.some.inj ((get?_eq_some_iff.mpr he).symm.trans h)
    simp
  · simp [hk]

theorem map_values_eq {β : Type*} (d : Dict κ ν) (f : ν → β) (b : β) :
    d.values.map f = d.keys.map (fun k => ((d.get? k).map f).getD b) := by
  rw [values, keys, List.map_map, List.map_map]
  apply List.map_congr_left
  rintro ⟨k, v⟩ hmem
  simp [get?_eq_some_iff.mpr hmem]

/-- Sums over two dictionaries with the same keys agree if the values do, key by key. -/
theorem sum_values_eq {μ : Type*} {d : Dict κ ν} {d' : Dict κ μ} {f : ν → ℕ} {g : μ → ℕ}
    (hkeys : ∀ k, k ∈ d.keys ↔ k ∈ d'.keys)
    (h : ∀ k v v', d.get? k = some v → d'.get? k = some v' → f v = g v') :
    (d.values.map f).sum = (d'.values.map g).sum := by
  have hperm : d.keys.Perm d'.keys :=
    (List.perm_ext_iff_of_nodup d.keys_nodup d'.keys_nodup).mpr hkeys
  rw [map_values_eq d f 0, map_values_eq d' g 0, (hperm.map _).sum_eq]
  congr 1
  apply List.map_congr_left
  intro k hk
  obtain ⟨v', hv'⟩ := mem_keys_iff.mp hk
  obtain ⟨v, hv⟩ := mem_keys_iff.mp ((hkeys k).mpr hk)
  simp [hv, hv', h k v v' hv hv']

theorem values_set_perm_of_not_mem {d : Dict κ ν} {k : κ} (v : ν) (h : k ∉ d.keys) :
    (d.set k v).values.Perm (v :: d.values) := by
  simpa only [erase_of_not_mem h] using values_set_perm d k v

end Dict
