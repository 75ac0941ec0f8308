import Mathlib.Data.List.Basic

/-! # Maps by their entries

A finite map is the list of its entries, read by `List.lookup`; `put` stores a value under a key.

* `lookup_put`, `lookup_mapValues`: what is read afterwards. -/

namespace Tokilake.Lib.Entries

open List

variable {κ α β : Type} [BEq κ] [LawfulBEq κ]

def put (m : List (κ × α)) (key : κ) (value : α) : List (κ × α) :=
  (m.filter fun entry => !(entry.1 == key)) ++ [(key, value)]

def mapValues (f : κ → α → β) (m : List (κ × α)) : List (κ × β) :=
  m.map fun entry => (entry.1, f entry.1 entry.2)

lemma lookup_cons_ne {k first : κ} (h : k ≠ first) (value : α) (m : List (κ × α)) :
    ((first, value) :: m).lookup k = m.lookup k := by
  rw [lookup_cons, beq_eq_false_iff_ne.mpr h]

lemma mem_of_lookup {k : κ} {value : α} :
    ∀ {m : List (κ × α)}, m.lookup k = some value → (k, value) ∈ m
  | (first, v) :: m, h => by
    by_cases hk : k = first
    · rw [hk, lookup_cons_self, Option.some_inj] at h
      rw [hk, h]
      exact mem_cons_self
    · rw [lookup_cons_ne hk] at h
      exact mem_cons_of_mem _ (mem_of_lookup h)

lemma lookup_filter_ne {k key : κ} (m : List (κ × α)) (h : k ≠ key) :
    (m.filter fun entry => !(entry.1 == key)).lookup k = m.lookup k := by
  induction m with
  | nil => rfl
  | cons entry m ih =>
    obtain ⟨first, value⟩ := entry
    by_cases hfirst : first = key
    · rw [filter_cons_of_neg (by simpa using hfirst), ih, lookup_cons_ne (hfirst ▸ h)]
    · rw [filter_cons_of_pos (by simpa using hfirst), lookup_cons, lookup_cons, ih]

lemma lookup_filter_self {key : κ} (m : List (κ × α)) :
    (m.filter fun entry => !(entry.1 == key)).lookup key = none := by
  rw [lookup_eq_none_iff]
  intro entry hentry
  have hne : entry.1 ≠ key := by simpa using (mem_filter.mp hentry).2
  exact bne_iff_ne.mpr hne.symm

lemma lookup_put [DecidableEq κ] (m : List (κ × α)) (k key : κ) (value : α) :
    (put m key value).lookup k = if k = key then some value else m.lookup k := by
  unfold put
  rw [lookup_append]
  split_ifs with h
  · rw [h, lookup_filter_self, lookup_cons_self, Option.none_or]
  · rw [lookup_filter_ne m h, lookup_cons_ne h, lookup_nil, Option.or_none]

lemma lookup_mapValues (f : κ → α → β) (m : List (κ × α)) (k : κ) :
    (mapValues f m).lookup k = (m.lookup k).map (f k) := by
  induction m with
  | nil => rfl
  | cons entry m ih =>
    obtain ⟨first, value⟩ := entry
    show ((first, f first value) :: mapValues f m).lookup k = _
    by_cases h : k = first
    · rw [h, lookup_cons_self, lookup_cons_self, Option.map_some]
    · rw [lookup_cons_ne h, lookup_cons_ne h, ih]

end Tokilake.Lib.Entries
