import Mathlib.Data.List.Dedup

/-! # Rows with a key

A table is a list of rows with a key.

* `lookup_update_self`, `lookup_insert_self`, `keyed_update`, `keyed_insert`, `groups_perm`. -/

namespace Tokilake.Lib.Table

open List

variable {α : Type} (key : α → ℕ)

def lookup (k : ℕ) (rows : List α) : Option α := rows.find? fun row => key row = k

def update (k : ℕ) (f : α → α) (rows : List α) : List α :=
  rows.map fun row => if key row = k then f row else row

def Keyed (rows : List α) : Prop := (rows.map key).Nodup

variable {key} {k k' : ℕ} {f : α → α} {rows : List α} {row : α}

lemma key_of_lookup (h : lookup key k rows = some row) : key row = k := by simpa using find?_some h

lemma lookup_of_mem (hk : Keyed key rows) (h : row ∈ rows) :
    lookup key (key row) rows = some row := by
  unfold Keyed at hk
  induction rows with
  | nil => simp at h
  | cons first rows ih =>
    rw [map_cons, nodup_cons] at hk
    rcases mem_cons.mp h with rfl | h
    · simp [lookup]
    have hne : key first ≠ key row := by
      intro he
      exact hk.1 (he ▸ mem_map_of_mem h)
    rw [lookup, find?_cons_of_neg (by simpa using hne)]
    exact ih hk.2 h

lemma mem_update : row ∈ update key k f rows ↔
    (row ∈ rows ∧ key row ≠ k) ∨ ∃ old ∈ rows, key old = k ∧ row = f old := by
  unfold update
  rw [mem_map]
  constructor
  · rintro ⟨old, hold, rfl⟩
    split_ifs with h
    · exact Or.inr ⟨old, hold, h, rfl⟩
    · exact Or.inl ⟨hold, h⟩
  · rintro (⟨h, hne⟩ | ⟨old, hold, he, rfl⟩)
    · exact ⟨row, h, by simp [hne]⟩
    · exact ⟨old, hold, by simp [he]⟩

lemma update_of_forall_ne (h : ∀ row ∈ rows, key row ≠ k) : update key k f rows = rows := by
  conv_rhs => rw [← map_id rows]
  exact map_congr_left fun row hrow => if_neg (h row hrow)

lemma map_key_update_of (hf : ∀ row, key row = k → key (f row) = k) :
    (update key k f rows).map key = rows.map key := by
  unfold update
  rw [map_map]
  refine map_congr_left fun row _ => ?_
  rw [Function.comp_apply]
  split_ifs with h
  · rw [hf row h, h]
  · rfl

section

variable (hf : ∀ row, key (f row) = key row)
include hf

lemma map_key_update : (update key k f rows).map key = rows.map key :=
  map_key_update_of fun row h => (hf row).trans h

lemma keyed_update (hk : Keyed key rows) : Keyed key (update key k f rows) := by
  rw [Keyed, map_key_update hf]
  exact hk

lemma lookup_update_ne (h : k' ≠ k) : lookup key k' (update key k f rows) = lookup key k' rows := by
  unfold lookup update
  induction rows with
  | nil => rfl
  | cons first rows ih =>
    rw [map_cons]
    by_cases hfirst : key first = k
    · have hne : ¬ key first = k' := fun he => h (he.symm.trans hfirst)
      rw [if_pos hfirst, find?_cons_of_neg (by simpa [hf] using hne),
        find?_cons_of_neg (by simpa using hne), ih]
    · rw [if_neg hfirst, find?_cons, find?_cons, ih]

lemma lookup_update_self : lookup key k (update key k f rows) = (lookup key k rows).map f := by
  unfold lookup update
  induction rows with
  | nil => rfl
  | cons first rows ih =>
    rw [map_cons]
    by_cases hfirst : key first = k
    · rw [if_pos hfirst, find?_cons_of_pos (by simpa [hf] using hfirst),
        find?_cons_of_pos (by simpa using hfirst), Option.map_some]
    · rw [if_neg hfirst, find?_cons_of_neg (by simpa using hfirst),
        find?_cons_of_neg (by simpa using hfirst), ih]

end

lemma lookup_insert_ne (h : key row ≠ k) : lookup key k (rows ++ [row]) = lookup key k rows := by
  unfold lookup
  rw [find?_append, find?_cons_of_neg (by simpa using h)]
  simp

lemma lookup_insert_self (h : ∀ old ∈ rows, key old ≠ key row) :
    lookup key (key row) (rows ++ [row]) = some row := by
  have hnone : rows.find? (fun old => key old = key row) = none := by
    rw [find?_eq_none]
    intro old hold
    simpa using h old hold
  simp [lookup, find?_append, hnone]

lemma keyed_insert (hk : Keyed key rows) (h : ∀ old ∈ rows, key old ≠ key row) :
    Keyed key (rows ++ [row]) := by
  unfold Keyed at hk ⊢
  rw [map_append, nodup_append]
  refine ⟨hk, by simp, ?_⟩
  intro a ha b hb
  obtain ⟨old, hold, rfl⟩ := mem_map.mp ha
  simp only [map_cons, map_nil, mem_singleton] at hb
  rw [hb]
  exact h old hold

/-! ### Grouping -/

section
variable {κ β : Type} [DecidableEq κ] {sort : α → κ} {value : α → β}

/-- The values of some rows, put together by a key, in the order of the rows. -/
def groups (sort : α → κ) (value : α → β) (rows : List α) : List (κ × List β) :=
  (rows.map sort).dedup.map fun c => (c, (rows.filter fun row => sort row = c).map value)

lemma flatMap_filter_perm {cs : List κ} (hcs : cs.Nodup) {rows : List α}
    (hrows : ∀ row ∈ rows, sort row ∈ cs) :
    (cs.flatMap fun c => rows.filter fun row => sort row = c).Perm rows := by
  induction cs generalizing rows with
  | nil => simpa [eq_nil_iff_forall_not_mem] using hrows
  | cons c cs ih =>
    obtain ⟨hc, hcs⟩ := nodup_cons.mp hcs
    -- the rows of the first key, and the others by their keys
    have hrest : (cs.flatMap fun c' => rows.filter fun row => sort row = c').Perm
        (rows.filter fun row => !decide (sort row = c)) := by
      refine .trans (.of_eq (flatMap_congr fun c' hc' => ?_)) (ih hcs fun row hrow => ?_)
      · rw [filter_filter]
        refine filter_congr fun row _ => ?_
        by_cases hrow : sort row = c' <;> simp [hrow, ne_of_mem_of_not_mem hc' hc]
      · obtain ⟨hrow, hne⟩ := mem_filter.mp hrow
        exact (mem_cons.mp (hrows row hrow)).resolve_left (by simpa using hne)
    exact (hrest.append_left _).trans (filter_append_perm (fun row => sort row = c) rows)

/-- Grouping rearranges the values. -/
lemma groups_perm : ((groups sort value rows).flatMap Prod.snd).Perm (rows.map value) := by
  rw [groups, flatMap_map, ← map_flatMap]
  exact (flatMap_filter_perm (nodup_dedup _) fun row hrow =>
    mem_dedup.mpr (mem_map_of_mem hrow)).map _

end

end Tokilake.Lib.Table
