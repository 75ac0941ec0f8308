import Mathlib.Data.Nat.Count

/-! # Choosing by weight

The choice is the one in whose part of the total weight a number lies; each is selected for as many
numbers as it has weight (`count_select`). -/

namespace Tokilake.Lib.Weighted

open List

variable {α : Type*}

def total : List (α × ℕ) → ℕ
  | [] => 0
  | c :: l => c.2 + total l

lemma total_le_of_sublist {l l' : List (α × ℕ)} (h : l.Sublist l') : total l ≤ total l' := by
  induction h with
  | slnil => exact le_rfl
  | cons c _ ih =>
    rw [total]
    omega
  | cons_cons c _ ih =>
    rw [total, total]
    omega

lemma total_append (l l' : List (α × ℕ)) : total (l ++ l') = total l + total l' := by
  induction l with
  | nil => exact (Nat.zero_add _).symm
  | cons c l ih =>
    rw [cons_append, total, total, ih]
    omega

lemma total_replicate (n : ℕ) (c : α × ℕ) : total (replicate n c) = n * c.2 := by
  induction n with
  | zero => simp [total]
  | succ n ih =>
    rw [replicate_succ, total, ih, Nat.succ_mul]
    omega

lemma total_perm {l l' : List (α × ℕ)} (h : l.Perm l') : total l = total l' := by
  induction h with
  | nil => rfl
  | cons c _ ih => rw [total, total, ih]
  | swap c d l =>
    simp only [total]
    omega
  | trans _ _ ih ih' => exact ih.trans ih'

def select : List (α × ℕ) → ℕ → Option α
  | [], _ => none
  | c :: l, n => if n < c.2 then some c.1 else select l (n - c.2)

def share [DecidableEq α] (a : α) : List (α × ℕ) → ℕ
  | [] => 0
  | c :: l => (if c.1 = a then c.2 else 0) + share a l

lemma select_lt {c : α × ℕ} {l : List (α × ℕ)} {n : ℕ} (h : n < c.2) :
    select (c :: l) n = some c.1 := if_pos h

lemma select_add (c : α × ℕ) (l : List (α × ℕ)) (n : ℕ) :
    select (c :: l) (c.2 + n) = select l n := by
  rw [select, if_neg (by omega), Nat.add_sub_cancel_left]

variable [DecidableEq α]

/-- **Numbers and weights.**  Each choice is selected for as many numbers as it has weight. -/
theorem count_select (l : List (α × ℕ)) (a : α) :
    Nat.count (fun n => select l n = some a) (total l) = share a l := by
  induction l with
  | nil => simp [total, share]
  | cons c l ih =>
    -- the first numbers select the first choice, the others go to the rest of the list
    have hfirst : Nat.count (fun n => select (c :: l) n = some a) c.2 =
        if c.1 = a then c.2 else 0 := by
      split_ifs with hc
      · rw [Nat.count_iff_forall]
        intro n hn
        rw [select_lt hn, hc]
      rw [Nat.count_iff_forall_not]
      intro n hn
      rw [select_lt hn]
      simpa using hc
    have hrest : Nat.count (fun n => select (c :: l) (c.2 + n) = some a) (total l) = share a l := by
      simp only [select_add]
      exact ih
    rw [total, share, Nat.count_add, hfirst, hrest]

lemma share_eq_zero {l : List (α × ℕ)} {a : α} (h : ∀ c ∈ l, c.1 ≠ a) : share a l = 0 := by
  induction l with
  | nil => rfl
  | cons c l ih => rw [share, if_neg (h c mem_cons_self), ih fun d hd => h d (mem_cons_of_mem _ hd)]

lemma share_of_mem {l : List (α × ℕ)} (hl : (l.map Prod.fst).Nodup) {c : α × ℕ} (hc : c ∈ l) :
    share c.1 l = c.2 := by
  induction l with
  | nil => cases hc
  | cons d l ih =>
    rw [map_cons, nodup_cons] at hl
    rcases mem_cons.mp hc with rfl | hc
    · have hrest : ∀ d ∈ l, d.1 ≠ c.1 := fun d hd heq => hl.1 (heq ▸ mem_map_of_mem hd)
      rw [share, if_pos rfl, share_eq_zero hrest, Nat.add_zero]
    · have hne : d.1 ≠ c.1 := fun heq => hl.1 (heq ▸ mem_map_of_mem hc)
      rw [share, if_neg hne, ih hl.2 hc, Nat.zero_add]

lemma total_count_succ_le (f : ℕ → Option α) (n : ℕ) {l : List α} (hl : l.Nodup) :
    total (l.map fun a => (a, Nat.count (fun k => f k = some a) (n + 1))) ≤
      total (l.map fun a => (a, Nat.count (fun k => f k = some a) n)) +
        if ∃ a ∈ l, f n = some a then 1 else 0 := by
  induction l with
  | nil => simp [total]
  | cons a l ih =>
    rw [nodup_cons] at hl
    have hrest := ih hl.2
    have hcount : Nat.count (fun k => f k = some a) (n + 1) =
        Nat.count (fun k => f k = some a) n + if f n = some a then 1 else 0 := Nat.count_succ _ _
    simp only [map_cons, total, exists_mem_cons_iff]
    by_cases ha : f n = some a
    · have hnone : ¬ ∃ b ∈ l, f n = some b := by
        rintro ⟨b, hb, hfb⟩
        rw [ha, Option.some.injEq] at hfb
        exact hl.1 (hfb ▸ hb)
      rw [if_neg hnone] at hrest
      rw [if_pos ha] at hcount
      rw [if_pos (Or.inl ha)]
      omega
    · rw [if_neg ha] at hcount
      have hiff : (f n = some a ∨ ∃ b ∈ l, f n = some b) ↔ ∃ b ∈ l, f n = some b := by simp [ha]
      rw [if_congr hiff rfl rfl]
      omega

lemma total_count_le (f : ℕ → Option α) (n : ℕ) {l : List α} (hl : l.Nodup) :
    total (l.map fun a => (a, Nat.count (fun k => f k = some a) n)) ≤ n := by
  induction n with
  | zero =>
    have hzero : ∀ l : List α, total (l.map fun a => (a, 0)) = 0 := by
      intro l
      induction l with
      | nil => rfl
      | cons a l ih => rw [map_cons, total, ih]
    simp [hzero]
  | succ n ih =>
    have hstep := total_count_succ_le f n hl
    have hone : (if ∃ a ∈ l, f n = some a then 1 else 0) ≤ 1 := by split_ifs <;> omega
    omega

end Tokilake.Lib.Weighted
