import Mathlib.Algebra.Order.Field.Basic
import Mathlib.Data.List.Pairwise
import Mathlib.Tactic.Linarith
import Mathlib.Tactic.Ring

/-! # Token buckets

A bucket holds at most `capacity` tokens and gets `rate` of them per unit of time (`offer`,
`serve`).

* `admitted_le_of_window`: never more than the capacity and the rate give;
* `serve_all`: requests far enough apart are all admitted. -/

namespace Tokilake.Lib.TokenBucket

open List

variable {K α : Type*} [CommRing K] [LinearOrder K]

structure Bucket (K : Type*) where
  capacity : K
  rate : K

structure Level (K : Type*) where
  tokens : K
  last : K
  deriving DecidableEq

def Bucket.tokensAt (B : Bucket K) (s : Level K) (t : K) : K :=
  min B.capacity (s.tokens + B.rate * (t - s.last))

def Bucket.offer (B : Bucket K) (s : Level K) (t : K) : Bool × Level K :=
  if 1 ≤ B.tokensAt s t then (true, ⟨B.tokensAt s t - 1, t⟩) else (false, ⟨B.tokensAt s t, t⟩)

def Bucket.serve (B : Bucket K) (clock : α → K) : Level K → List α → List (α × Bool)
  | _, [] => []
  | s, x :: xs => (x, (B.offer s (clock x)).1) :: B.serve clock (B.offer s (clock x)).2 xs

def Bucket.after (B : Bucket K) (clock : α → K) : Level K → List α → Level K
  | s, [] => s
  | s, x :: xs => B.after clock (B.offer s (clock x)).2 xs

variable {B : Bucket K} {clock : α → K} {s : Level K}

lemma offer_of_le {t : K} (h : 1 ≤ B.tokensAt s t) :
    B.offer s t = (true, ⟨B.tokensAt s t - 1, t⟩) := if_pos h

lemma offer_of_lt {t : K} (h : B.tokensAt s t < 1) : B.offer s t = (false, ⟨B.tokensAt s t, t⟩) :=
  if_neg (not_le.mpr h)

lemma tokensAt_le (s : Level K) (t : K) : B.tokensAt s t ≤ B.capacity := min_le_left _ _

lemma tokensAt_self {x t : K} (h : x ≤ B.capacity) : B.tokensAt ⟨x, t⟩ t = x := by
  rw [Bucket.tokensAt, sub_self, mul_zero, add_zero]
  exact min_eq_right h

lemma serve_append (xs ys : List α) :
    B.serve clock s (xs ++ ys) = B.serve clock s xs ++ B.serve clock (B.after clock s xs) ys := by
  induction xs generalizing s with
  | nil => rfl
  | cons x xs ih => simp [Bucket.serve, Bucket.after, ih]

lemma after_append (xs ys : List α) :
    B.after clock s (xs ++ ys) = B.after clock (B.after clock s xs) ys := by
  induction xs generalizing s with
  | nil => rfl
  | cons x xs ih => exact ih

lemma map_fst_serve (xs : List α) : (B.serve clock s xs).map Prod.fst = xs := by
  induction xs generalizing s with
  | nil => rfl
  | cons x xs ih => simp [Bucket.serve, ih]

lemma mem_of_mem_serve {xs : List α} {p : α × Bool} (h : p ∈ B.serve clock s xs) : p.1 ∈ xs := by
  have := mem_map_of_mem (f := Prod.fst) h
  rwa [map_fst_serve] at this

lemma serve_congr {s s' : Level K} {x : α} {xs : List α}
    (h : B.tokensAt s (clock x) = B.tokensAt s' (clock x)) :
    B.serve clock s (x :: xs) = B.serve clock s' (x :: xs) := by
  simp only [Bucket.serve, Bucket.offer, h]

/-! ### The bound on the admitted requests -/

def admitted (w : α → Bool) (l : List (α × Bool)) : ℕ := l.countP fun p => p.2 && w p.1

lemma admitted_cons (w : α → Bool) (p : α × Bool) (l : List (α × Bool)) :
    admitted w (p :: l) = admitted w l + (p.2 && w p.1).toNat := by
  unfold admitted
  rw [countP_cons]
  cases (p.2 && w p.1) <;> rfl

lemma admitted_serve_eq_zero {w : α → Bool} {xs : List α} (h : ∀ x ∈ xs, w x = false) :
    admitted w (B.serve clock s xs) = 0 := by
  rw [admitted, countP_eq_zero]
  intro p hp
  simp [h p.1 (mem_of_mem_serve hp)]

lemma admitted_of_all {w : α → Bool} {xs : List α} (h : ∀ p ∈ B.serve clock s xs, p.2 = true)
    (hw : ∀ x ∈ xs, w x = true) : admitted w (B.serve clock s xs) = xs.length := by
  have hlen : (B.serve clock s xs).length = xs.length := by rw [← length_map, map_fst_serve]
  rw [admitted, ← hlen, countP_eq_length]
  intro p hp
  simp [h p hp, hw p.1 (mem_of_mem_serve hp)]

lemma admitted_of_later {w : α → Bool} {b : K} (hw : ∀ x, w x = true → clock x ≤ b) {x : α}
    {xs : List α} (hx : ∀ y ∈ x :: xs, clock x ≤ clock y) (hxb : ¬ clock x ≤ b) :
    admitted w (B.serve clock s (x :: xs)) = 0 :=
  admitted_serve_eq_zero fun y hy =>
    Bool.eq_false_iff.mpr fun hwy => hxb ((hx y hy).trans (hw y hwy))

variable [IsStrictOrderedRing K]

lemma tokensAt_later (hr : 0 ≤ B.rate) {t t' : K} (h : t ≤ t') :
    B.tokensAt s t' = min B.capacity (B.tokensAt s t + B.rate * (t' - t)) := by
  have hgain := mul_nonneg hr (sub_nonneg.mpr h)
  have hsplit : s.tokens + B.rate * (t - s.last) + B.rate * (t' - t) =
      s.tokens + B.rate * (t' - s.last) := by ring
  unfold Bucket.tokensAt
  rw [← min_add_add_right, hsplit, ← min_assoc, min_eq_left (le_add_of_nonneg_right hgain)]

lemma admitted_le (hr : 0 ≤ B.rate) {w : α → Bool} {b : K} (hw : ∀ x, w x = true → clock x ≤ b)
    {xs : List α} (hxs : xs.Pairwise fun x y => clock x ≤ clock y)
    (hs : ∀ x ∈ xs, s.last ≤ clock x) (h0 : 0 ≤ s.tokens) (hC : 0 ≤ B.capacity) (hb : s.last ≤ b) :
    (admitted w (B.serve clock s xs) : K) ≤ s.tokens + B.rate * (b - s.last) := by
  have hgain := mul_nonneg hr (sub_nonneg.mpr hb)
  induction xs generalizing s with
  | nil => simpa [Bucket.serve, admitted] using add_nonneg h0 hgain
  | cons x xs ih =>
    obtain ⟨hx, hxs⟩ := pairwise_cons.mp hxs
    by_cases hxb : clock x ≤ b
    swap
    · rw [admitted_of_later hw (forall_mem_cons.mpr ⟨le_rfl, hx⟩) hxb, Nat.cast_zero]
      exact add_nonneg h0 hgain
    have hlast := hs x mem_cons_self
    have hgain' := mul_nonneg hr (sub_nonneg.mpr hxb)
    have hlevel : B.tokensAt s (clock x) ≤ s.tokens + B.rate * (clock x - s.last) :=
      min_le_right _ _
    have hlevel0 := le_min hC (add_nonneg h0 (mul_nonneg hr (sub_nonneg.mpr hlast)))
    rw [Bucket.serve, admitted_cons]
    by_cases h1 : 1 ≤ B.tokensAt s (clock x)
    · rw [offer_of_le h1]
      have hrest := ih (s := ⟨B.tokensAt s (clock x) - 1, clock x⟩) hxs hx (sub_nonneg.mpr h1) hxb
        hgain'
      have hone : ((true && w x).toNat : K) ≤ 1 := by cases w x <;> simp
      push_cast
      linarith
    · rw [offer_of_lt (not_le.mp h1)]
      have hrest := ih (s := ⟨B.tokensAt s (clock x), clock x⟩) hxs hx hlevel0 hxb hgain'
      simp only [Bool.false_and, Bool.toNat_false, add_zero]
      linarith

/-- **The bound of a bucket** over the instants from `a` to `b`. -/
theorem admitted_le_of_window (hr : 0 ≤ B.rate) (hC : 0 ≤ B.capacity) {w : α → Bool} {a b : K}
    (hab : a ≤ b) (hw : ∀ x, w x = true → a ≤ clock x ∧ clock x ≤ b) {xs : List α}
    (hxs : xs.Pairwise fun x y => clock x ≤ clock y) (hs : ∀ x ∈ xs, s.last ≤ clock x)
    (h0 : 0 ≤ s.tokens) :
    (admitted w (B.serve clock s xs) : K) ≤ B.capacity + B.rate * (b - a) := by
  have hgain := mul_nonneg hr (sub_nonneg.mpr hab)
  induction xs generalizing s with
  | nil => simpa [Bucket.serve, admitted] using add_nonneg hC hgain
  | cons x xs ih =>
    obtain ⟨hx, hxs'⟩ := pairwise_cons.mp hxs
    have hfrom : ∀ y ∈ x :: xs, clock x ≤ clock y := forall_mem_cons.mpr ⟨le_rfl, hx⟩
    have hlevel0 := le_min hC (add_nonneg h0 (mul_nonneg hr (sub_nonneg.mpr (hs x mem_cons_self))))
    by_cases hxa : clock x < a
    · have hnot : w x = false := Bool.eq_false_iff.mpr fun hwx => not_le.mpr hxa (hw x hwx).1
      rw [Bucket.serve, admitted_cons, hnot]
      by_cases h1 : 1 ≤ B.tokensAt s (clock x)
      · rw [offer_of_le h1]
        exact ih hxs' hx (sub_nonneg.mpr h1)
      · rw [offer_of_lt (not_le.mp h1)]
        exact ih hxs' hx hlevel0
    by_cases hxb : clock x ≤ b
    · -- refill up to the first request of the window, and count from there
      have hsame : B.tokensAt s (clock x) =
          B.tokensAt ⟨B.tokensAt s (clock x), clock x⟩ (clock x) :=
        (tokensAt_self (tokensAt_le _ _)).symm
      have hle := admitted_le hr (fun y hy => (hw y hy).2) hxs
        (s := ⟨B.tokensAt s (clock x), clock x⟩)
        hfrom hlevel0 hC hxb
      rw [serve_congr hsame]
      refine hle.trans (add_le_add (tokensAt_le _ _) (mul_le_mul_of_nonneg_left ?_ hr))
      linarith
    · rw [admitted_of_later (fun y hy => (hw y hy).2) hfrom hxb, Nat.cast_zero]
      exact add_nonneg hC hgain

/-! ### Requests that are all admitted -/

/-- **Requests within the bound are admitted.** -/
theorem serve_all {xs : List α}
    (hfirst : ∀ (j : ℕ) (y : α), xs[j]? = some y →
    (j : K) + 1 ≤ s.tokens + B.rate * (clock y - s.last))
    (hpart : ∀ (i j : ℕ) (x y : α), i ≤ j → xs[i]? = some x → xs[j]? = some y →
      ((j - i : ℕ) : K) + 1 ≤ B.capacity + B.rate * (clock y - clock x)) :
    ∀ p ∈ B.serve clock s xs, p.2 = true := by
  induction xs generalizing s with
  | nil =>
    intro p hp
    cases hp
  | cons x xs ih =>
    have h1 : 1 ≤ B.tokensAt s (clock x) := by
      have hcap := hpart 0 0 x x le_rfl rfl rfl
      have htok := hfirst 0 x rfl
      simp only [Nat.sub_self, Nat.cast_zero, zero_add, sub_self, mul_zero, add_zero] at hcap htok
      exact le_min hcap htok
    rw [Bucket.serve, offer_of_le h1]
    intro p hp
    rcases mem_cons.mp hp with rfl | hp
    · rfl
    refine ih (fun j y hy => ?_) (fun i j x' y hij hx' hy => ?_) p hp
    · -- the refill at `clock x` was cut at the capacity, or it was not
      have hcap := hpart 0 (j + 1) x y (Nat.zero_le _) rfl hy
      have htok := hfirst (j + 1) y hy
      push_cast at hcap htok
      have hmin : (j : K) + 2 ≤ B.tokensAt s (clock x) + B.rate * (clock y - clock x) := by
        unfold Bucket.tokensAt
        rw [← min_add_add_right]
        refine le_min (by linarith) ?_
        linarith
      linarith
    · have := hpart (i + 1) (j + 1) x' y (Nat.succ_le_succ hij) hx' hy
      rwa [Nat.succ_sub_succ] at this

lemma serve_replicate (clock : α → K) {x : α} {n : ℕ} (hn : (n : K) ≤ B.tokensAt s (clock x)) :
    (∀ p ∈ B.serve clock s (replicate n x), p.2 = true) ∧
      B.tokensAt (B.after clock s (replicate n x)) (clock x) = B.tokensAt s (clock x) - n := by
  induction n generalizing s with
  | zero => simp [Bucket.serve, Bucket.after]
  | succ n ih =>
    push_cast at hn
    have h1 : 1 ≤ B.tokensAt s (clock x) := le_trans (by linarith [Nat.cast_nonneg (α := K) n]) hn
    have hnext : B.tokensAt ⟨B.tokensAt s (clock x) - 1, clock x⟩ (clock x) =
        B.tokensAt s (clock x) - 1 := by
      have hle : B.tokensAt s (clock x) ≤ B.capacity := tokensAt_le _ _
      exact tokensAt_self (by linarith)
    obtain ⟨hall, hafter⟩ := ih
      (by rw [hnext]; linarith)
    rw [replicate_succ, Bucket.serve, Bucket.after, offer_of_le h1]
    refine ⟨fun p hp => ?_, ?_⟩
    · rcases mem_cons.mp hp with rfl | hp
      · rfl
      · exact hall p hp
    · rw [hafter, hnext]
      push_cast
      ring

end Tokilake.Lib.TokenBucket
