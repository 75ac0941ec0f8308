import Tokilake.Limit.Memory
import Tokilake.Limit.Redis
import Mathlib.Algebra.Order.Archimedean.Basic
import Mathlib.Algebra.Order.Floor.Semifield
import Mathlib.Data.List.Range

/-! # The API limiter

`NewAPILimiter` makes a window below 60 requests per minute and a token bucket from there on, whose
rate is cut down to a whole number per second.

* `neverRejected_iff`, `apiLimiter_iff`: the rates at which evenly spaced requests are admitted. -/

namespace Tokilake.Limit.Api

open Lib.TokenBucket Limit.Memory Limit.Redis List

/-! ### Limiters -/

inductive Limiter
  | memory (l : MemoryLimiter)
  | count (l : CountLimiter)
  | token (l : TokenLimiter)
  deriving DecidableEq

def rpmThreshold : ℕ := 60

def window : ℚ := 60

def newAPILimiter (redisEnabled : Bool) (rpm : ℕ) : Limiter :=
  let ratePerSecond : ℚ := rpm / 60
  if redisEnabled = false then
    if rpm < rpmThreshold then .memory (newMemoryLimiter rpm rpm window false)
    else .memory (newMemoryLimiter ⌊ratePerSecond⌋₊ rpm window true)
  else if rpm < rpmThreshold then .count ⟨rpm, rpm, window⟩
  else .token ⟨⌊ratePerSecond⌋₊, rpm, ⌊ratePerSecond * tokenBurstMultiplier⌋₊⟩

structure Store where
  memory : Memory.Store := {}
  counts : String → Option (Cell ℕ) := fun _ => none
  keys : String → TokenKeys := fun _ => {}

def allow (L : Limiter) (key : String) (t : ℚ) (store : Store) : Bool × Store :=
  match L with
  | .memory l =>
    let r := allowN l key 1 t store.memory
    (r.1, { store with memory := r.2 })
  | .count l =>
    let r := countScript l t 1 (store.counts key)
    (r.1, { store with counts := Function.update store.counts key r.2 })
  | .token l =>
    let r := reserveN l t 1 (store.keys key)
    (r.1, { store with keys := Function.update store.keys key r.2 })

def cleanup (L : Limiter) (t : ℚ) (store : Store) : Store :=
  match L with
  | .memory l => { store with memory := removeExpiredEntries l t store.memory }
  | .count _ | .token _ => store

/-! ### Runs -/

inductive Event
  | request (key : String) (t : ℚ)
  | cleanup (t : ℚ)
  deriving DecidableEq

def Event.time : Event → ℚ
  | .request _ t | .cleanup t => t

def Timed (t : ℚ) (es : List Event) : Prop := (t :: es.map Event.time).Pairwise (· ≤ ·)

def times (k : String) : List Event → List ℚ
  | [] => []
  | .request key t :: es => if key = k then t :: times k es else times k es
  | .cleanup _ :: es => times k es

def outcomes (L : Limiter) (k : String) : Store → List Event → List (ℚ × Bool)
  | _, [] => []
  | store, .request key t :: es =>
    let r := allow L key t store
    if key = k then (t, r.1) :: outcomes L k r.2 es else outcomes L k r.2 es
  | store, .cleanup t :: es => outcomes L k (cleanup L t store) es

lemma timed_cons {t : ℚ} {e : Event} {es : List Event} :
    Timed t (e :: es) ↔ t ≤ e.time ∧ Timed e.time es := by
  unfold Timed
  rw [map_cons, pairwise_cons, and_congr_left_iff]
  intro h
  have hrest := (pairwise_cons.mp h).1
  constructor
  · exact fun hall => hall _ mem_cons_self
  · intro hle x hx
    rcases mem_cons.mp hx with rfl | hx
    · exact hle
    · exact hle.trans (hrest x hx)

lemma times_sublist (k : String) (es : List Event) : (times k es).Sublist (es.map Event.time) := by
  induction es with
  | nil => exact List.Sublist.refl _
  | cons e es ih =>
    cases e with
    | request key t =>
      rw [times]
      split_ifs
      · exact ih.cons_cons t
      · exact ih.cons t
    | cleanup t => exact ih.cons t

lemma times_pairwise {t : ℚ} {es : List Event} (h : Timed t es) (k : String) :
    (times k es).Pairwise (· ≤ ·) ∧ ∀ x ∈ times k es, t ≤ x := by
  obtain ⟨h1, h2⟩ := pairwise_cons.mp h
  exact ⟨h2.sublist (times_sublist k es), fun x hx => h1 x ((times_sublist k es).subset hx)⟩

/-- **The simulation rule**: what relates the store to a bucket gives the verdicts of a run. -/
theorem outcomes_of_sim {L : Limiter} {k : String} {B : Bucket ℚ} {clock : ℚ → ℚ}
    {R : ℚ → Store → Level ℚ → Prop}
    (hmono : ∀ {t t' store s}, R t store s → t ≤ t' → R t' store s)
    (hown : ∀ {t store s}, R t store s → (allow L k t store).1 = (B.offer s (clock t)).1 ∧
      R t (allow L k t store).2 (B.offer s (clock t)).2)
    (hother : ∀ {key t store s}, key ≠ k → R t store s → R t (allow L key t store).2 s)
    (hclean : ∀ {t store s}, R t store s → R t (cleanup L t store) s)
    {es : List Event} {t : ℚ} {store : Store} {s : Level ℚ} (htimed : Timed t es)
    (h : R t store s) : outcomes L k store es = B.serve clock s (times k es) := by
  induction es generalizing t store s with
  | nil => rfl
  | cons e es ih =>
    obtain ⟨hle, htimed⟩ := timed_cons.mp htimed
    replace h := hmono h hle
    cases e with
    | cleanup t' => exact ih htimed (hclean h)
    | request key t' =>
      dsimp only [Event.time] at htimed h
      rw [outcomes, times]
      split_ifs with hkey
      · subst hkey
        obtain ⟨hverdict, hnext⟩ := hown h
        rw [Bucket.serve, ← hverdict]
        exact congrArg _ (ih htimed hnext)
      · exact ih htimed (hother hkey h)

lemma outcomes_memory {rate rpm : ℕ} (hrate : 1 ≤ rate) {k : String} {t : ℚ} {store : Store}
    {s : Level ℚ} {es : List Event} (htimed : Timed t es)
    (h : Memory.Sim (newMemoryLimiter rate rpm window true) t (store.memory.tokens k) s) :
    outcomes (.memory (newMemoryLimiter rate rpm window true)) k store es =
      (Memory.bucket (newMemoryLimiter rate rpm window true)).serve id s (times k es) := by
  refine outcomes_of_sim
    (R := fun t store s => Memory.Sim (newMemoryLimiter rate rpm window true) t
      (store.memory.tokens k) s)
    Memory.Sim.mono (fun h => ?_) (fun hkey h => ?_) (fun h => ?_) htimed h
  · have hburst : 1 ≤ (newMemoryLimiter rate rpm window true).burst := by
      show 1 ≤ rate * 10
      omega
    have := Memory.sim_allow hburst h
    simpa [allow, allowN] using this
  · simpa [allow, allowN, Function.update_of_ne hkey.symm] using h
  · refine Memory.sim_cleanup ?_ h
    show ((rate * 10 : ℕ) : ℚ) ≤ rate * (2 * 60)
    push_cast
    exact mul_le_mul_of_nonneg_left (by norm_num) (Nat.cast_nonneg _)

/-! ### The buckets of the API limiter -/

lemma floor_rate (rpm : ℕ) : ⌊(rpm : ℚ) / 60⌋₊ = rpm / 60 := by
  exact_mod_cast Nat.floor_div_eq_div (K := ℚ) rpm 60

lemma floor_burst (rpm : ℕ) : ⌊(rpm : ℚ) / 60 * tokenBurstMultiplier⌋₊ = rpm / 6 := by
  have hsix : (rpm : ℚ) / 60 * tokenBurstMultiplier = rpm / 6 := by
    rw [tokenBurstMultiplier]
    ring
  rw [hsix]
  exact_mod_cast Nat.floor_div_eq_div (K := ℚ) rpm 6

def Limiter.burst : Limiter → ℕ
  | .memory l => l.burst
  | .count _ => 0
  | .token l => l.burst

@[simp] def memoryLimiter (rpm : ℕ) : MemoryLimiter := newMemoryLimiter (rpm / 60) rpm window true

def tokenLimiter (rpm : ℕ) : TokenLimiter := ⟨rpm / 60, rpm, rpm / 6⟩

lemma newAPILimiter_memory {rpm : ℕ} (h : 60 ≤ rpm) :
    newAPILimiter false rpm = .memory (memoryLimiter rpm) := by
  simp only [newAPILimiter, if_true, rpmThreshold, if_neg (not_lt.mpr h), floor_rate, memoryLimiter]

lemma newAPILimiter_token {rpm : ℕ} (h : 60 ≤ rpm) :
    newAPILimiter true rpm = .token (tokenLimiter rpm) := by
  simp only [newAPILimiter, Bool.true_eq_false, if_false, rpmThreshold, if_neg (not_lt.mpr h),
    floor_rate, floor_burst, tokenLimiter]

def apiBucket (redisEnabled : Bool) (rpm : ℕ) : Bucket ℚ :=
  if redisEnabled then Redis.bucket (tokenLimiter rpm) else Memory.bucket (memoryLimiter rpm)

def apiClock (redisEnabled : Bool) (t : ℚ) : ℚ := if redisEnabled then ⌊t⌋ else t

def Idle (store : Store) (k : String) (t : ℚ) : Prop :=
  store.memory.tokens k = none ∧ get t (store.keys k).tokens = none

/-- **From 60 requests per minute on the limiter is a bucket.** -/
theorem outcomes_eq {redisEnabled : Bool} {rpm : ℕ} (hrpm : 60 ≤ rpm) {k : String} {t : ℚ}
    {store : Store} {es : List Event} (htimed : Timed t es) (hidle : Idle store k t) :
    outcomes (newAPILimiter redisEnabled rpm) k store es =
      (apiBucket redisEnabled rpm).serve (apiClock redisEnabled)
        ⟨(apiBucket redisEnabled rpm).capacity, apiClock redisEnabled t⟩ (times k es) := by
  cases redisEnabled with
  | false =>
    rw [newAPILimiter_memory hrpm]
    refine outcomes_memory (by omega) htimed ?_
    rw [hidle.1]
    exact Memory.sim_none _ _
  | true =>
    rw [newAPILimiter_token hrpm]
    refine outcomes_of_sim (R := fun t store s => Redis.Sim (tokenLimiter rpm) t (store.keys k) s)
      Redis.Sim.mono (fun h => ?_) (fun hkey h => ?_) (fun h => ?_) htimed ?_
    · have hrate : 0 < (tokenLimiter rpm).rate := by
        show 0 < rpm / 60
        omega
      have hburst : (tokenLimiter rpm).rate ≤ (tokenLimiter rpm).burst := by
        show rpm / 60 ≤ rpm / 6
        omega
      have := Redis.sim_reserveN hrate hburst h
      simpa [allow, apiBucket, apiClock] using this
    · simpa [allow, Function.update_of_ne hkey.symm] using h
    · exact h
    · exact Redis.sim_none hidle.2

/-! ### Evenly spaced requests -/

section
variable {redisEnabled : Bool} {rpm : ℕ}

lemma apiBucket_rate (redisEnabled : Bool) (rpm : ℕ) :
    (apiBucket redisEnabled rpm).rate = (rpm / 60 : ℕ) := by
  cases redisEnabled <;> rfl

lemma apiBucket_capacity (redisEnabled : Bool) {rpm : ℕ} (h : 60 ≤ rpm) :
    (apiBucket redisEnabled rpm).capacity = (newAPILimiter redisEnabled rpm).burst := by
  cases redisEnabled with
  | false =>
    rw [newAPILimiter_memory h]
    rfl
  | true =>
    rw [newAPILimiter_token h]
    rfl

lemma ten_le_capacity (redisEnabled : Bool) (rpm : ℕ) :
    10 * (rpm / 60 : ℕ) ≤ (apiBucket redisEnabled rpm).capacity := by
  cases redisEnabled with
  | false =>
    show (10 * (rpm / 60 : ℕ) : ℚ) ≤ (rpm / 60 * 10 : ℕ)
    exact_mod_cast (by omega : 10 * (rpm / 60) ≤ rpm / 60 * 10)
  | true =>
    show (10 * (rpm / 60 : ℕ) : ℚ) ≤ (rpm / 6 : ℕ)
    exact_mod_cast (by omega : 10 * (rpm / 60) ≤ rpm / 6)

lemma apiClock_mono {x y : ℚ} (h : x ≤ y) : apiClock redisEnabled x ≤ apiClock redisEnabled y := by
  cases redisEnabled with
  | false => exact h
  | true =>
    show (⌊x⌋ : ℚ) ≤ ⌊y⌋
    exact_mod_cast Int.floor_le_floor h

lemma apiClock_sub (redisEnabled : Bool) (x y : ℚ) :
    y - x - 1 ≤ apiClock redisEnabled y - apiClock redisEnabled x ∧
      apiClock redisEnabled y - apiClock redisEnabled x ≤ y - x + 1 := by
  cases redisEnabled with
  | false =>
    show y - x - 1 ≤ y - x ∧ y - x ≤ y - x + 1
    constructor <;> linarith
  | true =>
    show y - x - 1 ≤ (⌊y⌋ : ℚ) - ⌊x⌋ ∧ (⌊y⌋ : ℚ) - ⌊x⌋ ≤ y - x + 1
    have h1 := Int.floor_le x
    have h2 := Int.lt_floor_add_one x
    have h3 := Int.floor_le y
    have h4 := Int.lt_floor_add_one y
    constructor <;> linarith

def evenly (rpm : ℕ) (a : ℚ) (n : ℕ) : List ℚ := (range n).map fun i : ℕ => a + i * (60 / rpm)

/-- Evenly spaced requests, from an idle key on, are all admitted, whatever the others do. -/
def NeverRejected (redisEnabled : Bool) (rpm : ℕ) : Prop :=
  ∀ k t store es a n, Timed t es → Idle store k t → times k es = evenly rpm a n →
    ∀ p ∈ outcomes (newAPILimiter redisEnabled rpm) k store es, p.2 = true

lemma getElem?_evenly {a : ℚ} {n j : ℕ} {y : ℚ} (h : (evenly rpm a n)[j]? = some y) :
    y = a + j * (60 / rpm) := by
  rw [evenly, getElem?_map, Option.map_eq_some_iff] at h
  obtain ⟨i, hi, rfl⟩ := h
  obtain ⟨hj, rfl⟩ := List.getElem?_eq_some_iff.mp hi
  rw [List.getElem_range]

lemma neverRejected_of_dvd (hrpm : 60 ≤ rpm) (hdvd : 60 ∣ rpm) :
    NeverRejected redisEnabled rpm := by
  intro k t store es a n htimed hidle htimes
  obtain ⟨r, rfl⟩ := hdvd
  have hr : (1 : ℚ) ≤ r := by exact_mod_cast (by omega : 1 ≤ r)
  have hrate : (apiBucket redisEnabled (60 * r)).rate = r := by
    rw [apiBucket_rate, Nat.mul_div_cancel_left r (by norm_num)]
  have hcap : 10 * (r : ℚ) ≤ (apiBucket redisEnabled (60 * r)).capacity := by
    have := ten_le_capacity redisEnabled (60 * r)
    rwa [Nat.mul_div_cancel_left r (by norm_num)] at this
  -- a second more or less on the clock costs `r` of the `10 * r` tokens
  have hspaced : ∀ i j : ℕ, i ≤ j →
      ((j - i : ℕ) : ℚ) + 1 ≤ (apiBucket redisEnabled (60 * r)).capacity +
      (apiBucket redisEnabled (60 * r)).rate *
        (apiClock redisEnabled (a + j * (60 / (60 * r : ℕ))) -
        apiClock redisEnabled (a + i * (60 / (60 * r : ℕ)))) := by
    intro i j hij
    have hclock := (apiClock_sub redisEnabled (a + i * (60 / (60 * r : ℕ)))
      (a + j * (60 / (60 * r : ℕ)))).1
    have hdist : (r : ℚ) * (a + j * (60 / (60 * r : ℕ)) - (a + i * (60 / (60 * r : ℕ))) - 1) =
        j - i - r := by
      push_cast
      field_simp
      ring
    have hmul := mul_le_mul_of_nonneg_left hclock (by linarith : (0 : ℚ) ≤ r)
    rw [hrate, Nat.cast_sub hij]
    linarith
  rw [outcomes_eq hrpm htimed hidle, htimes]
  refine serve_all (fun j y hy => ?_) (fun i j x y hij hx hy => ?_)
  · have hfirst := hspaced 0 j (Nat.zero_le j)
    have hstart : apiClock redisEnabled t ≤
        apiClock redisEnabled (a + (0 : ℕ) * (60 / (60 * r : ℕ))) := by
      refine apiClock_mono ((times_pairwise htimed k).2 _ ?_)
      have hn : 0 < n := by
        have := (List.getElem?_eq_some_iff.mp hy).1
        rw [evenly, List.length_map, List.length_range] at this
        omega
      rw [htimes]
      exact mem_map.mpr ⟨0, mem_range.mpr hn, rfl⟩
    rw [getElem?_evenly hy]
    rw [hrate] at hfirst ⊢
    rw [Nat.sub_zero] at hfirst
    have := mul_le_mul_of_nonneg_left hstart (by linarith : (0 : ℚ) ≤ r)
    linarith
  · rw [getElem?_evenly hx, getElem?_evenly hy]
    exact hspaced i j hij

/-! ### Runs of one key -/

lemma times_requests (k : String) (ts : List ℚ) : times k (ts.map (Event.request k)) = ts := by
  induction ts with
  | nil => rfl
  | cons t ts ih => rw [map_cons, times, if_pos rfl, ih]

lemma timed_requests {k : String} {t : ℚ} {ts : List ℚ} :
    Timed t (ts.map (Event.request k)) ↔ (t :: ts).Pairwise (· ≤ ·) := by
  have : (ts.map (Event.request k)).map Event.time = ts := by
    rw [map_map]
    exact map_id ts
  rw [Timed, this]

lemma idle_empty (k : String) (t : ℚ) : Idle {} k t := ⟨rfl, rfl⟩

lemma evenly_pairwise (rpm : ℕ) (n : ℕ) : (0 :: evenly rpm 0 n).Pairwise (· ≤ ·) := by
  have hstep : (0 : ℚ) ≤ 60 / rpm := div_nonneg (by norm_num) (Nat.cast_nonneg _)
  refine pairwise_cons.mpr ⟨fun x hx => ?_, ?_⟩
  · obtain ⟨i, -, rfl⟩ := mem_map.mp hx
    have := mul_nonneg (Nat.cast_nonneg i) hstep
    linarith
  · refine List.Pairwise.map _ (fun i j hij => ?_) pairwise_lt_range
    have hij : (i : ℚ) ≤ j := by exact_mod_cast Nat.le_of_lt hij
    have := mul_le_mul_of_nonneg_right hij hstep
    linarith

lemma dvd_of_neverRejected (hrpm : 60 ≤ rpm) (h : NeverRejected redisEnabled rpm) : 60 ∣ rpm := by
  by_contra hdvd
  have hpos : (0 : ℚ) < rpm := by exact_mod_cast (by omega : 0 < rpm)
  have hslow : ((rpm / 60 : ℕ) : ℚ) * 60 < rpm := by exact_mod_cast (by omega : rpm / 60 * 60 < rpm)
  set B := apiBucket redisEnabled rpm with hB
  have hrate := apiBucket_rate redisEnabled rpm
  have hr0 : 0 ≤ B.rate := by
    rw [hrate]
    exact Nat.cast_nonneg _
  have hC : 0 ≤ B.capacity := by
    have := ten_le_capacity redisEnabled rpm
    linarith
  -- each request costs the bucket a part of a token
  have hloss : 0 < 1 - B.rate * (60 / rpm) := by
    rw [hrate, ← mul_div_assoc, sub_pos, div_lt_one hpos]
    exact hslow
  obtain ⟨n, hn⟩ := exists_nat_gt ((B.capacity + B.rate) / (1 - B.rate * (60 / rpm)))
  rw [div_lt_iff₀ hloss] at hn
  have htimed : Timed 0 ((evenly rpm 0 n).map (Event.request "")) :=
    timed_requests.mpr (evenly_pairwise rpm n)
  have hall := h "" 0 {} _ 0 n htimed (idle_empty "" 0) (times_requests _ _)
  rw [outcomes_eq hrpm htimed (idle_empty "" 0), times_requests] at hall
  have hmem : ∀ x ∈ evenly rpm 0 n, 0 ≤ x ∧ x ≤ n * (60 / rpm) := by
    intro x hx
    refine ⟨(pairwise_cons.mp (evenly_pairwise rpm n)).1 x hx, ?_⟩
    obtain ⟨i, hi, rfl⟩ := mem_map.mp hx
    have hin : (i : ℚ) ≤ n := by exact_mod_cast Nat.le_of_lt (mem_range.mp hi)
    have := mul_le_mul_of_nonneg_right hin (div_nonneg (by norm_num : (0 : ℚ) ≤ 60) hpos.le)
    linarith
  let w : ℚ → Bool := fun x => decide (apiClock redisEnabled 0 ≤ apiClock redisEnabled x ∧
    apiClock redisEnabled x ≤ apiClock redisEnabled (n * (60 / rpm)))
  have hcount := admitted_of_all (w := w) hall fun x hx =>
    decide_eq_true ⟨apiClock_mono (hmem x hx).1, apiClock_mono (hmem x hx).2⟩
  have hspan : (0 : ℚ) ≤ n * (60 / rpm) :=
    mul_nonneg (Nat.cast_nonneg _) (div_nonneg (by norm_num) hpos.le)
  have hmono : apiClock redisEnabled 0 ≤ apiClock redisEnabled (n * (60 / rpm)) :=
    apiClock_mono hspan
  have hbound := admitted_le_of_window (s := ⟨B.capacity, apiClock redisEnabled 0⟩) hr0 hC hmono
    (fun x hx => of_decide_eq_true hx)
    ((pairwise_cons.mp (evenly_pairwise rpm n)).2.imp apiClock_mono)
    (fun x hx => apiClock_mono (hmem x hx).1) hC
  rw [hcount, evenly, length_map, length_range] at hbound
  have hclock := (apiClock_sub redisEnabled 0 (n * (60 / rpm))).2
  have := mul_le_mul_of_nonneg_left hclock hr0
  linarith

/-- **Evenly spaced requests** are all admitted exactly if the cut to whole rates loses nothing. -/
theorem neverRejected_iff (hrpm : 60 ≤ rpm) : NeverRejected redisEnabled rpm ↔ 60 ∣ rpm :=
  ⟨dvd_of_neverRejected hrpm, neverRejected_of_dvd hrpm⟩

/-! ### Requests admitted in a period -/

def inPeriod (a m x : ℚ) : Bool := decide (a ≤ x ∧ x ≤ a + 60 * m)

/-- Over `m` minutes no key has more admitted than `m` times `rpm` and the burst. -/
def Bounded (redisEnabled : Bool) (rpm : ℕ) (m : ℚ) : Prop :=
  ∀ k t es a, Timed t es →
    (admitted (inPeriod a m) (outcomes (newAPILimiter redisEnabled rpm) k {} es) : ℚ) ≤
      rpm * m + (newAPILimiter redisEnabled rpm).burst

lemma admitted_period (redisEnabled : Bool) (hrpm : 60 ≤ rpm) {k : String} {t a m : ℚ}
    {es : List Event}
    (hm : 0 ≤ m) (htimed : Timed t es) :
    (admitted (inPeriod a m) (outcomes (newAPILimiter redisEnabled rpm) k {} es) : ℚ) ≤
      (newAPILimiter redisEnabled rpm).burst + (rpm / 60 : ℕ) *
        (apiClock redisEnabled (a + 60 * m) - apiClock redisEnabled a) := by
  have hC : 0 ≤ (apiBucket redisEnabled rpm).capacity := by
    rw [apiBucket_capacity redisEnabled hrpm]
    exact Nat.cast_nonneg _
  have hr : 0 ≤ (apiBucket redisEnabled rpm).rate := by
    rw [apiBucket_rate]
    exact Nat.cast_nonneg _
  obtain ⟨hsorted, hstart⟩ := times_pairwise htimed k
  rw [outcomes_eq hrpm htimed (idle_empty k t), ← apiBucket_capacity redisEnabled hrpm,
    ← apiBucket_rate redisEnabled]
  refine admitted_le_of_window hr hC (apiClock_mono (by linarith)) (fun x hx => ?_)
    (hsorted.imp apiClock_mono) (fun x hx => apiClock_mono (hstart x hx)) hC
  obtain ⟨h1, h2⟩ := of_decide_eq_true hx
  exact ⟨apiClock_mono h1, apiClock_mono h2⟩

lemma bounded_memory (hrpm : 60 ≤ rpm) {m : ℚ} (hm : 0 ≤ m) : Bounded false rpm m := by
  intro k t es a htimed
  have hle : ((rpm / 60 : ℕ) : ℚ) * 60 ≤ rpm := by exact_mod_cast (by omega : rpm / 60 * 60 ≤ rpm)
  have hclock : apiClock false (a + 60 * m) - apiClock false a = 60 * m := by
    show a + 60 * m - a = 60 * m
    ring
  have hbound := admitted_period false (k := k) (a := a) hrpm hm htimed
  rw [hclock, ← mul_assoc] at hbound
  have := mul_le_mul_of_nonneg_right hle hm
  linarith

def pulses (r : ℕ) : ℕ → List ℚ
  | 0 => []
  | n + 1 => pulses r n ++ replicate r ((n + 1 : ℕ) : ℚ)

lemma mem_pulses {r n : ℕ} {x : ℚ} (h : x ∈ pulses r n) : 1 ≤ x ∧ x ≤ n := by
  induction n with
  | zero => cases h
  | succ n ih =>
    rcases mem_append.mp h with h | h
    · obtain ⟨h1, h2⟩ := ih h
      push_cast
      exact ⟨h1, by linarith⟩
    · obtain rfl := eq_of_mem_replicate h
      exact ⟨by exact_mod_cast Nat.succ_le_succ (Nat.zero_le n), le_rfl⟩

lemma pulses_pairwise (r n : ℕ) : (pulses r n).Pairwise (· ≤ ·) := by
  induction n with
  | zero => exact List.Pairwise.nil
  | succ n ih =>
    refine pairwise_append.mpr ⟨ih, pairwise_replicate.mpr (Or.inr le_rfl), ?_⟩
    intro x hx y hy
    obtain rfl := eq_of_mem_replicate hy
    have := (mem_pulses hx).2
    push_cast
    linarith

lemma length_pulses (r n : ℕ) : (pulses r n).length = n * r := by
  induction n with
  | zero => simp [pulses]
  | succ n ih => rw [pulses, length_append, ih, length_replicate, Nat.succ_mul]

lemma serve_pulses {B : Bucket ℚ} {r : ℕ} (hr : B.rate = r) (hC : (r : ℚ) ≤ B.capacity)
    {s : Level ℚ} (hs : B.tokensAt s 0 = 0) (n : ℕ) :
    (∀ p ∈ B.serve (apiClock true) s (pulses r n), p.2 = true) ∧
      B.tokensAt (B.after (apiClock true) s (pulses r n)) n = 0 := by
  induction n with
  | zero => exact ⟨fun p hp => (by cases hp), by exact_mod_cast hs⟩
  | succ n ih =>
    obtain ⟨hall, hempty⟩ := ih
    have hclock : apiClock true ((n + 1 : ℕ) : ℚ) = (n + 1 : ℕ) := by
      show ((⌊((n + 1 : ℕ) : ℚ)⌋ : ℤ) : ℚ) = _
      rw [Int.floor_natCast, Int.cast_natCast]
    have hr0 : 0 ≤ B.rate := by
      rw [hr]
      exact Nat.cast_nonneg _
    have hnext : B.tokensAt (B.after (apiClock true) s (pulses r n))
        (apiClock true (n + 1 : ℕ)) = r := by
      rw [hclock, tokensAt_later hr0 (t := n) (by exact_mod_cast Nat.le_succ n), hempty, hr]
      push_cast
      rw [add_sub_cancel_left, mul_one, zero_add]
      exact min_eq_right hC
    obtain ⟨hpulse, hafter⟩ := serve_replicate (apiClock true) hnext.ge
    rw [hnext, sub_self, hclock] at hafter
    rw [pulses, serve_append, after_append]
    refine ⟨fun p hp => ?_, hafter⟩
    rcases mem_append.mp hp with hp | hp
    · exact hall p hp
    · exact hpulse p hp

lemma bounded_redis (hrpm : 60 ≤ rpm) {m : ℚ} (hm : 0 ≤ m) :
    Bounded true rpm m ↔ ((rpm / 60 : ℕ) : ℚ) * ⌈60 * m⌉ ≤ rpm * m := by
  have hceil : (0 : ℤ) ≤ ⌈60 * m⌉ := Int.ceil_nonneg (by linarith)
  constructor
  · intro hbounded
    -- the burst at the end of one second, and a pulse at each of the next ones
    obtain ⟨n, hn⟩ := Int.eq_ofNat_of_zero_le hceil
    have hnq : (⌈60 * m⌉ : ℚ) = n := by exact_mod_cast hn
    set r := rpm / 60 with hr
    set burst := (newAPILimiter true rpm).burst with hburst
    have hcap := apiBucket_capacity true hrpm
    have hle := Int.le_ceil (60 * m)
    have hlt := Int.ceil_lt_add_one (60 * m)
    rw [hnq] at hle hlt
    let a : ℚ := n - 60 * m
    have ha0 : 0 ≤ a := sub_nonneg.mpr hle
    have ha1 : a < 1 := by linarith
    have haclock : apiClock true a = 0 := by
      show ((⌊a⌋ : ℤ) : ℚ) = 0
      rw [Int.floor_eq_zero_iff.mpr ⟨ha0, ha1⟩, Int.cast_zero]
    let ts : List ℚ := replicate burst a ++ pulses r n
    have hsorted : (a :: ts).Pairwise (· ≤ ·) := by
      have hts : a :: ts = replicate (burst + 1) a ++ pulses r n := rfl
      rw [hts, pairwise_append]
      refine ⟨pairwise_replicate.mpr (Or.inr le_rfl), pulses_pairwise r n, fun x hx y hy => ?_⟩
      rw [eq_of_mem_replicate hx]
      exact ha1.le.trans (mem_pulses hy).1
    have htimed : Timed a (ts.map (Event.request "")) := timed_requests.mpr hsorted
    have hbound := hbounded "" a _ a htimed
    rw [outcomes_eq hrpm htimed (idle_empty "" a), times_requests, haclock, hcap] at hbound
    have hfull : (apiBucket true rpm).tokensAt ⟨burst, 0⟩ (apiClock true a) = burst := by
      rw [haclock]
      exact tokensAt_self hcap.ge
    obtain ⟨hall, hafter⟩ := serve_replicate (apiClock true) hfull.ge
    rw [hfull, sub_self, haclock] at hafter
    have hrcap : ((r : ℕ) : ℚ) ≤ (apiBucket true rpm).capacity := by
      have := ten_le_capacity true rpm
      linarith
    obtain ⟨hall', -⟩ := serve_pulses (apiBucket_rate true rpm) hrcap hafter n
    have hcount : admitted (inPeriod a m)
        ((apiBucket true rpm).serve (apiClock true) ⟨burst, 0⟩ ts) =
        ts.length := admitted_of_all
      (fun p hp => by
        rw [serve_append] at hp
        rcases mem_append.mp hp with hp | hp
        · exact hall p hp
        · exact hall' p hp)
      (fun x hmem => by
        have hend : a + 60 * m = n := sub_add_cancel _ _
        refine decide_eq_true ⟨(pairwise_cons.mp hsorted).1 x hmem, ?_⟩
        rw [hend]
        rcases mem_append.mp hmem with hmem | hmem
        · rw [eq_of_mem_replicate hmem]
          linarith
        · exact (mem_pulses hmem).2)
    rw [hcount, length_append, length_replicate, length_pulses] at hbound
    rw [hnq]
    push_cast at hbound
    linarith
  · intro hle k t es a htimed
    have hbound := admitted_period true (k := k) (a := a) hrpm hm htimed
    have hclock : apiClock true (a + 60 * m) - apiClock true a ≤ ⌈60 * m⌉ := by
      have hfloor : ⌊a + 60 * m⌋ ≤ ⌊a⌋ + ⌈60 * m⌉ := by
        refine Int.le_of_lt_add_one (Int.floor_lt.mpr ?_)
        have h1 := Int.lt_floor_add_one a
        have h2 := Int.le_ceil (60 * m)
        push_cast
        linarith
      have hfloor : (⌊a + 60 * m⌋ : ℚ) ≤ ⌊a⌋ + ⌈60 * m⌉ := by exact_mod_cast hfloor
      show (⌊a + 60 * m⌋ : ℚ) - ⌊a⌋ ≤ ⌈60 * m⌉
      linarith
    have := mul_le_mul_of_nonneg_left hclock (Nat.cast_nonneg (rpm / 60))
    linarith

end

/-- **The API limiter**: evenly spaced requests are never rejected exactly at multiples of 60. -/
theorem apiLimiter_iff (rpm : ℕ) (hrpm : 60 ≤ rpm) :
    (∀ redisEnabled, NeverRejected redisEnabled rpm ↔ 60 ∣ rpm) ∧
      (∀ m : ℚ, 0 ≤ m → Bounded false rpm m) ∧
      ∀ m : ℚ, 0 ≤ m → (Bounded true rpm m ↔ ((rpm / 60 : ℕ) : ℚ) * ⌈60 * m⌉ ≤ rpm * m) :=
  ⟨fun _ => neverRejected_iff hrpm, fun _ => bounded_memory hrpm, fun _ => bounded_redis hrpm⟩

/-- At 120 per minute evenly spaced requests are never rejected. -/
theorem apiLimiter_120 : 60 ≤ 120 ∧ (∀ redisEnabled, NeverRejected redisEnabled 120) ∧
    Bounded true 120 1 := by
  obtain ⟨heven, -, hredis⟩ := apiLimiter_iff 120 (by norm_num)
  refine ⟨by norm_num, fun redisEnabled => (heven redisEnabled).mpr (by norm_num), ?_⟩
  refine (hredis 1 zero_le_one).mpr ?_
  have hceil : ⌈(60 * 1 : ℚ)⌉ = 60 := by norm_num
  norm_num

/-- At 119 per minute memory rejects the 20th of evenly spaced requests, and Redis the 38th. -/
theorem evenly_119_rejected : let verdicts (redisEnabled : Bool) (n : ℕ) : List Bool :=
      (outcomes (newAPILimiter redisEnabled 119) "k" {}
        ((evenly 119 0 n).map (Event.request "k"))).map Prod.snd
    verdicts false 20 = replicate 19 true ++ [false] ∧
      verdicts true 38 = replicate 37 true ++ [false] := by
  decide +kernel

end Tokilake.Limit.Api
