import Tokilake.Limit.Api

/-! # Limiters that decide alike

Two limiters decide alike if every request of a run gets the same verdict from both.

* `memory_bucket_bounded`: the bucket admits no more than its curve;
* `sameDecisions_iff`: when memory and Redis decide alike. -/

namespace Tokilake.Limit.Parity

open Lib.TokenBucket Limit.Redis Limit.Api List
open Limit.Memory hiding Store

section
variable {k : String} {t : ℚ} {es : List Event}

lemma timed_mono {t' : ℚ} (h : Timed t es) (hle : t' ≤ t) : Timed t' es := by
  obtain ⟨hfirst, hrest⟩ := pairwise_cons.mp h
  exact pairwise_cons.mpr ⟨fun x hx => hle.trans (hfirst x hx), hrest⟩

/-! ### Cleanups -/

def isRequest : Event → Bool
  | .request _ _ => true
  | .cleanup _ => false

lemma times_filter (k : String) (es : List Event) : times k (es.filter isRequest) = times k es := by
  induction es with
  | nil => rfl
  | cons e es ih =>
    cases e with
    | request key t => rw [filter_cons_of_pos rfl, times, times, ih]
    | cleanup t => exact ih

lemma timed_filter (h : Timed t es) : Timed t (es.filter isRequest) :=
  h.sublist ((filter_sublist.map _).cons_cons _)

/-- **A token bucket in memory** keeps its bound, and its cleanups change no verdict. -/
theorem memory_bucket_bounded {rate : ℕ} (rpm : ℕ) (hrate : 1 ≤ rate) (k : String)
    (htimed : Timed t es) : let l := newMemoryLimiter rate rpm window true
    (∀ a b, a ≤ b → (admitted (fun x => decide (a ≤ x ∧ x ≤ b))
      (outcomes (.memory l) k {} es) : ℚ) ≤
        l.burst + rate * (b - a)) ∧
      outcomes (.memory l) k {} es = outcomes (.memory l) k {} (es.filter isRequest) := by
  intro l
  have hserve : ∀ {es'}, Timed t es' →
      outcomes (.memory l) k {} es' = (Memory.bucket l).serve id ⟨l.burst, t⟩ (times k es') :=
    fun h => outcomes_memory hrate h (Memory.sim_none l t)
  refine ⟨fun a b hab => ?_, ?_⟩
  · obtain ⟨hsorted, hstart⟩ := times_pairwise htimed k
    rw [hserve htimed]
    exact admitted_le_of_window (B := Memory.bucket l) (Nat.cast_nonneg _) (Nat.cast_nonneg _) hab
      (fun x hx => of_decide_eq_true hx) hsorted hstart (Nat.cast_nonneg _)
  · rw [hserve htimed, hserve (timed_filter htimed), times_filter]

/-- Eleven requests at once and one a second later, with a cleanup in between. -/
theorem memory_bucket_bounded_one :
    Timed 0 ((replicate 11 (Event.request "k" 0)) ++ [.cleanup 1, .request "k" 1]) ∧
      (admitted (fun x => decide (0 ≤ x ∧ x ≤ 1)) (outcomes
        (.memory (newMemoryLimiter 1 1 window true)) "k" {}
        ((replicate 11 (Event.request "k" 0)) ++ [.cleanup 1, .request "k" 1])) : ℚ) ≤
          (10 : ℕ) + (1 : ℕ) * (1 - 0) := by
  have htimed : Timed 0 ((replicate 11 (Event.request "k" 0)) ++ [.cleanup 1, .request "k" 1]) := by
    simp [Timed, replicate, Event.time]
  exact ⟨htimed, (memory_bucket_bounded 1 le_rfl "k" htimed).1 0 1 zero_le_one⟩

/-! ### Two limiters -/

/-- **The simulation rule** for two limiters: related stores give the same verdicts. -/
theorem outcomes_congr {L L' : Limiter} {R : ℚ → Store → Store → Prop}
    (hmono : ∀ {t t' a b}, R t a b → t ≤ t' → R t' a b)
    (hown : ∀ {t a b}, R t a b → (allow L k t a).1 = (allow L' k t b).1 ∧
      R t (allow L k t a).2 (allow L' k t b).2)
    (hother : ∀ {key t a b}, key ≠ k → R t a b → R t (allow L key t a).2 (allow L' key t b).2)
    (hclean : ∀ {t a b}, R t a b → R t (cleanup L t a) (cleanup L' t b))
    {a b : Store} (htimed : Timed t es) (h : R t a b) : outcomes L k a es = outcomes L' k b es := by
  induction es generalizing t a b with
  | nil => rfl
  | cons e es ih =>
    obtain ⟨hle, htimed⟩ := timed_cons.mp htimed
    replace h := hmono h hle
    cases e with
    | cleanup t' => exact ih htimed (hclean h)
    | request key t' =>
      dsimp only [Event.time] at htimed h
      rw [outcomes, outcomes]
      split_ifs with hkey
      · subst hkey
        obtain ⟨hverdict, hnext⟩ := hown h
        rw [hverdict]
        exact congrArg _ (ih htimed hnext)
      · exact ih htimed (hother hkey h)

/-! ### Windows -/

/-- From `t` on the entry and the cell mean the same window, or none; the cell also counts rejects.
-/
inductive Alike (rpm : ℕ) (t : ℚ) : Option WindowData → Option (Cell ℕ) → Prop
  | gone {entry : Option WindowData} {cell : Option (Cell ℕ)}
      (hentry : ∀ data ∈ entry, window ≤ t - data.windowStart) (hcell : get t cell = none) :
      Alike rpm t entry cell
  | counting {data : WindowData} {value : ℕ} (hstart : data.windowStart ≤ t)
      (hupdated : data.windowStart ≤ data.lastUpdated) (hcount : data.count = min value rpm)
      (hvalue : 1 ≤ value) :
      Alike rpm t (some data) (some ⟨value, data.windowStart + window⟩)

variable {rpm : ℕ} {entry : Option WindowData} {cell : Option (Cell ℕ)}

lemma Alike.mono {t' : ℚ} (h : Alike rpm t entry cell) (hle : t ≤ t') :
    Alike rpm t' entry cell := by
  cases h with
  | gone hentry hcell =>
    refine .gone (fun data hdata => ?_) (get_of_le hcell hle)
    have := hentry data hdata
    linarith
  | counting hstart hupdated hcount hvalue =>
    exact .counting (hstart.trans hle) hupdated hcount hvalue

lemma alike_fresh (hrpm : 1 ≤ rpm) (t : ℚ) : Alike rpm t (some ⟨1, t, t⟩) (some ⟨1, t + window⟩) :=
  @Alike.counting rpm t ⟨1, t, t⟩ 1 le_rfl le_rfl (min_eq_left hrpm).symm le_rfl

/-- **One request** gets the same verdict from both. -/
theorem alike_allow (hrpm : 1 ≤ rpm) (h : Alike rpm t entry cell) :
    (allowFixedWindow (newMemoryLimiter rpm rpm window false) t 1 entry).1 =
        (countScript ⟨rpm, rpm, window⟩ t 1 cell).1 ∧
      Alike rpm t (allowFixedWindow (newMemoryLimiter rpm rpm window false) t 1 entry).2
        (countScript ⟨rpm, rpm, window⟩ t 1 cell).2 := by
  have hnew : ∀ {entry cell}, (∀ data ∈ entry, window ≤ t - data.windowStart) → get t cell = none →
      allowFixedWindow (newMemoryLimiter rpm rpm window false) t 1 entry = (true, some ⟨1, t, t⟩) ∧
        countScript ⟨rpm, rpm, window⟩ t 1 cell = (true, some ⟨1, t + window⟩) := by
    intro entry cell hentry hcell
    exact ⟨allowFixedWindow_of_over hentry, by simp [countScript, hcell, hrpm]⟩
  cases h with
  | gone hentry hcell =>
    obtain ⟨h1, h2⟩ := hnew hentry hcell
    rw [h1, h2]
    exact ⟨rfl, alike_fresh hrpm t⟩
  | @counting data value hstart hupdated hcount hvalue =>
    by_cases hover : window ≤ t - data.windowStart
    · have hgone : get t (some (⟨value, data.windowStart + window⟩ : Cell ℕ)) = none :=
        if_neg (not_lt.mpr (by dsimp only; linarith))
      have hentry : ∀ d ∈ some data, window ≤ t - d.windowStart := fun d hd => by
        cases hd; exact hover
      obtain ⟨h1, h2⟩ := hnew hentry hgone
      rw [h1, h2]
      exact ⟨rfl, alike_fresh hrpm t⟩
    · have hlive : get t (some (⟨value, data.windowStart + window⟩ : Cell ℕ)) = some value :=
        if_pos (by dsimp only; linarith [not_le.mp hover])
      have hscript : countScript ⟨rpm, rpm, window⟩ t 1 (some ⟨value, data.windowStart + window⟩) =
          (decide (value + 1 ≤ rpm), some ⟨value + 1, data.windowStart + window⟩) := by
        have hne : value ≠ 0 := by omega
        simp [countScript, hlive, hne]
      have hmemory : allowFixedWindow (newMemoryLimiter rpm rpm window false) t 1 (some data) =
          if data.count + 1 ≤ rpm then
            (true, some { data with count := data.count + 1, lastUpdated := t })
          else (false, some data) := if_neg hover
      rw [hscript, hmemory]
      split_ifs with hroom
      · have hvalue' : value + 1 ≤ rpm := by omega
        refine ⟨(decide_eq_true hvalue').symm, ?_⟩
        exact @Alike.counting rpm t
          { data with count := data.count + 1, lastUpdated := t } _ hstart hstart
          (by dsimp only; omega) (by omega)
      · have hvalue' : ¬value + 1 ≤ rpm := by omega
        exact ⟨(decide_eq_false hvalue').symm, .counting hstart hupdated (by omega) (by omega)⟩

lemma alike_cleanup (h : Alike rpm t entry cell) :
    Alike rpm t (keep
      (newMemoryLimiter rpm rpm window false) t WindowData.lastUpdated entry) cell := by
  cases h with
  | gone hentry hcell => exact .gone (fun data hdata => hentry data (mem_keep hdata)) hcell
  | @counting data value hstart hupdated hcount hvalue =>
    rw [keep]
    split_ifs with hold
    · refine .gone (fun data' hdata => by cases hdata) (if_neg (not_lt.mpr ?_))
      change 2 * window < t - data.lastUpdated at hold
      linarith
    · exact .counting hstart hupdated hcount hvalue

lemma newAPILimiter_window (h : rpm < 60) :
    newAPILimiter false rpm = .memory (newMemoryLimiter rpm rpm window false) := by
  simp [newAPILimiter, rpmThreshold, h]

lemma outcomes_window (hrpm : 1 ≤ rpm) (hlow : rpm < 60) (htimed : Timed t es) :
    outcomes (newAPILimiter false rpm) k {} es = outcomes (newAPILimiter true rpm) k {} es := by
  have hcount : newAPILimiter true rpm = .count ⟨rpm, rpm, window⟩ := by
    simp [newAPILimiter, rpmThreshold, hlow]
  rw [newAPILimiter_window hlow, hcount]
  refine outcomes_congr (R := fun t a b => Alike rpm t (a.memory.windows k) (b.counts k)) Alike.mono
    (fun h => ?_) (fun hkey h => ?_) alike_cleanup htimed
      (.gone (fun data hdata => by cases hdata) rfl)
  · have := alike_allow hrpm h
    simpa [allow, allowN] using this
  · simpa [allow, allowN, Function.update_of_ne hkey.symm] using h

/-! ### Buckets -/

lemma serve_clock_congr {B : Bucket ℚ} {clock clock' : ℚ → ℚ} {xs : List ℚ}
    (h : ∀ x ∈ xs, clock x = clock' x) (s : Level ℚ) :
    B.serve clock s xs = B.serve clock' s xs := by
  induction xs generalizing s with
  | nil => rfl
  | cons x xs ih =>
    rw [Bucket.serve, Bucket.serve, h x mem_cons_self]
    exact congrArg _ (ih (fun y hy => h y (mem_cons_of_mem _ hy)) _)

lemma outcomes_bucket (hrpm : 60 ≤ rpm) (hmod : rpm % 60 < 6) (htimed : Timed t es)
    (hwhole : ∀ x ∈ times k es, x = ⌊x⌋) :
    outcomes (newAPILimiter false rpm) k {} es = outcomes (newAPILimiter true rpm) k {} es := by
  have hsize : rpm / 60 * 10 = rpm / 6 := by omega
  have hbucket : apiBucket false rpm = apiBucket true rpm := by
    show Bucket.mk ((rpm / 60 * 10 : ℕ) : ℚ) _ = Bucket.mk ((rpm / 6 : ℕ) : ℚ) _
    rw [hsize]
    rfl
  have htimed' := timed_mono htimed (Int.floor_le t)
  have hclock : apiClock false (⌊t⌋ : ℚ) = apiClock true (⌊t⌋ : ℚ) := by
    show (⌊t⌋ : ℚ) = (⌊(⌊t⌋ : ℚ)⌋ : ℤ)
    rw [Int.floor_intCast]
  rw [outcomes_eq hrpm htimed' (idle_empty k _), outcomes_eq hrpm htimed' (idle_empty k _), hbucket,
    hclock]
  exact serve_clock_congr hwhole _

lemma bursts_differ (hrpm : 60 ≤ rpm) (hmod : 6 ≤ rpm % 60) :
    let es := (replicate (rpm / 60 * 10 + 1) 0).map (Event.request "")
    outcomes (newAPILimiter false rpm) "" {} es ≠ outcomes (newAPILimiter true rpm) "" {} es := by
  intro es heq
  have htimed : Timed 0 es := timed_requests.mpr
    (pairwise_replicate_of_refl (n := rpm / 60 * 10 + 2))
  have htimes : times "" es = replicate (rpm / 60 * 10 + 1) 0 := times_requests _ _
  have hroom : ((rpm / 60 * 10 + 1 : ℕ) : ℚ) ≤
      (apiBucket true rpm).tokensAt ⟨(apiBucket true rpm).capacity, apiClock true 0⟩
        (apiClock true 0) := by
    rw [tokensAt_self le_rfl]
    show ((rpm / 60 * 10 + 1 : ℕ) : ℚ) ≤ (rpm / 6 : ℕ)
    exact_mod_cast (by omega : rpm / 60 * 10 + 1 ≤ rpm / 6)
  have hall := (serve_replicate (apiClock true) hroom).1
  rw [← htimes, ← outcomes_eq hrpm htimed (idle_empty "" 0), ← heq] at hall
  have hbound := admitted_period false (k := "") (a := 0) hrpm le_rfl htimed
  rw [outcomes_eq hrpm htimed (idle_empty "" 0), htimes] at hall hbound
  rw [admitted_of_all hall fun x hx => by rw [eq_of_mem_replicate hx]; norm_num [inPeriod],
    length_replicate, newAPILimiter_memory hrpm] at hbound
  change ((rpm / 60 * 10 + 1 : ℕ) : ℚ) ≤ (rpm / 60 * 10 : ℕ) + _ * ((0 + 60 * 0) - 0) at hbound
  push_cast at hbound
  linarith

end

def SameDecisions (rpm : ℕ) : Prop :=
  ∀ k t es, Timed t es → (∀ x ∈ times k es, x = (⌊x⌋ : ℚ)) →
    outcomes (newAPILimiter false rpm) k {} es = outcomes (newAPILimiter true rpm) k {} es

/-- **Memory and Redis decide alike** for windows with room and buckets rounded to one size. -/
theorem sameDecisions_iff (rpm : ℕ) : SameDecisions rpm ↔ 1 ≤ rpm ∧ (rpm < 60 ∨ rpm % 60 < 6) := by
  constructor
  · intro h
    by_contra hnot
    have hcases : rpm = 0 ∨ 60 ≤ rpm ∧ 6 ≤ rpm % 60 := by omega
    rcases hcases with rfl | ⟨hrpm, hmod⟩
    · have := h "" 0 [.request "" 0] (by simp [Timed, Event.time]) (by simp [times])
      revert this
      decide +kernel
    refine bursts_differ hrpm hmod (h _ 0 _ ?_ ?_)
    · exact timed_requests.mpr (pairwise_replicate_of_refl (n := rpm / 60 * 10 + 2))
    · intro x hx
      rw [times_requests] at hx
      rw [eq_of_mem_replicate hx, Int.floor_zero, Int.cast_zero]
  · rintro ⟨hpos, hmod⟩ k t es htimed hwhole
    by_cases hlow : rpm < 60
    · exact outcomes_window hpos hlow htimed
    · exact outcomes_bucket (not_lt.mp hlow) (by omega) htimed hwhole

/-- With a limit of zero the first request differs, with 66 per minute the eleventh at once. -/
theorem memory_and_redis_differ : let verdicts (redisEnabled : Bool) (rpm n : ℕ) : List Bool :=
      (outcomes (newAPILimiter redisEnabled rpm) "k" {}
        ((replicate n 0).map (Event.request "k"))).map Prod.snd
    verdicts false 0 1 = [true] ∧ verdicts true 0 1 = [false] ∧
      verdicts false 66 11 = replicate 10 true ++ [false] ∧
      verdicts true 66 11 = replicate 11 true := by
  decide +kernel

end Tokilake.Limit.Parity
