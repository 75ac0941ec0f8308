import Tokilake.Lib.TokenBucket
import Mathlib.Data.Rat.Floor

/-! # The limiter in memory

`MemoryLimiter` keeps for each key a window with a count or a token bucket, and a cleanup removes
old entries.  Times and tokens are rational numbers.

* `sim_allow`, `sim_cleanup`: a run with cleanups simulates a bucket that forgets nothing. -/

namespace Tokilake.Limit.Memory

open Lib.TokenBucket

/-- A bucket holds ten seconds of its rate. -/
def tokenBurstMultiplier : ℕ := 10

/-- A limiter: `rate` per window, or per second for a token bucket. -/
structure MemoryLimiter where
  rate : ℕ
  rpm : ℕ
  window : ℚ
  burst : ℕ
  isTokenBucket : Bool
  deriving DecidableEq

@[simp] def newMemoryLimiter (rate rpm : ℕ) (window : ℚ) (useTokenBucket : Bool) : MemoryLimiter :=
  { rate, rpm, window, isTokenBucket := useTokenBucket
    burst := if useTokenBucket then rate * tokenBurstMultiplier else 0 }

/-- The count of a key since the begin of its window. -/
structure WindowData where
  count : ℕ
  windowStart : ℚ
  lastUpdated : ℚ
  deriving DecidableEq

/-- The tokens of a key, with its requests in the current minute. -/
structure TokenData where
  tokens : ℚ
  lastUpdate : ℚ
  rpm : ℕ
  lastMinute : ℤ
  counter : ℕ
  lastUpdated : ℚ
  deriving DecidableEq

/-- The entries of all keys; a limiter uses one of the two maps. -/
structure Store where
  windows : String → Option WindowData := fun _ => none
  tokens : String → Option TokenData := fun _ => none

/-! ### The functions of the limiter, for the entry of one key -/

variable (l : MemoryLimiter)

/-- The request that opens a window is always admitted. -/
def allowFixedWindow (now : ℚ) (n : ℕ) : Option WindowData → Bool × Option WindowData
  | none => (true, some ⟨n, now, now⟩)
  | some data =>
    if l.window ≤ now - data.windowStart then (true, some ⟨n, now, now⟩)
    else if data.count + n ≤ l.rate then
      (true, some { data with count := data.count + n, lastUpdated := now })
    else (false, some data)

/-- The begin of the minute, in seconds. -/
def minuteOf (now : ℚ) : ℤ := ⌊now⌋ / 60 * 60

/-- Adds the tokens of the time gone by, up to the burst, and counts the request. -/
def TokenData.refill (now : ℚ) (n : ℕ) (data : TokenData) : TokenData :=
  let newTokens := (now - data.lastUpdate) * l.rate
  let counter := if data.lastMinute < minuteOf now then n else data.counter + n
  { tokens := min l.burst (data.tokens + newTokens)
    lastUpdate := now
    rpm := counter
    lastMinute := if data.lastMinute < minuteOf now then minuteOf now else data.lastMinute
    counter
    lastUpdated := data.lastUpdated }

/-- A new key has a full bucket, and its first request is always admitted. -/
def allowTokenBucket (now : ℚ) (n : ℕ) : Option TokenData → Bool × Option TokenData
  | none =>
    (true, some
      { tokens := l.burst - n, lastUpdate := now, rpm := 0, lastMinute := minuteOf now, counter := n
        lastUpdated := now })
  | some data =>
    let data := data.refill l now n
    if (n : ℚ) ≤ data.tokens then
      (true, some { data with tokens := data.tokens - n, lastUpdated := now })
    else (false, some data)

/-- What a cleanup leaves of an entry. -/
def keep {δ : Type} (l : MemoryLimiter) (now : ℚ) (lastUpdated : δ → ℚ) : Option δ → Option δ
  | none => none
  | some data => if 2 * l.window < now - lastUpdated data then none else some data

/-- The periodic cleanup. -/
def removeExpiredEntries (now : ℚ) (store : Store) : Store :=
  if l.isTokenBucket then
    { store with tokens := fun key => keep l now TokenData.lastUpdated (store.tokens key) }
  else { store with windows := fun key => keep l now WindowData.lastUpdated (store.windows key) }

/-- `AllowN`: the verdict, and the entries after it. -/
def allowN (key : String) (n : ℕ) (now : ℚ) (store : Store) : Bool × Store :=
  if l.isTokenBucket then
    let r := allowTokenBucket l now n (store.tokens key)
    (r.1, { store with tokens := Function.update store.tokens key r.2 })
  else
    let r := allowFixedWindow l now n (store.windows key)
    (r.1, { store with windows := Function.update store.windows key r.2 })

lemma allowFixedWindow_of_over {l : MemoryLimiter} {now : ℚ} {n : ℕ} {entry : Option WindowData}
    (h : ∀ data ∈ entry, l.window ≤ now - data.windowStart) :
    allowFixedWindow l now n entry = (true, some ⟨n, now, now⟩) := by
  cases entry with
  | none => rfl
  | some data => exact if_pos (h data rfl)

lemma mem_keep {δ : Type} {l : MemoryLimiter} {now : ℚ} {lastUpdated : δ → ℚ} {entry : Option δ}
    {data : δ} (h : data ∈ keep l now lastUpdated entry) : data ∈ entry := by
  cases entry with
  | none => exact h
  | some data' =>
    rw [keep] at h
    split_ifs at h
    · cases h
    · exact h

/-! ### The entry as a bucket -/

section
variable {l : MemoryLimiter} {now t : ℚ} {entry : Option TokenData} {s : Level ℚ}

/-- The bucket that a limiter is meant to be. -/
def bucket (l : MemoryLimiter) : Bucket ℚ := ⟨l.burst, l.rate⟩

/-- The tokens of an entry at `t`; no entry is a full bucket. -/
def tokensOf (l : MemoryLimiter) (t : ℚ) : Option TokenData → ℚ
  | none => l.burst
  | some data => (bucket l).tokensAt ⟨data.tokens, data.lastUpdate⟩ t

/-- What an entry keeps in line with its last admitted request. -/
structure Sane (l : MemoryLimiter) (now : ℚ) (data : TokenData) : Prop where
  le_now : data.lastUpdate ≤ now
  updated_le : data.lastUpdated ≤ data.lastUpdate
  tokens_ge : min (l.burst : ℚ) (l.rate * (data.lastUpdate - data.lastUpdated)) ≤ data.tokens

/-- From `now` on the entry has the tokens of the level `s`. -/
structure Sim (l : MemoryLimiter) (now : ℚ) (entry : Option TokenData) (s : Level ℚ) : Prop where
  sane : ∀ data ∈ entry, Sane l now data
  same : ∀ t, now ≤ t → tokensOf l t entry = (bucket l).tokensAt s t

lemma Sim.mono {now' : ℚ} (h : Sim l now entry s) (hle : now ≤ now') : Sim l now' entry s := by
  refine ⟨fun data hdata => ?_, fun t ht => h.same t (hle.trans ht)⟩
  obtain ⟨h1, h2, h3⟩ := h.sane data hdata
  exact ⟨h1.trans hle, h2, h3⟩

lemma Sane.le_tokensAt {data : TokenData} (h : Sane l now data) (ht : data.lastUpdate ≤ t) :
    min (l.burst : ℚ) (l.rate * (t - data.lastUpdated)) ≤
      (bucket l).tokensAt ⟨data.tokens, data.lastUpdate⟩ t := by
  have hgain : 0 ≤ (l.rate : ℚ) * (t - data.lastUpdate) :=
    mul_nonneg (Nat.cast_nonneg _) (sub_nonneg.mpr ht)
  have hsplit : (l.rate : ℚ) * (t - data.lastUpdated) =
      l.rate * (data.lastUpdate - data.lastUpdated) + l.rate * (t - data.lastUpdate) := by ring
  refine le_min (min_le_left _ _) ?_
  calc min (l.burst : ℚ) (l.rate * (t - data.lastUpdated))
      ≤ min (l.burst + l.rate * (t - data.lastUpdate) : ℚ) (l.rate * (t - data.lastUpdated)) :=
        min_le_min_right _ (le_add_of_nonneg_right hgain)
    _ = min (l.burst : ℚ) (l.rate * (data.lastUpdate - data.lastUpdated)) +
          l.rate * (t - data.lastUpdate) := by rw [hsplit, min_add_add_right]
    _ ≤ data.tokens + l.rate * (t - data.lastUpdate) := by linarith [h.tokens_ge]

lemma sim_none (l : MemoryLimiter) (now : ℚ) : Sim l now none ⟨l.burst, now⟩ := by
  refine ⟨fun data hdata => (by cases hdata), fun t ht => ?_⟩
  have hgain : 0 ≤ (l.rate : ℚ) * (t - now) := mul_nonneg (Nat.cast_nonneg _) (sub_nonneg.mpr ht)
  exact (min_eq_left (le_add_of_nonneg_right hgain)).symm

lemma sim_some {data : TokenData} (hnow : data.lastUpdate = now)
    (hupd : data.lastUpdated ≤ now)
    (htok : min (l.burst : ℚ) (l.rate * (now - data.lastUpdated)) ≤ data.tokens) :
    Sim l now (some data) ⟨data.tokens, now⟩ := by
  subst hnow
  refine ⟨fun data' hdata' => ?_, fun t _ => rfl⟩
  cases hdata'
  exact ⟨le_rfl, hupd, htok⟩

lemma sim_allow (hburst : 1 ≤ l.burst) (h : Sim l now entry s) :
    (allowTokenBucket l now 1 entry).1 = ((bucket l).offer s now).1 ∧
      Sim l now (allowTokenBucket l now 1 entry).2 ((bucket l).offer s now).2 := by
  have hnow := h.same now le_rfl
  have hzero : ∀ x : ℚ, 0 ≤ x → min (l.burst : ℚ) (l.rate * (now - now)) ≤ x := by
    intro x hx
    rw [sub_self, mul_zero]
    exact (min_le_right _ _).trans hx
  cases entry with
  | none =>
    have hfull : (bucket l).tokensAt s now = l.burst := hnow.symm
    have hb : (1 : ℚ) ≤ l.burst := by exact_mod_cast hburst
    rw [offer_of_le (by rw [hfull]; exact hb), hfull]
    refine ⟨rfl, ?_⟩
    have hsome : Sim l now (some ⟨l.burst - 1, now, 0, minuteOf now, 1, now⟩) _ :=
      sim_some rfl le_rfl (hzero _ (by linarith))
    simpa [allowTokenBucket] using hsome
  | some data =>
    have hsane := h.sane data rfl
    have hrefill : (data.refill l now 1).tokens = (bucket l).tokensAt s now := by
      rw [← hnow, tokensOf, Bucket.tokensAt, bucket, TokenData.refill, mul_comm]
    rw [allowTokenBucket]
    by_cases h1 : 1 ≤ (bucket l).tokensAt s now
    · rw [offer_of_le h1, if_pos (by rw [hrefill]; exact_mod_cast h1), hrefill, Nat.cast_one]
      exact ⟨rfl, sim_some rfl le_rfl (hzero _ (sub_nonneg.mpr h1))⟩
    rw [offer_of_lt (not_le.mp h1), if_neg (by rw [hrefill]; exact_mod_cast h1)]
    refine ⟨rfl, ?_⟩
    have hkept : min (l.burst : ℚ) (l.rate * (now - data.lastUpdated)) ≤
        (data.refill l now 1).tokens := by
      rw [hrefill, ← hnow]
      exact hsane.le_tokensAt hsane.le_now
    rw [← hrefill]
    exact sim_some rfl (hsane.updated_le.trans hsane.le_now) hkept

/-- **A cleanup** removes only entries with a full bucket. -/
theorem sim_cleanup (hburst : (l.burst : ℚ) ≤ l.rate * (2 * l.window)) (h : Sim l now entry s) :
    Sim l now (keep l now TokenData.lastUpdated entry) s := by
  cases entry with
  | none => exact h
  | some data =>
    rw [keep]
    split_ifs with hold
    · refine ⟨fun data' hdata' => (by cases hdata'), fun t ht => ?_⟩
      have hsane := h.sane data rfl
      rw [← h.same t ht]
      refine le_antisymm ?_ (tokensAt_le _ _)
      refine le_trans (le_min le_rfl ?_) (hsane.le_tokensAt (hsane.le_now.trans ht))
      exact hburst.trans (mul_le_mul_of_nonneg_left (by linarith) (Nat.cast_nonneg _))
    · exact h

end

end Tokilake.Limit.Memory
