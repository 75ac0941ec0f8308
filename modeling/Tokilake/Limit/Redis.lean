import Tokilake.Lib.TokenBucket
import Mathlib.Data.Rat.Floor

/-! # The limiters in Redis

`TokenLimiter` keeps a bucket in four cells that expire, in whole seconds; `CountLimiter` counts a
window in one cell.  A request at `t` finds the cells that expire after `t`.

* `sim_reserveN`: the cells simulate a bucket that does not expire. -/

namespace Tokilake.Limit.Redis

open Lib.TokenBucket

/-! ### The scripts -/

structure Cell (δ : Type) where
  value : δ
  expires : ℚ
  deriving DecidableEq

def get {δ : Type} (t : ℚ) : Option (Cell δ) → Option δ
  | none => none
  | some c => if t < c.expires then some c.value else none

structure CountLimiter where
  rate : ℕ
  rpm : ℕ
  window : ℚ
  deriving DecidableEq

def countScript (l : CountLimiter) (t : ℚ) (n : ℕ) (cell : Option (Cell ℕ)) :
    Bool × Option (Cell ℕ) :=
  let count := (get t cell).getD 0 + n
  -- the first request of a window sets the expiry
  let expires := if count = n then t + l.window else (cell.map Cell.expires).getD (t + l.window)
  (decide (count ≤ l.rate), some ⟨count, expires⟩)

structure TokenLimiter where
  rate : ℕ
  rpm : ℕ
  burst : ℕ
  deriving DecidableEq

structure TokenKeys where
  tokens : Option (Cell ℤ) := none
  timestamp : Option (Cell ℤ) := none
  counter : Option (Cell ℕ) := none
  lastMinute : Option (Cell ℤ) := none
  deriving DecidableEq

def TokenKeys.countRequest (t : ℚ) (now : ℤ) (keys : TokenKeys) : TokenKeys :=
  let requestCount := (get t keys.counter).getD 0
  let currentMinute := now - now % 60
  let fresh : TokenKeys :=
    { keys with counter := some ⟨1, t + 120⟩, lastMinute := some ⟨currentMinute, t + 120⟩ }
  match get t keys.lastMinute with
  | none => fresh
  | some lastMinute =>
    if lastMinute < currentMinute then fresh
    else { keys with counter := some ⟨requestCount + 1, t + 120⟩ }

variable (l : TokenLimiter)

def ttl : ℤ :=
  let fillTime : ℚ := l.burst / l.rate
  ⌊fillTime * 2⌋

def filledTokens (t : ℚ) (now : ℤ) (keys : TokenKeys) : ℤ :=
  let lastTokens := (get t keys.tokens).getD l.burst
  let lastRefreshed := (get t keys.timestamp).getD 0
  let delta := max 0 (now - lastRefreshed)
  min l.burst (lastTokens + delta * l.rate)

def TokenKeys.store (t : ℚ) (now tokens : ℤ) (keys : TokenKeys) : TokenKeys :=
  { keys with tokens := some ⟨tokens, t + ttl l⟩, timestamp := some ⟨now, t + ttl l⟩ }

def tokenScript (t : ℚ) (now : ℤ) (requested : ℕ) (keys : TokenKeys) : Bool × TokenKeys :=
  let filled := filledTokens l t now keys
  if (requested : ℤ) ≤ filled then
    (true, (keys.countRequest t now).store l t now (filled - requested))
  else (false, keys.store l t now filled)

def reserveN (t : ℚ) (n : ℕ) (keys : TokenKeys) : Bool × TokenKeys := tokenScript l t ⌊t⌋ n keys

/-! ### The cells as a bucket -/

section
variable {l : TokenLimiter} {now t : ℚ} {keys : TokenKeys} {s : Level ℚ}

def bucket (l : TokenLimiter) : Bucket ℚ := ⟨l.burst, l.rate⟩

structure Sim (l : TokenLimiter) (now : ℚ) (keys : TokenKeys) (s : Level ℚ) : Prop where
  nonneg : ∀ t, now ≤ t → 0 ≤ filledTokens l t ⌊t⌋ keys
  same : ∀ t, now ≤ t → (filledTokens l t ⌊t⌋ keys : ℚ) = (bucket l).tokensAt s ⌊t⌋

lemma Sim.mono {now' : ℚ} (h : Sim l now keys s) (hle : now ≤ now') : Sim l now' keys s :=
  ⟨fun t ht => h.nonneg t (hle.trans ht), fun t ht => h.same t (hle.trans ht)⟩

lemma filledTokens_none {second : ℤ} (h : get t keys.tokens = none) :
    filledTokens l t second keys = l.burst := by
  simp only [filledTokens, h, Option.getD_none]
  exact min_eq_left (le_add_of_nonneg_right (mul_nonneg (le_max_left _ _) (Int.natCast_nonneg _)))

lemma get_of_le {δ : Type} {cell : Option (Cell δ)} (h : get now cell = none) (ht : now ≤ t) :
    get t cell = none := by
  cases cell with
  | none => rfl
  | some c =>
    rw [get] at h ⊢
    split_ifs at h with hlt
    exact if_neg fun ht' => hlt (ht.trans_lt ht')

lemma sim_none (h : get now keys.tokens = none) : Sim l now keys ⟨l.burst, ⌊now⌋⟩ := by
  have hfull : ∀ t, now ≤ t → filledTokens l t ⌊t⌋ keys = l.burst := fun t ht =>
    filledTokens_none (get_of_le h ht)
  refine ⟨fun t ht => ?_, fun t ht => ?_⟩
  · rw [hfull t ht]
    exact Int.natCast_nonneg _
  · rw [hfull t ht]
    have hfloor : (⌊now⌋ : ℚ) ≤ ⌊t⌋ := by exact_mod_cast Int.floor_le_floor ht
    have hgain : 0 ≤ (l.rate : ℚ) * (⌊t⌋ - ⌊now⌋) :=
      mul_nonneg (Nat.cast_nonneg _) (sub_nonneg.mpr hfloor)
    exact (min_eq_left (le_add_of_nonneg_right hgain)).symm

lemma burst_le_ttl (hrate : 0 < l.rate) (hburst : l.rate ≤ l.burst) :
    (l.burst : ℚ) ≤ l.rate * ttl l := by
  have hr : (0 : ℚ) < l.rate := by exact_mod_cast hrate
  have hb : (l.rate : ℚ) ≤ l.burst := by exact_mod_cast hburst
  have hlt : (l.burst / l.rate * 2 : ℚ) - 1 < ttl l := Int.sub_one_lt_floor _
  have hmul : (l.rate : ℚ) * (l.burst / l.rate * 2 - 1) = 2 * l.burst - l.rate := by field_simp
  have := mul_lt_mul_of_pos_left hlt hr
  linarith

lemma sim_store (hrate : 0 < l.rate) (hburst : l.rate ≤ l.burst) {x : ℤ} (hx : 0 ≤ x) :
    Sim l now (keys.store l now ⌊now⌋ x) ⟨x, ⌊now⌋⟩ := by
  have hfilled : ∀ t, now ≤ t → (filledTokens l t ⌊t⌋ (keys.store l now ⌊now⌋ x) : ℚ) =
      (bucket l).tokensAt ⟨x, ⌊now⌋⟩ ⌊t⌋ := by
    intro t ht
    have hfloor := Int.floor_le_floor ht
    by_cases hlive : t < now + ttl l
    · have hdelta := max_eq_right (sub_nonneg.mpr hfloor)
      simp only [filledTokens, TokenKeys.store, get, if_pos hlive, Option.getD_some, hdelta,
        Bucket.tokensAt, bucket]
      push_cast
      rw [mul_comm]
    · -- the cells are gone, and the bucket is full again
      have hgone : get t (keys.store l now ⌊now⌋ x).tokens = none := if_neg hlive
      rw [filledTokens_none hgone, Int.cast_natCast]
      have hage : ttl l ≤ ⌊t⌋ - ⌊now⌋ := by
        have := Int.floor_le_floor (not_lt.mp hlive)
        rw [Int.floor_add_intCast] at this
        omega
      have hage' : (ttl l : ℚ) ≤ ⌊t⌋ - ⌊now⌋ := by exact_mod_cast hage
      have hx' : (0 : ℚ) ≤ x := by exact_mod_cast hx
      have hmul := mul_le_mul_of_nonneg_left hage' (Nat.cast_nonneg l.rate)
      refine (min_eq_left ?_).symm
      have := burst_le_ttl hrate hburst
      dsimp only [bucket]
      linarith
  refine ⟨fun t ht => ?_, hfilled⟩
  have hfloor : (⌊now⌋ : ℚ) ≤ ⌊t⌋ := by exact_mod_cast Int.floor_le_floor ht
  have hx' : (0 : ℚ) ≤ x := by exact_mod_cast hx
  have hnonneg : (0 : ℚ) ≤ (bucket l).tokensAt ⟨x, ⌊now⌋⟩ ⌊t⌋ :=
    le_min (Nat.cast_nonneg _)
      (add_nonneg hx' (mul_nonneg (Nat.cast_nonneg _) (sub_nonneg.mpr hfloor)))
  rw [← hfilled t ht] at hnonneg
  exact_mod_cast hnonneg

lemma sim_reserveN (hrate : 0 < l.rate) (hburst : l.rate ≤ l.burst) (h : Sim l now keys s) :
    (reserveN l now 1 keys).1 = ((bucket l).offer s ⌊now⌋).1 ∧
      Sim l now (reserveN l now 1 keys).2 ((bucket l).offer s ⌊now⌋).2 := by
  have hsame := h.same now le_rfl
  have hnonneg := h.nonneg now le_rfl
  unfold reserveN tokenScript
  by_cases h1 : 1 ≤ (bucket l).tokensAt s ⌊now⌋
  · have h1' : 1 ≤ filledTokens l now ⌊now⌋ keys := by
      rw [← hsame] at h1
      exact_mod_cast h1
    rw [offer_of_le h1, Nat.cast_one, if_pos h1', ← hsame]
    refine ⟨rfl, ?_⟩
    have hstore : Sim l now
        ((keys.countRequest now ⌊now⌋).store l now ⌊now⌋ (filledTokens l now ⌊now⌋ keys - 1)) _ :=
      sim_store hrate hburst (sub_nonneg.mpr h1')
    simpa using hstore
  · have h1' : ¬1 ≤ filledTokens l now ⌊now⌋ keys := by
      rw [← hsame] at h1
      exact_mod_cast h1
    rw [offer_of_lt (not_le.mp h1), Nat.cast_one, if_neg h1', ← hsame]
    exact ⟨rfl, sim_store hrate hburst hnonneg⟩

end

end Tokilake.Limit.Redis
