import Tokilake.Lib.Run
import Tokilake.Limit.Redis

/-! # The token bucket in Redis and several clocks

The script takes the time from its caller; the cells expire by the clock of the server.

* `skew_bounded`: what is admitted at most under clocks that differ. -/

namespace Tokilake.Limit.Skew

open Lib.Run Limit.Redis

variable (l : TokenLimiter)

/-- The script for one token.  `SETEX` fails if the lifetime is zero, and then nothing is admitted.
-/
def execute (t : ℚ) (now : ℤ) (keys : TokenKeys) : Bool × TokenKeys :=
  if 0 < ttl l then tokenScript l t now 1 keys
  else (false, if 1 ≤ filledTokens l t now keys then keys.countRequest t now else keys)

structure State where
  keys : TokenKeys := {}
  kept : TokenKeys := {}
  clock : ℚ := 0
  nows : List ℤ := []
  admitted : ℕ := 0
  agree : Bool := true

/-- A request that reaches the server a while after the one before, with the time of its gateway. -/
structure Event where
  wait : ℚ≥0
  now : ℤ

def step (s : State) (e : Event) : Option State :=
  let t := s.clock + e.wait
  let r := execute l t e.now s.keys
  -- on a clock that stands still nothing expires
  let r' := execute l 0 e.now s.kept
  some { keys := r.2, kept := r'.2, clock := t, nows := e.now :: s.nows
         admitted := s.admitted + r.1.toNat, agree := s.agree && r.1 == r'.1 }

structure Bounded (l : TokenLimiter) (s : State) : Prop where
  le : ∀ lo hi, lo ≤ hi → (∀ now ∈ s.nows, lo ≤ now ∧ now ≤ hi) →
    (s.admitted : ℤ) ≤ l.burst + l.rate * (hi - lo)
  agree : s.agree = true

/-- The gateway's time does not go back, and cells expire on the server after they do for it. -/
def Steady (s : State) (e : Event) : Prop :=
  ∀ last ∈ s.nows.head?, last ≤ e.now ∧ ((ttl l : ℚ) ≤ e.wait → last + ttl l ≤ e.now)

instance decidableSteady (s : State) (e : Event) : Decidable (Steady l s e) := by
  unfold Steady
  infer_instance

section
variable {l : TokenLimiter} {s s' : State} {e : Event}

lemma burst_le_lifetime (hrate : 0 < l.rate) (hlife : 0 < ttl l) :
    (l.burst : ℤ) ≤ l.rate * ttl l := by
  rcases le_total l.rate l.burst with hle | hle
  · exact_mod_cast burst_le_ttl hrate hle
  · have hle' : (l.burst : ℤ) ≤ l.rate := by exact_mod_cast hle
    have := mul_le_mul_of_nonneg_left (show 1 ≤ ttl l from hlife) (Int.natCast_nonneg l.rate)
    linarith

def Holds (l : TokenLimiter) (t : ℚ) (x last : ℤ) (keys : TokenKeys) : Prop :=
  keys.tokens = some ⟨x, t + ttl l⟩ ∧ keys.timestamp = some ⟨last, t + ttl l⟩

lemma filledTokens_of_live {t t' : ℚ} {x last now : ℤ} {keys : TokenKeys}
    (h : Holds l t x last keys)
    (hlive : t' < t + ttl l) (hnow : last ≤ now) :
    filledTokens l t' now keys = min (l.burst : ℤ) (x + (now - last) * l.rate) := by
  have hdelta := max_eq_right (sub_nonneg.mpr hnow)
  simp only [filledTokens, h.1, h.2, Redis.get, if_pos hlive, Option.getD_some, hdelta]

lemma execute_spec (hlife : 0 < ttl l) (t : ℚ) (now : ℤ) (keys : TokenKeys) :
    (execute l t now keys).1 = decide (1 ≤ filledTokens l t now keys) ∧
      Holds l t (filledTokens l t now keys - (execute l t now keys).1.toNat) now
        (execute l t now keys).2 := by
  rw [execute, if_pos hlife, tokenScript, Nat.cast_one]
  split_ifs with h
  · exact ⟨(decide_eq_true h).symm, rfl, rfl⟩
  · exact ⟨(decide_eq_false h).symm, by simp [TokenKeys.store], rfl⟩

/-- Both stores have the same tokens, and what was admitted is made up for by time. -/
inductive Inv (l : TokenLimiter) : State → Prop
  | start (clock : ℚ) : Inv l { clock }
  | on {s : State} {x lo last : ℤ} (hkeys : Holds l s.clock x last s.keys)
    (hkept : Holds l 0 x last s.kept)
      (hlast : s.nows.head? = some last) (hlo : lo ∈ s.nows) (hx : 0 ≤ x)
      (hspent : s.admitted + x ≤ l.burst + l.rate * (last - lo)) (hagree : s.agree = true) : Inv l s

/-- **A step** with the same tokens in both stores. -/
theorem inv_of_filled (hlife : 0 < ttl l) {lo : ℤ} (hlo : lo ∈ e.now :: s.nows)
    (hsame : filledTokens l (s.clock + e.wait) e.now s.keys = filledTokens l 0 e.now s.kept)
    (hnonneg : 0 ≤ filledTokens l 0 e.now s.kept)
    (hspent : s.admitted + filledTokens l 0 e.now s.kept ≤ l.burst + l.rate * (e.now - lo))
    (hagree : s.agree = true) (h : step l s e = some s') : Inv l s' := by
  obtain ⟨hverdict, hkeys⟩ := execute_spec hlife (s.clock + e.wait) e.now s.keys
  obtain ⟨hverdict', hkept⟩ := execute_spec hlife 0 e.now s.kept
  have heq : (execute l (s.clock + e.wait) e.now s.keys).1 = (execute l 0 e.now s.kept).1 := by
    rw [hverdict, hverdict', hsame]
  cases h
  rw [hsame, heq] at hkeys
  refine .on hkeys hkept rfl hlo ?_ ?_ ?_
  · rw [hverdict']
    by_cases h1 : 1 ≤ filledTokens l 0 e.now s.kept
    · simp [h1]
    · simpa [h1] using hnonneg
  · dsimp only
    rw [heq]
    push_cast
    linarith
  · simp [hagree, heq]

lemma inv_step (hrate : 0 < l.rate) (hlife : 0 < ttl l) (hs : Inv l s) (hsteady : Steady l s e)
    (h : step l s e = some s') : Inv l s' := by
  cases hs with
  | start clock =>
    have hfull : ∀ t, filledTokens l t e.now {} = l.burst := fun t => filledTokens_none rfl
    refine inv_of_filled hlife List.mem_cons_self ?_ ?_ ?_ rfl h
    · exact (hfull _).trans (hfull _).symm
    · exact (Int.natCast_nonneg _).trans_eq (hfull _).symm
    · simp [hfull]
  | @on _ x lo last hkeys hkept hlast hlo hx hspent hagree =>
    obtain ⟨hnow, hexpired⟩ := hsteady last hlast
    have hgain : 0 ≤ (e.now - last) * (l.rate : ℤ) :=
      mul_nonneg (sub_nonneg.mpr hnow) (Int.natCast_nonneg _)
    have hfilled : filledTokens l 0 e.now s.kept = min (l.burst : ℤ)
        (x + (e.now - last) * l.rate) :=
      filledTokens_of_live hkept (by rw [zero_add]; exact_mod_cast hlife) hnow
    refine inv_of_filled hlife (List.mem_cons_of_mem _ hlo) ?_ ?_ ?_ hagree h
    · rw [hfilled]
      by_cases hlive : s.clock + e.wait < s.clock + ttl l
      · exact filledTokens_of_live hkeys hlive hnow
      have hgone : get (s.clock + e.wait) s.keys.tokens = none := by
        rw [hkeys.1]
        exact if_neg hlive
      have hpassed := hexpired (by linarith [not_lt.mp hlive])
      have hlong := mul_le_mul_of_nonneg_right (show ttl l ≤ e.now - last by omega)
        (Int.natCast_nonneg l.rate)
      rw [filledTokens_none hgone]
      refine (min_eq_left ?_).symm
      have := burst_le_lifetime hrate hlife
      linarith
    · rw [hfilled]
      exact le_min (Int.natCast_nonneg _) (add_nonneg hx hgain)
    · have hle := hfilled.trans_le (min_le_right _ _)
      linarith

lemma Inv.bounded (hs : Inv l s) : Bounded l s := by
  cases hs with
  | start clock =>
    refine ⟨fun lo hi hle _ => ?_, rfl⟩
    exact add_nonneg (Int.natCast_nonneg _) (mul_nonneg (Int.natCast_nonneg _) (sub_nonneg.mpr hle))
  | @on _ x lo last hkeys hkept hlast hlo hx hspent hagree =>
    refine ⟨fun lo' hi hle hall => ?_, hagree⟩
    have hspan : last - lo ≤ hi - lo' := by
      have h1 := (hall last (List.mem_of_mem_head? hlast)).2
      have h2 := (hall lo hlo).1
      omega
    have := mul_le_mul_of_nonneg_left hspan (Int.natCast_nonneg l.rate)
    linarith

lemma idle_step (hlife : ¬0 < ttl l) (hs : s.admitted = 0 ∧ s.agree = true)
    (h : step l s e = some s') :
    s'.admitted = 0 ∧ s'.agree = true := by
  cases h
  simp [execute, hlife, hs]

end

/-- **The bucket in Redis keeps its bound** in every run with steady clocks. -/
theorem skew_bounded {l : TokenLimiter} (hrate : 0 < l.rate) {es : List Event}
    (hsteady : Along (step l) (Steady l) {} es) : Stays (step l) (Bounded l) {} es := by
  by_cases hlife : 0 < ttl l
  · have hinv := stays_of_along (inv_step hrate hlife) (Inv.start 0) hsteady
    exact fun k t hrun => (hinv k t hrun).bounded
  have hidle := stays_of_along (I := fun s : State => s.admitted = 0 ∧ s.agree = true)
    (fun hs _ h => idle_step hlife hs h) ⟨rfl, rfl⟩ hsteady
  intro k t hrun
  obtain ⟨hnone, hagree⟩ := hidle k t hrun
  refine ⟨fun lo hi hle _ => ?_, hagree⟩
  rw [hnone]
  exact add_nonneg (Int.natCast_nonneg _) (mul_nonneg (Int.natCast_nonneg _) (sub_nonneg.mpr hle))

def single : TokenLimiter := ⟨1, 60, 1⟩

theorem skew_bounded_single :
    0 < single.rate ∧ Stays (step single) (Bounded single) {} [⟨0, 0⟩, ⟨1, 1⟩, ⟨5 / 2, 4⟩] := by
  exact ⟨by decide, skew_bounded (by decide) (by decide +kernel)⟩

/-- Clocks that differ get four requests through in a second; one that stands still, a second one.
-/
theorem skewed_clocks : let outcome (es : List Event) : Option (ℕ × Bool) :=
      (run (step single) {} es).map fun s => (s.admitted, s.agree)
    outcome [⟨0, 0⟩, ⟨0, 1⟩, ⟨0, 0⟩, ⟨0, 1⟩, ⟨0, 0⟩, ⟨0, 1⟩] = some (4, true) ∧
      outcome [⟨0, 0⟩, ⟨2, 0⟩] = some (2, false) := by
  decide +kernel

end Tokilake.Limit.Skew
