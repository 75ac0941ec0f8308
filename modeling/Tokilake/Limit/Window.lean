import Tokilake.Lib.Run
import Tokilake.Limit.Memory

/-! # The fixed window in memory

The request that opens a window is not compared with the rate; the ones after it are admitted as
long as their sum is at most the rate.

* `within_iff`: when no window admits more than the rate. -/

namespace Tokilake.Limit.Window

open Lib.Run Limit.Memory List

/-- An admitted request of `n`, counted in the window from `start` on. -/
structure Call where
  time : ℚ
  n : ℕ
  start : ℚ
  deriving DecidableEq

structure State where
  store : Store := {}
  clock : ℚ := 0
  calls : String → List Call := fun _ => []

/-- Each event comes a while after the one before. -/
inductive Event
  | allowN (wait : ℚ≥0) (key : String) (n : ℕ)
  | removeExpiredEntries (wait : ℚ≥0)

/-- The calls after a request of `n` that left this verdict and entry. -/
def record (now : ℚ) (n : ℕ) (calls : List Call) : Bool × Option WindowData → List Call
  | (true, some data) => ⟨now, n, data.windowStart⟩ :: calls
  | _ => calls

variable (l : MemoryLimiter)

def step (s : State) : Event → Option State
  | .allowN wait key n =>
    let now := s.clock + wait
    let r := Memory.allowN l key n now s.store
    some { store := r.2, clock := now
           calls := Function.update s.calls key
             (record now n (s.calls key) (r.1, r.2.windows key)) }
  | .removeExpiredEntries wait =>
    let now := s.clock + wait
    some { s with store := Memory.removeExpiredEntries l now s.store, clock := now }

def total (l : MemoryLimiter) (start : ℚ) : List Call → ℕ
  | [] => 0
  | c :: calls =>
    (if start ≤ c.time ∧ c.time < start + l.window then c.n else 0) + total l start calls

def Bounded (calls : List Call) : Prop := ∀ c ∈ calls, total l c.start calls ≤ l.rate

def Within (s : State) : Prop := ∀ key, Bounded l (s.calls key)

def Opens (now : ℚ) (entry : Option WindowData) : Prop :=
  ∀ data ∈ entry, l.window ≤ now - data.windowStart

def Careful (s : State) : Event → Prop
  | .allowN wait key n => 0 < l.window → Opens l (s.clock + wait) (s.store.windows key) → n ≤ l.rate
  | .removeExpiredEntries _ => True

section
variable {l : MemoryLimiter} {now clock start : ℚ} {n : ℕ} {entry : Option WindowData}
    {calls : List Call}

lemma total_eq_zero (h : ∀ c ∈ calls, c.time < start ∨ start + l.window ≤ c.time) :
    total l start calls = 0 := by
  induction calls with
  | nil => rfl
  | cons c calls ih =>
    rw [total, ih fun c hc => h c (mem_cons_of_mem _ hc), if_neg]
    rintro ⟨h1, h2⟩
    rcases h c mem_cons_self with h3 | h3
    · exact absurd h1 (not_le.mpr h3)
    · exact absurd h2 (not_lt.mpr h3)

lemma total_cons_of_over {c : Call} (h : start + l.window ≤ c.time) :
    total l start (c :: calls) = total l start calls := by
  rw [total, if_neg fun hc => absurd hc.2 (not_lt.mpr h), zero_add]

lemma total_cons_of_mem {c : Call} (h1 : start ≤ c.time) (h2 : c.time < start + l.window) :
    total l start (c :: calls) = c.n + total l start calls := by
  rw [total, if_pos ⟨h1, h2⟩]

/-- The entry counts the calls of its window, and the windows before it are over. -/
structure Kept (l : MemoryLimiter) (clock : ℚ) (entry : Option WindowData) (calls : List Call) :
    Prop where
  inside : ∀ c ∈ calls, c.time < c.start + l.window
  past : entry = none → ∀ c ∈ calls, c.start + l.window ≤ clock
  before : ∀ data ∈ entry, ∀ c ∈ calls, c.start = data.windowStart ∨
    c.start + l.window ≤ data.windowStart
  started : ∀ data ∈ entry, data.windowStart ≤ clock ∧ data.windowStart ≤ data.lastUpdated
  count : ∀ data ∈ entry, total l data.windowStart calls = data.count

lemma Kept.mono (h : Kept l clock entry calls) (hle : clock ≤ now) : Kept l now entry calls :=
  { h with
    past := fun hnone c hc => (h.past hnone c hc).trans hle
    started := fun data hdata => ⟨(h.started data hdata).1.trans hle, (h.started data hdata).2⟩ }

lemma Kept.over (hw : 0 < l.window) (h : Kept l now entry calls) (hopens : Opens l now entry) :
    ∀ c ∈ calls, c.start + l.window ≤ now := by
  intro c hc
  cases entry with
  | none => exact h.past rfl c hc
  | some data =>
    have hage := hopens data rfl
    rcases h.before data rfl c hc with heq | hle
    · linarith
    · linarith

lemma Kept.keep (hw : 0 < l.window) (h : Kept l now entry calls) :
    Kept l now (keep l now WindowData.lastUpdated entry) calls := by
  cases entry with
  | none => exact h
  | some data =>
    rw [Memory.keep]
    split_ifs with hold
    · have hopens : Opens l now (some data) := by
        intro data' hdata
        cases hdata
        have := (h.started data rfl).2
        linarith
      exact ⟨h.inside, fun _ => h.over hw hopens, by simp, by simp, by simp⟩
    · exact h

/-- **A request that opens a window** keeps to the rate exactly if its `n` does. -/
theorem opened (hw : 0 < l.window) (h : Kept l now entry calls) (hopens : Opens l now entry) :
    Kept l now (some ⟨n, now, now⟩) (⟨now, n, now⟩ :: calls) ∧
      (Bounded l calls → (Bounded l (⟨now, n, now⟩ :: calls) ↔ n ≤ l.rate)) := by
  have hover := h.over hw hopens
  have hnow : total l now (⟨now, n, now⟩ :: calls) = n := by
    have hin := lt_add_of_pos_right now hw
    rw [total_cons_of_mem (c := ⟨now, n, now⟩) le_rfl hin, total_eq_zero, add_zero]
    exact fun c hc => Or.inl ((h.inside c hc).trans_le (hover c hc))
  have hold : ∀ c ∈ calls, total l c.start (⟨now, n, now⟩ :: calls) = total l c.start calls :=
    fun c hc => total_cons_of_over (hover c hc)
  refine ⟨⟨?_, by simp, ?_, ?_, ?_⟩, ?_⟩
  · exact forall_mem_cons.mpr ⟨lt_add_of_pos_right now hw, h.inside⟩
  · rintro _ ⟨⟩
    exact forall_mem_cons.mpr ⟨Or.inl rfl, fun c hc => Or.inr (hover c hc)⟩
  · rintro _ ⟨⟩
    exact ⟨le_rfl, le_rfl⟩
  · rintro _ ⟨⟩
    exact hnow
  · intro hb
    rw [Bounded, forall_mem_cons, hnow]
    exact and_iff_left fun c hc => (hold c hc).trans_le (hb c hc)

lemma counted {data : WindowData} (h : Kept l now (some data) calls)
    (hlive : now - data.windowStart < l.window) (hroom : data.count + n ≤ l.rate) :
    Kept l now (some { data with count := data.count + n, lastUpdated := now })
        (⟨now, n, data.windowStart⟩ :: calls) ∧
      (Bounded l calls → Bounded l (⟨now, n, data.windowStart⟩ :: calls)) := by
  obtain ⟨hstart, -⟩ := h.started data rfl
  have hin : now < data.windowStart + l.window := by linarith
  have hcount : total l data.windowStart (⟨now, n, data.windowStart⟩ :: calls) =
      data.count + n := by
    rw [total_cons_of_mem hstart hin, h.count data rfl, add_comm]
  have hbefore := h.before data rfl
  refine ⟨⟨?_, by simp, ?_, ?_, ?_⟩, ?_⟩
  · exact forall_mem_cons.mpr ⟨hin, h.inside⟩
  · rintro _ ⟨⟩
    exact forall_mem_cons.mpr ⟨Or.inl rfl, hbefore⟩
  · rintro _ ⟨⟩
    exact ⟨hstart, hstart⟩
  · rintro _ ⟨⟩
    exact hcount
  · intro hb
    refine forall_mem_cons.mpr ⟨hcount.trans_le hroom, fun c hc => ?_⟩
    rcases hbefore c hc with heq | hle
    · rw [heq, hcount]
      exact hroom
    · rw [total_cons_of_over (hle.trans hstart)]
      exact hb c hc

/-- **One request** stays within the rate unless it opens a window with more. -/
theorem request (hw : 0 < l.window) (h : Kept l now entry calls) :
    Kept l now (allowFixedWindow l now n entry).2
      (record now n calls (allowFixedWindow l now n entry)) ∧
      (Bounded l calls → (Bounded l (record now n calls (allowFixedWindow l now n entry)) ↔
        (Opens l now entry → n ≤ l.rate))) := by
  by_cases hopens : Opens l now entry
  · rw [allowFixedWindow_of_over hopens]
    obtain ⟨hkept, hiff⟩ := opened hw h hopens
    exact ⟨hkept, fun hb => (hiff hb).trans ⟨fun hn _ => hn, fun hn => hn hopens⟩⟩
  obtain ⟨data, rfl⟩ : ∃ data, entry = some data := by
    cases entry with
    | none => exact absurd (fun data hdata => by cases hdata) hopens
    | some data => exact ⟨data, rfl⟩
  have hlive : ¬l.window ≤ now - data.windowStart := by
    intro hle
    exact hopens fun data' hdata => by cases hdata; exact hle
  rw [allowFixedWindow, if_neg hlive]
  split_ifs with hroom
  · obtain ⟨hkept, hbounded⟩ := counted h (not_le.mp hlive) hroom
    exact ⟨hkept, fun hb => iff_of_true (hbounded hb) fun ho => absurd ho hopens⟩
  · exact ⟨h, fun hb => iff_of_true hb fun ho => absurd ho hopens⟩

lemma bounded_of_nonpos (hw : l.window ≤ 0) (calls : List Call) : Bounded l calls := by
  intro c _
  rw [total_eq_zero]
  · exact Nat.zero_le _
  · intro c' _
    by_contra hnot
    push Not at hnot
    linarith

end

/-! ### Runs -/

section
variable {l : MemoryLimiter} {s t : State} {e : Event}

def Sound (l : MemoryLimiter) (s : State) : Prop :=
  0 < l.window → ∀ key, Kept l s.clock (s.store.windows key) (s.calls key)

lemma sound_step (hl : l.isTokenBucket = false) (hs : Sound l s) (h : step l s e = some t) :
    Sound l t := by
  intro hw key
  cases e with
  | removeExpiredEntries wait =>
    cases h
    simpa [removeExpiredEntries, hl] using
      ((hs hw key).mono (le_add_of_nonneg_right wait.2)).keep hw
  | allowN wait key' n =>
    cases h
    have hkept := (hs hw key).mono (le_add_of_nonneg_right wait.2)
    by_cases hkey : key = key'
    · subst hkey
      simpa [Memory.allowN, hl] using (request hw hkept).1
    · simpa [Memory.allowN, hl, Function.update_of_ne hkey] using hkept

lemma within_step (hl : l.isTokenBucket = false) (hs : Sound l s) (hb : Within l s)
    (h : step l s e = some t) : Within l t ↔ Careful l s e := by
  by_cases hw : 0 < l.window
  swap
  · refine iff_of_true (fun key => bounded_of_nonpos (not_lt.mp hw) _) ?_
    cases e with
    | removeExpiredEntries wait => trivial
    | allowN wait key n => exact fun hw' => absurd hw' hw
  cases e with
  | removeExpiredEntries wait =>
    cases h
    exact iff_of_true hb trivial
  | allowN wait key n =>
    cases h
    have hkept := (hs hw key).mono (le_add_of_nonneg_right wait.2)
    have hiff := (request (n := n) hw hkept).2 (hb key)
    rw [Careful, forall_prop_of_true hw]
    refine Iff.trans ?_ hiff
    constructor
    · intro hall
      simpa [Memory.allowN, hl] using hall key
    · intro hkey key'
      by_cases heq : key' = key
      · subst heq
        simpa [Memory.allowN, hl] using hkey
      · simpa [Function.update_of_ne heq] using hb key'

/-- **A window never admits more than the rate** exactly if no request opens one with more. -/
theorem within_iff (rate rpm : ℕ) (window : ℚ) (es : List Event) :
    Stays (step (newMemoryLimiter rate rpm window false))
      (Within (newMemoryLimiter rate rpm window false))
        {} es ↔ Along (step (newMemoryLimiter rate rpm window false))
        (Careful (newMemoryLimiter rate rpm window false)) {} es := by
  refine stays_iff_along_of_invariant (J := Sound (newMemoryLimiter rate rpm window false))
    (fun {s e} h => by cases e <;> cases h) (sound_step rfl) (within_step rfl) ?_ ?_
  · exact fun hw key => ⟨by simp, by simp, by simp, by simp, by simp⟩
  · exact fun key c hc => by cases hc

/-- A rate of zero admits the first request, and a rate of two one of five. -/
theorem opening_exceeds_rate :
    let admitted (rate n : ℕ) : Option (List Call) :=
      (run (step (newMemoryLimiter rate rate 60 false)) {} [.allowN 0 "k" n]).map fun s =>
        s.calls "k"
    admitted 0 1 = some [⟨0, 1, 0⟩] ∧ admitted 2 5 = some [⟨0, 5, 0⟩] ∧
      total (newMemoryLimiter 0 0 60 false) 0 [⟨0, 1, 0⟩] = 1 ∧
      total (newMemoryLimiter 2 2 60 false) 0 [⟨0, 5, 0⟩] = 5 := by
  decide +kernel

end

end Tokilake.Limit.Window
