import Mathlib.Algebra.Group.Nat.Defs
import Tokilake.Lib.Run

/-! # Cooldowns of the channel chooser

An entry stays when the cooldown is over, until an hourly sweep.

* `setCooldowns_iff`: when `SetCooldowns` starts a cooldown. -/

namespace Tokilake.Routing.Cooldowns

open Lib

def int64 (n : ℤ) : ℤ := Int.bmod n (2 ^ 64)

abbrev Store := String → Option ℤ

def key (channelId : ℤ) (modelName : String) : String := toString channelId ++ ":" ++ modelName

def loadOrStore (store : Store) (k : String) (ending : ℤ) : Store :=
  if (store k).isSome then store else Function.update store k (some ending)

def setCooldowns (store : Store) (now : ℤ) (channelId : ℤ) (modelName : String) (retry : ℤ) :
    Bool × Store :=
  if channelId = 0 ∨ modelName = "" ∨ retry = 0 then (false, store)
  else if (store (key channelId modelName)).any (now < ·) then (true, store)
  else (true, loadOrStore store (key channelId modelName) (int64 (now + retry)))

def isInCooldown (store : Store) (now : ℤ) (channelId : ℤ) (modelName : String) : Bool :=
  match store (key channelId modelName) with
  | none => false
  | some ending => now < ending

def cleanupExpiredCooldowns (store : Store) (now : ℤ) : Store := fun k =>
  (store k).filter fun ending => ¬ ending ≤ now

inductive Call
  | set (channelId : ℤ) (modelName : String) (retry : ℤ)
  | cleanup

structure State where
  store : Store := fun _ => none
  clock : ℤ := 0

def step (s : State) (call : ℤ × Call) : Option State :=
  if s.clock ≤ call.1 then
    match call.2 with
    | .set channelId modelName retry =>
      some ⟨(setCooldowns s.store call.1 channelId modelName retry).2, call.1⟩
    | .cleanup => some ⟨cleanupExpiredCooldowns s.store call.1, call.1⟩
  else none

/-! ### What the calls do to an entry -/

variable {s t : State} {store : Store} {k : String} {ending now channelId retry : ℤ}
  {modelName : String}

lemma setCooldowns_some (h : store k = some ending) :
    (setCooldowns store now channelId modelName retry).2 k = some ending := by
  have hload : ∀ k' v, loadOrStore store k' v k = some ending := by
    intro k' v
    unfold loadOrStore
    by_cases hk' : (store k').isSome
    · rw [if_pos hk', h]
    have hne : k ≠ k' := by
      rintro rfl
      simp [h] at hk'
    rw [if_neg hk', Function.update_of_ne hne, h]
  unfold setCooldowns
  split_ifs
  · exact h
  · exact h
  · exact hload _ _

lemma setCooldowns_none (h : store (key channelId modelName) = none)
    (hon : ¬ (channelId = 0 ∨ modelName = "" ∨ retry = 0)) :
    (setCooldowns store now channelId modelName retry).2 (key channelId modelName) =
      some (int64 (now + retry)) := by
  rw [setCooldowns, if_neg hon, if_neg (by simp [h]), loadOrStore, if_neg (by simp [h])]
  exact Function.update_self ..

lemma cooling_step {call : ℤ × Call} (h : s.store k = some ending) (hstep : step s call = some t)
    (hbefore : t.clock < ending) : t.store k = some ending := by
  unfold step at hstep
  by_cases hclock : s.clock ≤ call.1
  · rw [if_pos hclock] at hstep
    rcases call with ⟨now, ⟨channelId, modelName, retry⟩ | _⟩
    · cases hstep
      exact setCooldowns_some h
    · cases hstep
      have hnow : now < ending := hbefore
      simp [cleanupExpiredCooldowns, h, hnow]
  · rw [if_neg hclock] at hstep
    cases hstep

lemma clock_step {call : ℤ × Call} (hstep : step s call = some t) : s.clock ≤ t.clock := by
  unfold step at hstep
  by_cases hclock : s.clock ≤ call.1
  · rw [if_pos hclock] at hstep
    rcases call with ⟨now, _ | _⟩ <;> cases hstep <;> exact hclock
  · rw [if_neg hclock] at hstep
    cases hstep

lemma cooling_run {calls : List (ℤ × Call)} (h : s.store k = some ending)
    (hrun : Run.run step s calls = some t) (hbefore : t.clock < ending) :
    t.store k = some ending := by
  induction calls generalizing s with
  | nil =>
    cases hrun
    exact h
  | cons call calls ih =>
    obtain ⟨u, hu, hrest⟩ := Run.run_cons.mp hrun
    have hle :=
      Run.run_invariant' (fun hle hstep => Int.le_trans hle (clock_step hstep))
        (Int.le_refl _) hrest
    exact ih (cooling_step h hu (by omega)) hrest

/-! ### When a cooldown is in force -/

/-- The channel is cooling until the stored end, `retry` seconds away if it was not before. -/
structure InForce (s : State) (now channelId : ℤ) (modelName : String) (retry : ℤ) : Prop where
  cooling : isInCooldown (setCooldowns s.store now channelId modelName retry).2 now channelId
    modelName = true
  lasts : ∀ (calls : List (ℤ × Call)) (t : State) (later : ℤ),
    Run.run step ⟨(setCooldowns s.store now channelId modelName retry).2, now⟩ calls = some t →
    t.clock ≤ later →
    (∀ ending, (setCooldowns s.store now channelId modelName retry).2 (key channelId modelName) =
      some ending → later < ending) → isInCooldown t.store later channelId modelName = true
  starts : isInCooldown s.store now channelId modelName = false →
    (setCooldowns s.store now channelId modelName retry).2 (key channelId modelName) =
      some (now + retry)

/-- **When a cooldown is in force**: no entry is left from one that is over, and the end fits. -/
theorem setCooldowns_iff (s : State) (now channelId : ℤ) (modelName : String) (retry : ℤ)
    (hretry : 0 < retry)
    (htrue : (setCooldowns s.store now channelId modelName retry).1 = true) :
    InForce s now channelId modelName retry ↔
      (∀ ending, s.store (key channelId modelName) = some ending → now < ending) ∧
      (s.store (key channelId modelName) = none → int64 (now + retry) = now + retry) := by
  have hon : ¬ (channelId = 0 ∨ modelName = "" ∨ retry = 0) := by
    intro hoff
    rw [setCooldowns, if_pos hoff] at htrue
    cases htrue
  -- the entry after the call
  obtain ⟨ending, hafter, hcase⟩ : ∃ ending,
      (setCooldowns s.store now channelId modelName retry).2
        (key channelId modelName) = some ending ∧
      (s.store (key channelId modelName) = some ending ∨
        s.store (key channelId modelName) = none ∧ ending = int64 (now + retry)) := by
    cases hk : s.store (key channelId modelName) with
    | some v => exact ⟨v, setCooldowns_some hk, .inl rfl⟩
    | none => exact ⟨_, setCooldowns_none hk hon, .inr ⟨rfl, rfl⟩⟩
  have hcooling : isInCooldown (setCooldowns s.store now channelId modelName retry).2 now channelId
      modelName = true ↔ now < ending := by
    rw [isInCooldown, hafter]
    simp
  constructor
  · intro h
    have hlt := hcooling.mp h.cooling
    rcases hcase with hk | ⟨hk, rfl⟩
    · refine ⟨fun v hv => ?_, fun hnone => ?_⟩
      · rw [hk, Option.some.injEq] at hv
        omega
      · rw [hk] at hnone
        cases hnone
    · refine ⟨fun v hv => ?_, fun _ => ?_⟩
      · rw [hk] at hv
        cases hv
      · have hstart := h.starts (by rw [isInCooldown, hk])
        rw [hafter, Option.some.injEq] at hstart
        exact hstart
  · rintro ⟨hcurrent, hfits⟩
    have hlt : now < ending := by
      rcases hcase with hk | ⟨hk, rfl⟩
      · exact hcurrent ending hk
      · rw [hfits hk]
        omega
    refine ⟨hcooling.mpr hlt, fun calls t later hrun hlater hbefore => ?_, fun hidle => ?_⟩
    · have hend := hbefore ending hafter
      have hkept := cooling_run hafter hrun (by omega)
      rw [isInCooldown, hkept]
      simpa using hend
    · rcases hcase with hk | ⟨hk, rfl⟩
      · rw [isInCooldown, hk] at hidle
        simp at hidle
        omega
      · rw [hafter, hfits hk]

/-- A call at 100 starts a cooldown of 30 seconds, which lasts over a sweep at 110. -/
theorem setCooldowns_iff_first : InForce {} 100 7 "gpt" 30 ∧
      isInCooldown (cleanupExpiredCooldowns
        (setCooldowns (fun _ => none) 100 7 "gpt" 30).2 110) 129 7
        "gpt" = true := by
  have h := (setCooldowns_iff {} 100 7 "gpt" 30 (by decide) (by decide)).mpr
    ⟨by rintro _ ⟨⟩, fun _ => by decide⟩
  refine ⟨h, ?_⟩
  exact h.lasts [(110, .cleanup)] ⟨_, 110⟩ 129 rfl (by decide) (by decide)

/-- A second call before the next sweep returns true, but the channel is not cooling. -/
theorem expired_entry_kept : (Run.run step {} [(100, .set 7 "gpt" 30)]).map (fun s =>
      ((setCooldowns s.store 200 7 "gpt" 30).1,
        isInCooldown (setCooldowns s.store 200 7 "gpt" 30).2 200 7 "gpt")) = some
          (true, false) := by
  decide

end Tokilake.Routing.Cooldowns
