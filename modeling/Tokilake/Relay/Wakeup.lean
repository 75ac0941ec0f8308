import Tokilake.Lib.Calls

/-! # Waking the task poller

When its query comes back empty the poller clears `taskActive` and waits.

* `polled_iff`: which runs lose no row. -/

namespace Tokilake.Relay.Wakeup

open Lib Lib.Calls List Option

inductive Poller
  | locking
  | testing
  | waiting
  | waking
  | unlocking
  | querying
  | polling
  | deactivating
  | deactLocking
  | storing
  | deactUnlocking
  deriving DecidableEq

inductive Submission
  | inserting
  | loading
  | locking
  | storing
  | signalling
  | unlocking
  | done
  deriving DecidableEq

inductive Owner
  | poller
  | call (i : ℕ)
  deriving DecidableEq

structure Shared where
  unfinished : ℕ
  taskActive : ℤ := 0
  lock : Option Owner := none
  poller : Poller := .locking

/-- How an insert ends; the row of a task that is over already is not polled. -/
inductive Insert
  | unfinished
  | finished
  | failed
  deriving DecidableEq

def inserted : Insert → ℕ
  | .unfinished => 1
  | .finished => 0
  | .failed => 0

def signal : Poller → Poller
  | .waiting => .waking
  | poller => poller

def advance (i : ℕ) (s : Shared) (c : Submission) (insert : Insert) :
    Option (Shared × Submission) :=
  match c with
  | .inserting => some ({ s with unfinished := s.unfinished + inserted insert }, .loading)
  | .loading => if s.taskActive = 1 then some (s, .done) else some (s, .locking)
  | .locking => if s.lock = none then some ({ s with lock := some (.call i) }, .storing) else none
  | .storing => some ({ s with taskActive := 1 }, .signalling)
  | .signalling => some ({ s with poller := signal s.poller }, .unlocking)
  | .unlocking => some ({ s with lock := none }, .done)
  | .done => none

def acquire (s : Shared) (next : Poller) : Option Shared :=
  if s.lock = none then some { s with lock := some .poller, poller := next } else none

def pollerStep (s : Shared) : Option Shared :=
  match s.poller with
  | .locking => acquire s .testing
  | .testing =>
    -- `cond.Wait` joins the waiters before it gives the lock back
    if s.taskActive = 0 then some { s with lock := none, poller := .waiting }
    else some { s with poller := .unlocking }
  | .waking => acquire s .testing
  | .unlocking => some { s with lock := none, poller := .querying }
  | .deactivating =>
    if s.taskActive = 0 then some { s with poller := .locking }
    else some { s with poller := .deactLocking }
  | .deactLocking => acquire s .storing
  | .storing => some { s with taskActive := 0, poller := .deactUnlocking }
  | .deactUnlocking => some { s with lock := none, poller := .locking }
  | .waiting | .querying | .polling => none

inductive Env
  | poller
  | query (failed : Bool)
  | round (left : ℕ)
  | finish
  deriving DecidableEq

def env (s : Shared) : Env → Option Shared
  | .poller => pollerStep s
  | .query failed =>
    if s.poller = .querying then
      some { s with poller := if failed ∨ s.unfinished = 0 then .deactivating else .polling }
    else none
  | .round left =>
    if s.poller = .polling then some { s with unfinished := left, poller := .querying } else none
  | .finish => some { s with unfinished := s.unfinished - 1 }

def system : System Shared Submission Unit Insert Env where
  start := fun _ => .inserting
  advance
  env

abbrev TaskPool := Pool Shared Submission

abbrev TaskEvent := Event Unit Insert Env

def initTask (rows : ℕ) : TaskPool := ⟨{ unfinished := rows }, [.loading]⟩

/-! ### One step -/

inductive Advance (i : ℕ) (s : Shared) : Submission → Shared → Submission → Prop
  | insert (k : ℕ) : Advance i s .inserting { s with unfinished := s.unfinished + k } .loading
  | seen : s.taskActive = 1 → Advance i s .loading s .done
  | unseen : s.taskActive ≠ 1 → Advance i s .loading s .locking
  | lock : s.lock = none → Advance i s .locking { s with lock := some (.call i) } .storing
  | store : Advance i s .storing { s with taskActive := 1 } .signalling
  | signal : Advance i s .signalling { s with poller := signal s.poller } .unlocking
  | unlock : Advance i s .unlocking { s with lock := none } .done

variable {s s' : Shared} {c c' : Submission} {p q : TaskPool} {e : TaskEvent} {i : ℕ}

lemma advance_cases {insert : Insert} (h : advance i s c insert = some (s', c')) :
    Advance i s c s' c' := by
  cases c with
  | inserting =>
    cases h
    exact .insert _
  | loading =>
    simp only [advance] at h
    split_ifs at h with hactive
    · cases h
      exact .seen hactive
    · cases h
      exact .unseen hactive
  | locking =>
    simp only [advance] at h
    split_ifs at h with hfree
    cases h
    exact .lock hfree
  | storing =>
    cases h
    exact .store
  | signalling =>
    cases h
    exact .signal
  | unlocking =>
    cases h
    exact .unlock
  | done => cases h

inductive PollerStep (s : Shared) : Shared → Prop
  | lock : s.poller = .locking ∨ s.poller = .waking → s.lock = none →
      PollerStep s { s with lock := some .poller, poller := .testing }
  | wait : s.poller = .testing → s.taskActive = 0 →
      PollerStep s { s with lock := none, poller := .waiting }
  | active : s.poller = .testing → s.taskActive ≠ 0 → PollerStep s { s with poller := .unlocking }
  | unlock : s.poller = .unlocking → PollerStep s { s with lock := none, poller := .querying }
  | idle : s.poller = .deactivating → s.taskActive = 0 → PollerStep s { s with poller := .locking }
  | deactivate : s.poller = .deactivating → s.taskActive ≠ 0 →
      PollerStep s { s with poller := .deactLocking }
  | deactLock : s.poller = .deactLocking → s.lock = none →
      PollerStep s { s with lock := some .poller, poller := .storing }
  | store : s.poller = .storing → PollerStep s { s with taskActive := 0, poller := .deactUnlocking }
  | deactUnlock : s.poller = .deactUnlocking →
    PollerStep s { s with lock := none, poller := .locking }

lemma pollerStep_cases (h : pollerStep s = some s') : PollerStep s s' := by
  unfold pollerStep acquire at h
  split at h <;> rename_i hpc
  · split_ifs at h with hfree
    cases h
    exact .lock (.inl hpc) hfree
  · split_ifs at h with hactive
    · cases h
      exact .wait hpc hactive
    · cases h
      exact .active hpc hactive
  · split_ifs at h with hfree
    cases h
    exact .lock (.inr hpc) hfree
  · cases h
    exact .unlock hpc
  · split_ifs at h with hactive
    · cases h
      exact .idle hpc hactive
    · cases h
      exact .deactivate hpc hactive
  · split_ifs at h with hfree
    cases h
    exact .deactLock hpc hfree
  · cases h
    exact .store hpc
  · cases h
    exact .deactUnlock hpc
  · cases h
  · cases h
  · cases h

inductive EnvStep (s : Shared) : Env → Shared → Prop
  | poller {t : Shared} : PollerStep s t → EnvStep s .poller t
  | empty {failed : Bool} : s.poller = .querying → failed = true ∨ s.unfinished = 0 →
      EnvStep s (.query failed) { s with poller := .deactivating }
  | found {failed : Bool} : s.poller = .querying → ¬ (failed = true ∨ s.unfinished = 0) →
      EnvStep s (.query failed) { s with poller := .polling }
  | round {left : ℕ} : s.poller = .polling →
      EnvStep s (.round left) { s with unfinished := left, poller := .querying }
  | finish : EnvStep s .finish { s with unfinished := s.unfinished - 1 }

lemma env_cases {a : Env} (h : env s a = some s') : EnvStep s a s' := by
  cases a with
  | poller => exact .poller (pollerStep_cases h)
  | query failed =>
    simp only [env] at h
    split_ifs at h with hpc hempty
    · cases h
      exact .empty hpc hempty
    · cases h
      exact .found hpc hempty
  | round left =>
    simp only [env] at h
    split_ifs at h with hpc
    cases h
    exact .round hpc
  | finish =>
    cases h
    exact .finish

inductive Step (p : TaskPool) : TaskEvent → TaskPool → Prop
  | arrive : Step p (.arrive ()) ⟨p.shared, p.calls ++ [.inserting]⟩
  | move {i : ℕ} {insert : Insert} {c d : Submission} {t : Shared} : p.calls[i]? = some c →
      Advance i p.shared c t d → Step p (.move i insert) ⟨t, p.calls.set i d⟩
  | env {a : Env} {t : Shared} : EnvStep p.shared a t → Step p (.env a) ⟨t, p.calls⟩

lemma step_cases (h : system.step p e = some q) : Step p e q := by
  cases e with
  | arrive k =>
    cases h
    exact .arrive
  | move i insert =>
    obtain ⟨c, s', c', hc, hadv, rfl⟩ := step_move.mp h
    exact .move hc (advance_cases hadv)
  | env a =>
    obtain ⟨s', hs', rfl⟩ := step_env.mp h
    exact .env (env_cases hs')

/-! ### The lock and the flag -/

def Poller.holds : Poller → Bool
  | .testing | .unlocking | .storing | .deactUnlocking => true
  | _ => false

def Submission.holds : Submission → Bool
  | .storing | .signalling | .unlocking => true
  | _ => false

def Submission.announced : Submission → Bool
  | .signalling | .unlocking => true
  | _ => false

/-- The poller has the lock where it says so, and has cleared the flag before it gives it back. -/
structure Inside (s : Shared) : Prop where
  poller : s.poller.holds = true ↔ s.lock = some .poller
  cleared : s.poller = .deactUnlocking → s.taskActive = 0

structure Held (i : ℕ) (s : Shared) (c : Submission) : Prop where
  call : c.holds = true → s.lock = some (.call i)
  set : c.announced = true → s.taskActive = 1

lemma holds_signal (poller : Poller) : (signal poller).holds = poller.holds := by
  cases poller <;> rfl

lemma announced_holds (h : c.announced = true) : c.holds = true := by
  cases c <;> first | rfl | cases h

lemma lock_of_holds {pc : Poller} (hs : Inside s) (hpc : s.poller = pc) (h : pc.holds = true) :
    s.lock = some .poller := hs.poller.mp (hpc ▸ h)

lemma inside_goto {pc pc' : Poller} (hs : Inside s) (hpc : s.poller = pc)
    (hholds : pc'.holds = pc.holds) (hne : pc' ≠ .deactUnlocking) :
    Inside { s with poller := pc' } := by
  refine ⟨?_, fun h => absurd h hne⟩
  rw [hholds, ← hpc]
  exact hs.poller

lemma not_inside (hs : Inside s) (h : s.lock = some (.call i)) : s.poller.holds = false := by
  rw [← Bool.not_eq_true, hs.poller, h]
  simp

lemma own_advance (hs : Inside s) (hc : Held i s c) (h : Advance i s c s' c') :
    Inside s' ∧ Held i s' c' := by
  cases h with
  | insert k => exact ⟨⟨hs.poller, hs.cleared⟩, ⟨nofun, nofun⟩⟩
  | seen _ | unseen _ => exact ⟨hs, ⟨nofun, nofun⟩⟩
  | lock hfree =>
    refine ⟨⟨?_, hs.cleared⟩, ⟨fun _ => rfl, nofun⟩⟩
    have hpoller := hs.poller
    rw [hfree] at hpoller
    simpa using hpoller
  | store =>
    refine ⟨⟨hs.poller, fun hpc => ?_⟩, ⟨fun _ => hc.call rfl, fun _ => rfl⟩⟩
    have hout := not_inside hs (hc.call rfl)
    rw [show s.poller = .deactUnlocking from hpc] at hout
    cases hout
  | signal =>
    refine ⟨⟨?_, fun hpc => hs.cleared ?_⟩, ⟨fun _ => hc.call rfl, fun _ => hc.set rfl⟩⟩
    · dsimp only
      rw [holds_signal]
      exact hs.poller
    · revert hpc
      cases s.poller <;> simp [signal]
  | unlock =>
    refine ⟨⟨?_, hs.cleared⟩, ⟨nofun, nofun⟩⟩
    have hout := not_inside hs (hc.call rfl)
    simp [hout]

lemma other_advance {j : ℕ} {d : Submission} (hc : Held i s c) (hd : Held j s d) (hij : i ≠ j)
    (h : Advance i s c s' c') : Held j s' d := by
  -- two submissions do not have the lock at once
  have hone : c.holds = true → d.holds = false := by
    intro hholds
    by_contra hother
    have hlock := (hc.call hholds).symm.trans (hd.call (by simpa using hother))
    simp only [some.injEq, Owner.call.injEq] at hlock
    exact hij hlock
  cases h with
  | insert k | signal => exact ⟨hd.call, hd.set⟩
  | seen _ | unseen _ => exact hd
  | lock hfree =>
    refine ⟨fun hholds => ?_, hd.set⟩
    have hlock := hd.call hholds
    rw [hfree] at hlock
    cases hlock
  | store => exact ⟨hd.call, fun _ => rfl⟩
  | unlock =>
    have hout := hone rfl
    refine ⟨fun hholds => ?_, hd.set⟩
    rw [hout] at hholds
    cases hholds

lemma env_pollerStep (hs : Inside s) (h : PollerStep s s') :
    Inside s' ∧ ∀ {i c}, Held i s c → Held i s' c := by
  have hkeep : (s.lock = none ∨ s.lock = some .poller) → ∀ {i c}, Held i s c → Held i s' c := by
    intro hlock i c hc
    have hout : c.holds = false := by
      by_contra hholds
      have hcall := hc.call (by simpa using hholds)
      rcases hlock with hlock | hlock <;> rw [hlock] at hcall <;> cases hcall
    refine ⟨fun hholds => ?_, fun hset => ?_⟩
    · rw [hout] at hholds
      cases hholds
    · rw [announced_holds hset] at hout
      cases hout
  cases h with
  | lock hpc hfree | deactLock hpc hfree =>
    exact ⟨⟨by simp [Poller.holds], nofun⟩, hkeep (.inl hfree)⟩
  | active hpc hactive | idle hpc hactive | deactivate hpc hactive =>
    exact ⟨inside_goto hs hpc rfl nofun, fun hc => ⟨hc.call, hc.set⟩⟩
  | wait hpc | unlock hpc | deactUnlock hpc =>
    exact ⟨⟨by simp [Poller.holds], nofun⟩, hkeep (.inr (lock_of_holds hs hpc rfl))⟩
  | store hpc =>
    have hlock := lock_of_holds hs hpc rfl
    exact ⟨⟨by simp [Poller.holds, hlock], fun _ => rfl⟩, hkeep (.inr hlock)⟩

lemma env_step {a : Env} (hs : Inside s) (h : EnvStep s a s') :
    Inside s' ∧ ∀ {i c}, Held i s c → Held i s' c := by
  cases h with
  | poller h => exact env_pollerStep hs h
  | empty hpc _ | found hpc _ => exact ⟨inside_goto hs hpc rfl nofun, fun hc => ⟨hc.call, hc.set⟩⟩
  | round hpc =>
    have hinside := inside_goto hs hpc rfl nofun
    exact ⟨⟨hinside.poller, nofun⟩, fun hc => ⟨hc.call, hc.set⟩⟩
  | finish => exact ⟨⟨hs.poller, hs.cleared⟩, fun hc => ⟨hc.call, hc.set⟩⟩

lemma stable : Stable system Inside Held where
  start := fun _ _ => ⟨nofun, nofun⟩
  own := fun hs hc h => own_advance hs hc (advance_cases h)
  other := fun _ hc hd hij h => other_advance hc hd hij (advance_cases h)
  env := fun hs h => env_step hs (env_cases h)

def Owned (p : TaskPool) : Prop :=
  ∀ i, p.shared.lock = some (.call i) → ∃ c, p.calls[i]? = some c ∧ c.holds = true

lemma lock_env {a : Env} (h : EnvStep s a s') : s'.lock = s.lock ∨
    ∀ i, s'.lock ≠ some (.call i) := by
  cases h with
  | poller h =>
    cases h with
    | active | idle | deactivate | store => exact .inl rfl
    | lock | wait | unlock | deactLock | deactUnlock => exact .inr (by simp)
  | empty | found | round | finish => exact .inl rfl

lemma owned_step (hp : Owned p) (h : Step p e q) : Owned q := by
  cases h with
  | arrive =>
    intro j hj
    obtain ⟨c, hc, hholds⟩ := hp j hj
    exact ⟨c, List.getElem?_append_left (List.getElem?_eq_some_iff.mp hc).1 ▸ hc, hholds⟩
  | env h =>
    intro j hj
    rcases lock_env h with hsame | hnone
    · exact hp j (hsame ▸ hj)
    · exact absurd hj (hnone j)
  | @move i _ c d t hc hadv =>
    intro j hj
    by_cases hij : i = j
    · subst hij
      rw [List.getElem?_set_self (List.getElem?_eq_some_iff.mp hc).1]
      refine ⟨d, rfl, ?_⟩
      -- before, the call had the lock or took it
      have hbefore : p.shared.lock = some (.call i) → c.holds = true := by
        intro hlock
        obtain ⟨c₁, hc₁, hholds⟩ := hp i hlock
        rw [hc, some.injEq] at hc₁
        rwa [hc₁]
      cases hadv with
      | insert k | seen _ | unseen _ => exact absurd (hbefore hj) (by decide)
      | lock _ | store | signal => rfl
      | unlock => cases hj
    · rw [getElem?_set_ne hij]
      cases hadv with
      | lock _ =>
        simp only [some.injEq, Owner.call.injEq] at hj
        exact absurd hj hij
      | unlock => cases hj
      | insert _ | seen _ | unseen _ | store | signal => exact hp j hj

structure Good (p : TaskPool) : Prop where
  inside : Inside p.shared
  held : Each Held p
  owned : Owned p

lemma good_initTask (rows : ℕ) : Good (initTask rows) := by
  refine ⟨⟨by simp [initTask, Poller.holds], nofun⟩, fun i c hc => ?_, nofun⟩
  obtain rfl : c = .loading := by simpa [initTask] using mem_of_getElem? hc
  exact ⟨nofun, nofun⟩

lemma good_step (hp : Good p) (h : system.step p e = some q) : Good q := by
  obtain ⟨hinside, hheld⟩ := stable.step ⟨hp.inside, hp.held⟩ h
  exact ⟨hinside, hheld, owned_step hp.owned (step_cases h)⟩

/-! ### Asleep over a row -/

def Idle (p : TaskPool) : Prop := ∀ c ∈ p.calls, c = .done

def Lost (p : TaskPool) : Prop :=
  0 < p.shared.unfinished ∧ Idle p ∧ p.shared.taskActive = 0 ∧ p.shared.poller = .waiting

instance (p : TaskPool) : Decidable (Lost p) :=
  inferInstanceAs (Decidable (_ ∧ (∀ c ∈ p.calls, c = .done) ∧ _))

def Oversleeps (p : TaskPool) : Prop :=
  ∃ n q, Run.run system.step p (replicate n (.env .poller)) = some q ∧ Lost q

lemma Lost.oversleeps (h : Lost p) : Oversleeps p := ⟨0, p, rfl, h⟩

lemma oversleeps_of_step {calls : List Submission} (h : pollerStep s = some s')
    (hrest : Oversleeps ⟨s', calls⟩) : Oversleeps ⟨s, calls⟩ := by
  obtain ⟨n, q, hrun, hlost⟩ := hrest
  refine ⟨n + 1, q, ?_, hlost⟩
  exact Run.run_cons.mpr ⟨⟨s', calls⟩, step_env.mpr ⟨s', h, rfl⟩, hrun⟩

def Parking (s : Shared) : Prop :=
  match s.poller with
  | .deactivating | .deactLocking | .storing | .deactUnlocking => True
  | .locking | .testing | .waking | .waiting => s.taskActive = 0
  | .unlocking | .querying | .polling => False

def Doomed (p : TaskPool) : Prop := 0 < p.shared.unfinished ∧ Idle p ∧ Parking p.shared

section
variable {calls : List Submission} (hrow : 0 < s.unfinished) (hidle : ∀ c ∈ calls, c = .done)
include hrow hidle

lemma oversleeps_testing (hpc : s.poller = .testing) (hactive : s.taskActive = 0) :
    Oversleeps ⟨s, calls⟩ := by
  have hstep : pollerStep s = some { s with lock := none, poller := .waiting } := by
    simp [pollerStep, hpc, hactive]
  exact oversleeps_of_step hstep (Lost.oversleeps ⟨hrow, hidle, hactive, rfl⟩)

lemma oversleeps_locking (hpc : s.poller = .locking ∨ s.poller = .waking)
    (hactive : s.taskActive = 0) (hfree : s.lock = none) : Oversleeps ⟨s, calls⟩ := by
  have hstep : pollerStep s = some { s with lock := some .poller, poller := .testing } := by
    rcases hpc with hpc | hpc <;> simp [pollerStep, acquire, hpc, hfree]
  exact oversleeps_of_step hstep (oversleeps_testing hrow hidle rfl hactive)

lemma oversleeps_deactUnlocking (hpc : s.poller = .deactUnlocking) (hactive : s.taskActive = 0) :
    Oversleeps ⟨s, calls⟩ := by
  have hstep : pollerStep s = some { s with lock := none, poller := .locking } := by
    simp [pollerStep, hpc]
  exact oversleeps_of_step hstep (oversleeps_locking hrow hidle (.inl rfl) hactive rfl)

lemma oversleeps_storing (hpc : s.poller = .storing) : Oversleeps ⟨s, calls⟩ := by
  have hstep : pollerStep s = some { s with taskActive := 0, poller := .deactUnlocking } := by
    simp [pollerStep, hpc]
  exact oversleeps_of_step hstep (oversleeps_deactUnlocking hrow hidle rfl rfl)

lemma oversleeps_deactLocking (hpc : s.poller = .deactLocking) (hfree : s.lock = none) :
    Oversleeps ⟨s, calls⟩ := by
  have hstep : pollerStep s = some { s with lock := some .poller, poller := .storing } := by
    simp [pollerStep, acquire, hpc, hfree]
  exact oversleeps_of_step hstep (oversleeps_storing hrow hidle rfl)

lemma oversleeps_deactivating (hpc : s.poller = .deactivating) (hfree : s.lock = none) :
    Oversleeps ⟨s, calls⟩ := by
  by_cases hactive : s.taskActive = 0
  · have hstep : pollerStep s = some { s with poller := .locking } := by
      simp [pollerStep, hpc, hactive]
    exact oversleeps_of_step hstep (oversleeps_locking hrow hidle (.inl rfl) hactive hfree)
  · have hstep : pollerStep s = some { s with poller := .deactLocking } := by
      simp [pollerStep, hpc, hactive]
    exact oversleeps_of_step hstep (oversleeps_deactLocking hrow hidle rfl hfree)

end

lemma lock_eq_none (hp : Good p) (hidle : Idle p) (hout : p.shared.poller.holds = false) :
    p.shared.lock = none := by
  cases hlock : p.shared.lock with
  | none => rfl
  | some owner =>
    cases owner with
    | poller =>
      rw [hp.inside.poller.mpr hlock] at hout
      cases hout
    | call i =>
      obtain ⟨c, hc, hholds⟩ := hp.owned i hlock
      rw [hidle c (mem_of_getElem? hc)] at hholds
      cases hholds

lemma parking_of_step (h : PollerStep s s') (hpark : Parking s') : Parking s := by
  unfold Parking at hpark ⊢
  cases h with
  | lock hpc _ => rcases hpc with hpc | hpc <;> simpa [hpc] using hpark
  | wait hpc _ => simpa [hpc] using hpark
  | active hpc _ | unlock hpc => exact absurd hpark not_false
  | idle hpc _ | deactivate hpc _ | deactLock hpc _ | store hpc | deactUnlock hpc => simp [hpc]

lemma doomed_iff (hp : Good p) : Doomed p ↔ Oversleeps p := by
  obtain ⟨s, calls⟩ := p
  constructor
  · rintro ⟨hrow, hidle, hpark⟩
    have hfree : s.poller.holds = false → s.lock = none := fun hout => lock_eq_none hp hidle hout
    unfold Parking at hpark
    cases hpc : s.poller <;> rw [hpc] at hpark hfree
    case locking => exact oversleeps_locking hrow hidle (.inl hpc) hpark (hfree rfl)
    case testing => exact oversleeps_testing hrow hidle hpc hpark
    case waiting => exact Lost.oversleeps ⟨hrow, hidle, hpark, hpc⟩
    case waking => exact oversleeps_locking hrow hidle (.inr hpc) hpark (hfree rfl)
    case unlocking => exact hpark.elim
    case querying => exact hpark.elim
    case polling => exact hpark.elim
    case deactivating => exact oversleeps_deactivating hrow hidle hpc (hfree rfl)
    case deactLocking => exact oversleeps_deactLocking hrow hidle hpc (hfree rfl)
    case storing => exact oversleeps_storing hrow hidle hpc
    case deactUnlocking => exact oversleeps_deactUnlocking hrow hidle hpc (hp.inside.cleared hpc)
  · rintro ⟨n, q, hrun, hlost⟩
    clear hp
    induction n generalizing s with
    | zero =>
      cases hrun
      obtain ⟨hrow, hidle, hactive, hpc⟩ := hlost
      refine ⟨hrow, hidle, ?_⟩
      rw [Parking, show s.poller = .waiting from hpc]
      exact hactive
    | succ n ih =>
      obtain ⟨u, hu, hrun⟩ := Run.run_cons.mp hrun
      obtain ⟨s', hs', rfl⟩ := step_env.mp hu
      have hstep := pollerStep_cases hs'
      obtain ⟨hrow, hidle, hpark⟩ := ih s' hrun
      refine ⟨?_, hidle, parking_of_step hstep hpark⟩
      cases hstep <;> exact hrow

/-! ### Which runs lose a row -/

/-- The next step of submission `i` is its last. -/
def Ends (p : TaskPool) (i : ℕ) : Prop :=
  p.calls[i]? = some .loading ∧ p.shared.taskActive = 1 ∨ p.calls[i]? = some .unlocking

def OtherRuns (p : TaskPool) (i : ℕ) : Prop := ∃ j c, j ≠ i ∧ p.calls[j]? = some c ∧ c ≠ .done

def Poller.deactivates : Poller → Bool
  | .deactivating | .deactLocking | .storing => true
  | _ => false

/-- No query fails with nobody to wake the poller, and no last submission ends too early. -/
def Careful (p : TaskPool) : TaskEvent → Prop
  | .env (.query failed) => p.shared.poller = .querying → failed = true →
      p.shared.unfinished = 0 ∨ ¬ Idle p
  | .move i _ => Ends p i → p.shared.poller.deactivates = true →
      p.shared.unfinished = 0 ∨ OtherRuns p i
  | _ => True

lemma not_otherRuns : ¬ OtherRuns p i ↔ ∀ j c, j ≠ i → p.calls[j]? = some c → c = .done := by
  simp only [OtherRuns]
  push Not
  rfl

lemma parking_iff_of_ends (hp : Good p) (h : Ends p i) :
    Parking p.shared ↔ p.shared.poller.deactivates = true := by
  have hactive : p.shared.taskActive = 1 := by
    rcases h with ⟨-, hactive⟩ | hunlock
    · exact hactive
    · exact (hp.held i _ hunlock).set rfl
  have hcleared : p.shared.poller ≠ .deactUnlocking := by
    intro hpc
    have hzero := hp.inside.cleared hpc
    omega
  unfold Parking
  revert hcleared
  cases p.shared.poller <;> simp [Poller.deactivates, hactive]

lemma doomed_move {t : Shared} {insert : Insert} (hp : Good p) (hc : p.calls[i]? = some c)
    (h : Advance i p.shared c t c') :
    Doomed ⟨t, p.calls.set i c'⟩ ↔ ¬ Careful p (.move i insert) := by
  have hcareful : ¬ Careful p (.move i insert) ↔ Ends p i ∧ p.shared.poller.deactivates = true ∧
      0 < p.shared.unfinished ∧ ∀ j d, j ≠ i → p.calls[j]? = some d → d = .done := by
    simp only [Careful, ← not_otherRuns]
    push Not
    simp only [Nat.pos_iff_ne_zero]
  rw [hcareful, Doomed, Idle, forall_mem_set_iff hc]
  have hnot : c ≠ .loading → c ≠ .unlocking → ¬ Ends p i := by
    rintro hload hunlock (⟨h₁, -⟩ | h₂)
    · exact hload (some.inj (hc.symm.trans h₁))
    · exact hunlock (some.inj (hc.symm.trans h₂))
  cases h with
  | insert k | lock hfree | store | signal => simp [hnot]
  | seen hactive =>
    have hends : Ends p i := .inl ⟨hc, hactive⟩
    rw [parking_iff_of_ends hp hends]
    tauto
  | unseen hactive =>
    have hends : ¬ Ends p i := by
      rintro (⟨-, hone⟩ | hunlock)
      · exact hactive hone
      · rw [hc] at hunlock
        cases hunlock
    simp [hends]
  | unlock =>
    have hends : Ends p i := .inr hc
    have hsame : Parking { p.shared with lock := none } ↔ Parking p.shared := Iff.rfl
    rw [hsame, parking_iff_of_ends hp hends]
    tauto

lemma doomed_step (hp : Good p) (hnot : ¬ Doomed p) (h : system.step p e = some q) :
    ¬ Doomed q ↔ Careful p e := by
  cases step_cases h with
  | arrive =>
    refine iff_of_true (fun hdoomed => ?_) trivial
    have hlast := hdoomed.2.1 .inserting (by simp)
    cases hlast
  | move hc hadv => rw [doomed_move hp hc hadv, not_not]
  | env henv =>
    cases henv with
    | poller hstep =>
      refine iff_of_true (fun hdoomed => hnot ?_) trivial
      obtain ⟨hrow, hidle, hpark⟩ := hdoomed
      refine ⟨?_, hidle, parking_of_step hstep hpark⟩
      cases hstep <;> exact hrow
    | empty hpc hempty =>
      have hdoomed : Doomed ⟨{ p.shared with poller := .deactivating }, p.calls⟩ ↔
          0 < p.shared.unfinished ∧ Idle p := and_congr_right fun _ => and_iff_left trivial
      simp only [Careful, hpc]
      have hpos := Nat.pos_iff_ne_zero (n := p.shared.unfinished)
      tauto
    | found hpc hfound =>
      refine iff_of_true (fun hdoomed => hdoomed.2.2) fun _ hfailed => ?_
      exact absurd (.inl hfailed) hfound
    | round hpc => exact iff_of_true (fun hdoomed => hdoomed.2.2) trivial
    | finish =>
      refine iff_of_true (fun hdoomed => hnot ?_) trivial
      obtain ⟨hrow, hidle, hpark⟩ := hdoomed
      have hrow' : 0 < p.shared.unfinished := by
        have hminus : 0 < p.shared.unfinished - 1 := hrow
        omega
      exact ⟨hrow', hidle, hpark⟩

lemma careful_of_none (h : system.step p e = none) : Careful p e := by
  cases e with
  | arrive k => trivial
  | move i insert =>
    rintro (⟨hc, -⟩ | hc) <;> simp only [System.step, hc, bind_some, map_eq_none_iff] at h
    · simp only [system, advance] at h
      split_ifs at h
    · cases h
  | env a =>
    cases a with
    | query failed =>
      intro hpc
      simp [System.step, system, env, hpc] at h
    | poller | round | finish => trivial

/-- **Which runs lose no row**: those whose steps are all careful. -/
theorem polled_iff (rows : ℕ) (events : List TaskEvent) :
    Run.Stays system.step (fun p => ¬ Oversleeps p) (initTask rows) events ↔
      Run.Along system.step Careful (initTask rows) events := by
  have hgood := good_initTask rows
  have hstart : ¬ Doomed (initTask rows) := by
    intro hdoomed
    cases hdoomed.2.1 .loading (by simp [initTask])
  have hexact : Run.Stays system.step (fun p => ¬ Doomed p) (initTask rows) events ↔
      Run.Along system.step Careful (initTask rows) events :=
    Run.stays_iff_along_of_invariant careful_of_none good_step doomed_step hgood hstart
  rw [← hexact]
  refine forall₃_congr fun k p hrun => ?_
  exact not_congr (doomed_iff (Run.run_invariant' good_step hgood hrun)).symm

/-- A row is inserted after the poller's query, and the flag is found set. -/
def race : List TaskEvent :=
  -- the activation at the start, and the first query
  [.move 0 .failed, .move 0 .failed, .move 0 .failed, .move 0 .failed, .move 0 .failed] ++
  [.env .poller, .env .poller, .env .poller, .env (.query false)] ++
  -- the submission
  [.arrive (), .move 1 .unfinished, .move 1 .unfinished] ++
  -- `DeactivateTask`, and back in `Task`
  replicate 6 (.env .poller)

theorem lost_wakeup : ∃ p, Run.run system.step (initTask 0) race = some p ∧ Lost p := by
  have hrun : (Run.run system.step (initTask 0) race).map (fun p => decide (Lost p)) =
      some true := by
    decide
  obtain ⟨p, hp, hlost⟩ := map_eq_some_iff.mp hrun
  exact ⟨p, hp, of_decide_eq_true hlost⟩

end Tokilake.Relay.Wakeup
