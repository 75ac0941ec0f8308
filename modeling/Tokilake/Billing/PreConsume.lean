import Tokilake.Billing.Batch
import Tokilake.Lib.Calls
import Mathlib.Algebra.Order.Ring.Int

/-! # Concurrent estimates

`PreConsumeTokenQuota` reads two balances, compares each with the estimate and then decreases each.

* `respected_iff`: when no balance is taken below zero. -/

namespace Tokilake.Billing.PreConsume

open Lib.Run Lib.Calls Billing.Batch Option

/-! ### The steps of a call -/

structure State where
  token : Balance
  unlimitedQuota : Bool
  user : Balance
  batchUpdateEnabled : Bool
  deriving DecidableEq

/-- Where a call stands: `token` and `user` say whether it has decreased that balance. -/
inductive Phase
  | readingToken
  | readingUser (unlimited : Bool)
  | decreasingToken
  | decreasingUser (token : Bool)
  | returned (token user : Bool) (error : Option String)
  deriving DecidableEq

structure Call where
  quota : ℤ
  phase : Phase
  deriving DecidableEq

@[simp] def Call.goto (c : Call) (phase : Phase) : Call := { c with phase }

def Call.refuse (c : Call) (error : String) : Call := c.goto (.returned false false (some error))

def start (quota : ℤ) : Call :=
  ⟨quota, if quota < 0 then .returned false false (some "quota 不能为负数！") else .readingToken⟩

def advance (_ : ℕ) (s : State) (c : Call) (error : Option String) : Option (State × Call) :=
  match c.phase with
  | .readingToken =>
    match error with
    | some e => some (s, c.refuse e)
    | none =>
      if s.unlimitedQuota = false ∧ s.token.stored < c.quota then some (s, c.refuse "令牌额度不足")
      else some (s, c.goto (.readingUser s.unlimitedQuota))
  | .readingUser unlimited =>
    match error with
    | some e => some (s, c.refuse e)
    | none =>
      if s.user.stored < c.quota then some (s, c.refuse "用户额度不足")
      else some (s, c.goto (if unlimited then .decreasingUser false else .decreasingToken))
  | .decreasingToken =>
    let r := s.token.decrease s.batchUpdateEnabled error.isNone c.quota
    some ({ s with token := r.1 },
      c.goto (if r.2 then .decreasingUser true else .returned false false error))
  | .decreasingUser token =>
    let r := s.user.decrease s.batchUpdateEnabled error.isNone c.quota
    some ({ s with user := r.1 }, c.goto (.returned token r.2 (if r.2 then none else error)))
  | .returned _ _ _ => none

inductive Round
  | token (f : Flush)
  | user (f : Flush)
  deriving DecidableEq

def env (s : State) : Round → Option State
  | .token f => (s.token.flush f).map fun token => { s with token }
  | .user f => (s.user.flush f).map fun user => { s with user }

def preConsume : System State Call ℤ (Option String) Round := ⟨start, advance, env⟩

def Call.token (c : Call) : Bool :=
  match c.phase with
  | .decreasingUser token | .returned token _ _ => token
  | _ => false

def Call.user (c : Call) : Bool :=
  match c.phase with
  | .returned _ user _ => user
  | _ => false

def Call.halfDone (c : Call) : Bool :=
  match c.phase with
  | .decreasingUser token => token
  | _ => false

def State.applies (s : State) (error : Option String) : Bool := s.batchUpdateEnabled || error.isNone

/-- What a step of a call can do: only two of the accesses change a balance. -/
inductive Trans (s : State) (c : Call) (error : Option String) : State → Call → Prop
  | refuse (text : String) (h : c.phase = .readingToken ∨ ∃ u, c.phase = .readingUser u) :
      Trans s c error s (c.refuse text)
  | readToken (h : c.phase = .readingToken) :
      Trans s c error s (c.goto (.readingUser s.unlimitedQuota))
  | readUser (u : Bool) (h : c.phase = .readingUser u) :
      Trans s c error s (c.goto (if u then .decreasingUser false else .decreasingToken))
  | failToken (h : c.phase = .decreasingToken) (happ : s.applies error = false) :
      Trans s c error s (c.goto (.returned false false error))
  | failUser (t : Bool) (h : c.phase = .decreasingUser t) (happ : s.applies error = false) :
      Trans s c error s (c.goto (.returned t false error))
  | takeToken (token : Balance) (h : c.phase = .decreasingToken) (happ : s.applies error = true)
      (hdrain : s.token.Draining → token.Draining)
      (htotal : token.total = s.token.total - c.quota) :
      Trans s c error { s with token } (c.goto (.decreasingUser true))
  | takeUser (user : Balance) (t : Bool) (h : c.phase = .decreasingUser t)
      (happ : s.applies error = true) (hdrain : s.user.Draining → user.Draining)
      (htotal : user.total = s.user.total - c.quota) :
      Trans s c error { s with user } (c.goto (.returned t true none))

lemma decrease_cases (b : Balance) (batch ok : Bool) {quota : ℤ} (hq : 0 ≤ quota) :
    ((batch || ok) = true ∧ (b.decrease batch ok quota).2 = true ∧
      (b.decrease batch ok quota).1.total = b.total - quota) ∨
    ((batch || ok) = false ∧ b.decrease batch ok quota = (b, false)) := by
  cases h : batch || ok with
  | true => exact Or.inl ⟨rfl, by rw [decrease_ok hq, h], by rw [total_decrease hq, h, if_pos rfl]⟩
  | false =>
    obtain ⟨rfl, rfl⟩ : batch = false ∧ ok = false := by simpa using h
    refine Or.inr ⟨rfl, ?_⟩
    rw [Balance.decrease, if_neg (by omega)]
    rfl

lemma advance_trans {i : ℕ} {s s' : State} {c c' : Call} {error : Option String} (hq : 0 ≤ c.quota)
    (h : advance i s c error = some (s', c')) : Trans s c error s' c' := by
  unfold advance at h
  split at h
  next hp =>
    split at h
    · cases h; exact .refuse _ (Or.inl hp)
    · split_ifs at h
      · cases h; exact .refuse _ (Or.inl hp)
      · cases h; exact .readToken hp
  next u hp =>
    split at h
    · cases h; exact .refuse _ (Or.inr ⟨u, hp⟩)
    split_ifs at h with hlow hu
    · cases h; exact .refuse _ (Or.inr ⟨u, hp⟩)
    · subst hu; cases h; exact .readUser true hp
    · obtain rfl : u = false := by simpa using hu
      cases h
      exact .readUser false hp
  next hp =>
    rcases decrease_cases s.token s.batchUpdateEnabled error.isNone hq with
      ⟨happ, hr, htotal⟩ | ⟨happ, hr⟩
    · simp only [hr, if_true, some.injEq, Prod.mk.injEq] at h
      obtain ⟨rfl, rfl⟩ := h
      exact .takeToken _ hp happ draining_decrease htotal
    · simp only [hr, Bool.false_eq_true, if_false, some.injEq, Prod.mk.injEq] at h
      obtain ⟨rfl, rfl⟩ := h
      exact .failToken hp happ
  next t hp =>
    rcases decrease_cases s.user s.batchUpdateEnabled error.isNone hq with
      ⟨happ, hr, htotal⟩ | ⟨happ, hr⟩
    · simp only [hr, if_true, some.injEq, Prod.mk.injEq] at h
      obtain ⟨rfl, rfl⟩ := h
      exact .takeUser _ t hp happ draining_decrease htotal
    · simp only [hr, Bool.false_eq_true, if_false, some.injEq, Prod.mk.injEq] at h
      obtain ⟨rfl, rfl⟩ := h
      exact .failUser t hp happ
  next => cases h

/-! ### What every run keeps -/

def Limited (s : State) : Prop := s.unlimitedQuota = false ∧ s.token.Draining ∧ s.user.Draining

def Asks (_ : ℕ) (_ : State) (c : Call) : Prop :=
  (c.quota < 0 → ∃ e, c.phase = .returned false false e) ∧
    c.phase ≠ .readingUser true ∧ c.phase ≠ .decreasingUser false

lemma asks_trans {i : ℕ} {s s' : State} {c c' : Call} {error : Option String} (hc : Asks i s c)
    (h : advance i s c error = some (s', c')) : 0 ≤ c.quota ∧ Trans s c error s' c' := by
  have hq : 0 ≤ c.quota := by
    by_contra hneg
    obtain ⟨e, he⟩ := hc.1 (not_le.mp hneg)
    simp [advance, he] at h
  exact ⟨hq, advance_trans hq h⟩

lemma stable : Stable preConsume Limited Asks where
  start quota _ := by
    unfold preConsume start Asks
    by_cases h : quota < 0
    · simp [h]
    · simp [h]
  own {i s c error s' c'} hI hc h := by
    obtain ⟨hlim, ht, hu⟩ := hI
    obtain ⟨hq, hstep⟩ := asks_trans hc h
    -- a call that moves has a quota that is not negative
    have hask : ∀ {t : State} {phase : Phase}, phase ≠ .readingUser true →
        phase ≠ .decreasingUser false → Asks i t (c.goto phase) :=
      fun h1 h2 => ⟨fun hneg => absurd hq (not_le.mpr hneg), h1, h2⟩
    cases hstep with
    | refuse text hp | failToken hp happ | failUser t hp happ =>
      exact ⟨⟨hlim, ht, hu⟩, hask (by simp) (by simp)⟩
    | readToken hp => exact ⟨⟨hlim, ht, hu⟩, hask (by simp [hlim]) (by simp)⟩
    | readUser u hp =>
      obtain rfl : u = false := by
        cases u
        · rfl
        · exact absurd hp hc.2.1
      exact ⟨⟨hlim, ht, hu⟩, hask (by simp) (by simp)⟩
    | takeToken token hp happ hdrain htotal =>
      exact ⟨⟨hlim, hdrain ht, hu⟩, hask (by simp) (by simp)⟩
    | takeUser user t hp happ hdrain htotal =>
      exact ⟨⟨hlim, ht, hdrain hu⟩, hask (by simp) (by simp)⟩
  other _ _ hd _ _ := hd
  env {s f s'} hI h := by
    obtain ⟨hlim, ht, hu⟩ := hI
    cases f with
    | token f =>
      obtain ⟨token, htoken, rfl⟩ := map_eq_some_iff.mp h
      exact ⟨⟨hlim, draining_flush ht htoken, hu⟩, id⟩
    | user f =>
      obtain ⟨user, huser, rfl⟩ := map_eq_some_iff.mp h
      exact ⟨⟨hlim, ht, draining_flush hu huser⟩, id⟩

/-! ### No balance becomes negative -/

/-- Neither balance is negative, and a call that would overdraw one has changed neither. -/
def Respected (p : Pool State Call) : Prop :=
  0 ≤ p.shared.token.total ∧ 0 ≤ p.shared.user.total ∧
    ∀ c ∈ p.calls, c.halfDone = true → c.quota ≤ p.shared.user.total

/-- Every decrease is covered by both balances, with enough left for calls under way. -/
def Covered (p : Pool State Call) : Event ℤ (Option String) Round → Prop
  | .move i error => ∀ c, p.calls[i]? = some c → p.shared.applies error = true →
      (c.phase = .decreasingToken →
        c.quota ≤ p.shared.token.total ∧ c.quota ≤ p.shared.user.total) ∧
      (∀ t, c.phase = .decreasingUser t → c.quota ≤ p.shared.user.total ∧
        ∀ j d, p.calls[j]? = some d → i ≠ j → d.halfDone = true →
          d.quota ≤ p.shared.user.total - c.quota)
  | _ => True

section
variable {p : Pool State Call} {i : ℕ} {c c' : Call} {s' : State} {error : Option String}

lemma halfDone_set (hc : p.calls[i]? = some c) {bound : ℤ} :
    (∀ d ∈ p.calls.set i c', d.halfDone = true → d.quota ≤ bound) ↔
      (c'.halfDone = true → c'.quota ≤ bound) ∧
      ∀ j d, p.calls[j]? = some d → i ≠ j → d.halfDone = true → d.quota ≤ bound := by
  rw [forall_mem_set_iff hc]
  refine and_congr_right fun _ => forall₂_congr fun j d => ?_
  exact ⟨fun h hd hij => h hij.symm hd, fun h hij hd => h hd hij.symm⟩

lemma respected_quiet (hp : Respected p) (hc : p.calls[i]? = some c)
    (hhalf : c'.halfDone = false)
    (hnot : p.shared.applies error = true →
      c.phase ≠ .decreasingToken ∧ ∀ t, c.phase ≠ .decreasingUser t) :
    Respected ⟨p.shared, p.calls.set i c'⟩ ↔ Covered p (.move i error) := by
  refine iff_of_true ⟨hp.1, hp.2.1, ?_⟩ fun d hd happ => ?_
  · refine (halfDone_set hc).mpr ⟨by simp [hhalf], fun j d hd _ => ?_⟩
    exact hp.2.2 d (List.mem_of_getElem? hd)
  · obtain rfl := some.inj (hc.symm.trans hd)
    exact ⟨fun h => absurd h (hnot happ).1, fun t h => absurd h ((hnot happ).2 t)⟩

lemma respected_move (hp : Respected p) (hc : p.calls[i]? = some c)
    (h : Trans p.shared c error s' c') :
    Respected ⟨s', p.calls.set i c'⟩ ↔ Covered p (.move i error) := by
  cases h with
  | refuse text hphase =>
    refine respected_quiet hp hc rfl fun _ => ?_
    rcases hphase with h | ⟨u, h⟩ <;> simp [h]
  | readToken hphase => exact respected_quiet hp hc rfl fun _ => by simp [hphase]
  | readUser u hphase =>
    refine respected_quiet hp hc ?_ fun _ => by simp [hphase]
    cases u <;> rfl
  | failToken hphase happ | failUser t hphase happ =>
    exact respected_quiet hp hc rfl fun h => by simp [happ] at h
  | takeToken token hphase happ hdrain htotal =>
    simp only [Covered, hc, some.injEq, forall_eq']
    rw [Respected, halfDone_set hc]
    constructor
    · rintro ⟨ht, -, hself, -⟩ -
      have ht : 0 ≤ token.total := ht
      exact ⟨fun _ => ⟨by omega, hself rfl⟩, by simp [hphase]⟩
    · intro h
      obtain ⟨h1, h2⟩ := (h happ).1 hphase
      have ht : 0 ≤ token.total := by omega
      exact ⟨ht, hp.2.1, fun _ => h2, fun j d hd _ => hp.2.2 d (List.mem_of_getElem? hd)⟩
  | takeUser user t hphase happ hdrain htotal =>
    simp only [Covered, hc, some.injEq, forall_eq']
    rw [Respected, halfDone_set hc]
    constructor
    · rintro ⟨-, hu, -, hother⟩ -
      have hu : 0 ≤ user.total := hu
      refine ⟨by simp [hphase], fun _ _ => ⟨by omega, ?_⟩⟩
      rw [← htotal]
      exact hother
    · intro h
      obtain ⟨h1, h2⟩ := (h happ).2 t hphase
      have hu : 0 ≤ user.total := by omega
      rw [← htotal] at h2
      exact ⟨hp.1, hu, by simp [Call.halfDone], h2⟩

end

lemma step_respected {p p' : Pool State Call} {e : Event ℤ (Option String) Round}
    (hJ : Limited p.shared ∧ Each Asks p) (hp : Respected p) (h : preConsume.step p e = some p') :
    Respected p' ↔ Covered p e := by
  cases e with
  | arrive quota =>
    cases h
    refine iff_of_true ⟨hp.1, hp.2.1, fun c hc hhalf => ?_⟩ trivial
    rcases List.mem_append.mp hc with hc | hc
    · exact hp.2.2 c hc hhalf
    · obtain rfl := List.mem_singleton.mp hc
      unfold preConsume start Call.halfDone at hhalf
      by_cases hneg : quota < 0 <;> simp [hneg] at hhalf
  | move i error =>
    obtain ⟨c, s', c', hc, ha, rfl⟩ := step_move.mp h
    have hask := hJ.2 i c hc
    exact respected_move hp hc (asks_trans hask ha).2
  | env f =>
    -- what a round loses is a decrease, so a balance can only grow
    obtain ⟨s', hs', rfl⟩ := step_env.mp h
    obtain ⟨⟨-, ht, hu⟩, -⟩ := hJ
    have hgrow : ∀ {b b' : Balance} {f : Flush}, b.Draining → b.flush f = some b' →
        b.total ≤ b'.total := by
      intro b b' f hb hf
      have := total_flush hf
      have := hb.2
      split_ifs at * <;> omega
    refine iff_of_true ?_ trivial
    cases f with
    | token f =>
      obtain ⟨token, htoken, rfl⟩ := map_eq_some_iff.mp hs'
      exact ⟨le_trans hp.1 (hgrow ht htoken), hp.2⟩
    | user f =>
      obtain ⟨user, huser, rfl⟩ := map_eq_some_iff.mp hs'
      have := hgrow hu huser
      exact ⟨hp.1, le_trans hp.2.1 this, fun c hc hhalf => le_trans (hp.2.2 c hc hhalf) this⟩

/-- A limited token and its user, neither in debt, and nothing in the batch store. -/
structure Setup where
  token : ℤ
  user : ℤ
  batchUpdateEnabled : Bool
  token_nonneg : 0 ≤ token
  user_nonneg : 0 ≤ user

def Setup.init (s : Setup) : Pool State Call :=
  ⟨⟨⟨s.token, 0, 0⟩, false, ⟨s.user, 0, 0⟩, s.batchUpdateEnabled⟩, []⟩

/-! ### What each call has taken -/

def Call.fromToken (c : Call) : ℤ := if c.token then c.quota else 0

def Call.fromUser (c : Call) : ℤ := if c.user then c.quota else 0

def Ledger (s : Setup) (p : Pool State Call) : Prop :=
  p.shared.token.total + total Call.fromToken p.calls = s.token ∧
    p.shared.user.total + total Call.fromUser p.calls = s.user

def Flushed (_ : Pool State Call) (e : Event ℤ (Option String) Round) : Prop :=
  e ≠ .env (.token (.apply false)) ∧ e ≠ .env (.user (.apply false))

lemma trans_ledger {s s' : State} {c c' : Call} {error : Option String}
    (h : Trans s c error s' c') : s'.token.total + c'.fromToken = s.token.total + c.fromToken ∧
      s'.user.total + c'.fromUser = s.user.total + c.fromUser := by
  unfold Call.fromToken Call.fromUser Call.token Call.user
  cases h with
  | refuse text hphase =>
    rcases hphase with h | ⟨u, h⟩ <;> simp [h, Call.refuse]
  | readToken hphase | failToken hphase happ => simp [hphase]
  | readUser t hphase | failUser t hphase => cases t <;> simp [hphase]
  | takeToken token hphase happ hdrain htotal => simp [hphase, htotal]
  | takeUser user t hphase happ hdrain htotal => cases t <;> simp [hphase, htotal]

lemma ledger_step {s : Setup} {p p' : Pool State Call} {e : Event ℤ (Option String) Round}
    (hJ : Limited p.shared ∧ Each Asks p) (hp : Ledger s p) (hf : Flushed p e)
    (h : preConsume.step p e = some p') : Ledger s p' := by
  obtain ⟨ht, hu⟩ := hp
  cases e with
  | arrive quota =>
    cases h
    have hnew : (start quota).fromToken = 0 ∧ (start quota).fromUser = 0 := by
      unfold Call.fromToken Call.fromUser Call.token Call.user start
      by_cases hneg : quota < 0 <;> simp [hneg]
    have hnil : ∀ f : Call → ℤ, total f [start quota] = f (start quota) := fun f => by simp [total]
    refine ⟨?_, ?_⟩
    · rw [total_append, preConsume, hnil, hnew.1, add_zero]; exact ht
    · rw [total_append, preConsume, hnil, hnew.2, add_zero]; exact hu
  | move i error =>
    obtain ⟨c, s', c', hc, ha, rfl⟩ := step_move.mp h
    obtain ⟨h1, h2⟩ := trans_ledger (asks_trans (hJ.2 i c hc) ha).2
    have h3 := total_set Call.fromToken hc c'
    have h4 := total_set Call.fromUser hc c'
    refine ⟨?_, ?_⟩
    · dsimp only; omega
    · dsimp only; omega
  | env f =>
    obtain ⟨s', hs', rfl⟩ := step_env.mp h
    cases f with
    | token f =>
      obtain ⟨token, htoken, rfl⟩ := map_eq_some_iff.mp hs'
      have := total_flush htoken
      rw [if_neg (fun hf' => hf.1 (by rw [hf']))] at this
      exact ⟨by dsimp only; omega, hu⟩
    | user f =>
      obtain ⟨user, huser, rfl⟩ := map_eq_some_iff.mp hs'
      have := total_flush huser
      rw [if_neg (fun hf' => hf.2 (by rw [hf']))] at this
      exact ⟨ht, by dsimp only; omega⟩

lemma limited_init (s : Setup) : Limited s.init.shared ∧ Each Asks s.init :=
  ⟨⟨rfl, ⟨le_refl 0, le_refl 0⟩, ⟨le_refl 0, le_refl 0⟩⟩, fun i c hc => by simp [Setup.init] at hc⟩

/-- **No overdraft** exactly when every decrease is covered. -/
theorem respected_iff (s : Setup) (es : List (Event ℤ (Option String) Round)) :
    (Stays preConsume.step Respected s.init es ↔ Along preConsume.step Covered s.init es) ∧
    ∀ p, Along preConsume.step Flushed s.init es → run preConsume.step s.init es = some p →
      Ledger s p := by
  refine ⟨?_, fun p hf h => ?_⟩
  · refine stays_iff_along_of_invariant (J := fun p => Limited p.shared ∧ Each Asks p)
      (fun {p e} h => ?_) (fun hJ h => stable.step hJ h) (fun hJ hp h => step_respected hJ hp h)
      (limited_init s) ⟨by simp [Setup.init, Balance.total, s.token_nonneg],
        by simp [Setup.init, Balance.total, s.user_nonneg], by simp [Setup.init]⟩
    cases e with
    | arrive quota | env f => trivial
    | move i error =>
      intro c hc happ
      have h : advance i p.shared c error = none := by simpa [System.step, hc, preConsume] using h
      -- a decrease never waits
      exact ⟨fun hphase => by simp [advance, hphase] at h, fun t hphase => by
        simp [advance, hphase] at h⟩
  · have hinit : Ledger s s.init := by simp [Ledger, Setup.init, Balance.total, total]
    refine (run_invariant (I := fun p => (Limited p.shared ∧ Each Asks p) ∧ Ledger s p)
      (fun hI hok hstep => ⟨stable.step hI.1 hstep, ledger_step hI.1 hI.2 hok hstep⟩)
      ⟨limited_init s, hinit⟩ hf h).2

/-- Two calls of 60 on balances of 100, read first or batched: both balances are at -20. -/
theorem overdrawn : let s (batch : Bool) : Setup := ⟨100, 100, batch, by decide, by decide⟩
    let turn (i : ℕ) : Event ℤ (Option String) Round := .move i none
    let seen (p : Pool State Call) :=
      (p.calls.map Call.phase, p.shared.token.total, p.shared.user.total)
    (run preConsume.step (s false).init [.arrive 60, .arrive 60, turn 0, turn 0, turn 1, turn 1,
      turn 0, turn 0, turn 1, turn 1]).map seen =
        some ([.returned true true none, .returned true true none], -20, -20) ∧
    (run preConsume.step (s true).init [.arrive 60, turn 0, turn 0, turn 0, turn 0,
      .arrive 60, turn 1, turn 1, turn 1, turn 1]).map seen =
        some ([.returned true true none, .returned true true none], -20, -20) := by
  decide

end Tokilake.Billing.PreConsume
