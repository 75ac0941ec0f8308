import Tokilake.Billing.Batch
import Tokilake.Lib.Calls
import Mathlib.Tactic.Linarith
import Mathlib.Tactic.Ring

/-! # Payment callbacks

`PaymentCallback` takes the mutex of the `GatewayNo`, reads the order of the `TradeNo`, stores it as
a success if it is pending, and increases the user's quota.  Each access is one step and may fail.

* `exact_iff`: when a stored success has exactly one credit. -/

namespace Tokilake.Billing.Payment

open Lib.Run Lib.Calls Billing.Batch

/-! ### The steps of a callback -/

inductive OrderStatus
  | pending
  | success
  | failed
  | closed
  deriving DecidableEq

structure Order where
  tradeNo : String
  gatewayNo : String
  quota : ℤ
  status : OrderStatus
  deriving DecidableEq

/-- The order, its user's quota, the mutexes by `GatewayNo`, and whether batch updates are on. -/
structure State where
  order : Order
  user : Balance
  locks : String → Option ℕ
  batchUpdateEnabled : Bool

inductive Result
  | notFound
  | notPending
  | notStored
  | notCredited
  | credited
  deriving DecidableEq

inductive Phase
  | locking
  | reading
  | updating (order : Order)
  | increasing (order : Order)
  | unlocking (r : Result)
  | ended (r : Result)
  deriving DecidableEq

structure Call where
  gatewayNo : String
  tradeNo : String
  phase : Phase
  deriving DecidableEq

variable (c : Call)

def Call.goto (phase : Phase) : Call := { c with phase }

def start (notify : String × String) : Call := ⟨notify.1, notify.2, .locking⟩

def State.setLock (s : State) (gatewayNo : String) (owner : Option ℕ) : State :=
  { s with locks := Function.update s.locks gatewayNo owner }

def advance (i : ℕ) (s : State) (c : Call) (ok : Bool) : Option (State × Call) :=
  match c.phase with
  -- `LockOrder` is called with the `GatewayNo`, the order is read by its `TradeNo`
  | .locking =>
    if ok ∧ s.locks c.gatewayNo = none then
      some (s.setLock c.gatewayNo (some i), c.goto .reading)
    else none
  | .reading =>
    if ok = false ∨ s.order.tradeNo ≠ c.tradeNo then some (s, c.goto (.unlocking .notFound))
    else if s.order.status ≠ .pending then some (s, c.goto (.unlocking .notPending))
    else some (s, c.goto (.updating { s.order with gatewayNo := c.gatewayNo, status := .success }))
  | .updating order =>
    if ok then some ({ s with order }, c.goto (.increasing order))
    else some (s, c.goto (.unlocking .notStored))
  | .increasing order =>
    let r := s.user.increase s.batchUpdateEnabled ok order.quota
    some ({ s with user := r.1 }, c.goto (.unlocking (if r.2 then .credited else .notCredited)))
  | .unlocking r =>
    if ok then some (s.setLock c.gatewayNo none, c.goto (.ended r)) else none
  | .ended _ => none

def env (s : State) (f : Flush) : Option State := (s.user.flush f).map fun user => { s with user }

def callbacks : System State Call (String × String) Bool Flush := ⟨start, advance, env⟩

/-- The callback has stored the order and not tried to increase the quota yet. -/
def Call.owes : Bool :=
  match c.phase with
  | .increasing _ => true
  | _ => false

@[simp] def Call.paid : Bool :=
  match c.phase with
  | .unlocking .credited | .ended .credited => true
  | _ => false

lemma owes_increasing (o : Order) : (c.goto (.increasing o)).owes = true := rfl

lemma paid_increasing (o : Order) : (c.goto (.increasing o)).paid = false := rfl

lemma owes_unlocking (r : Result) : (c.goto (.unlocking r)).owes = false := rfl

lemma paid_unlocking (b : Bool) :
    (c.goto (.unlocking (if b then .credited else .notCredited))).paid = b := by
  cases b <;> rfl

inductive Trans (i : ℕ) (s : State) (c : Call) : Bool → State → Call → Prop
  | quiet (ok : Bool) (locks : String → Option ℕ) (phase : Phase)
      (hcopy : ∀ o, phase = .updating o →
        o = { s.order with gatewayNo := c.gatewayNo, status := .success })
      (howes : c.owes = false) (howes' : (c.goto phase).owes = false)
      (hpaid : (c.goto phase).paid = c.paid) (hnot : ok = true → ∀ o, c.phase ≠ .updating o) :
      Trans i s c ok { s with locks } (c.goto phase)
  | store (order : Order) (h : c.phase = .updating order) :
      Trans i s c true { s with order } (c.goto (.increasing order))
  | increase (ok : Bool) (order : Order) (r : Balance × Bool) (h : c.phase = .increasing order)
      (hr : s.user.increase s.batchUpdateEnabled ok order.quota = r) :
      Trans i s c ok { s with user := r.1 }
        (c.goto (.unlocking (if r.2 then .credited else .notCredited)))

lemma advance_trans {i : ℕ} {s s' : State} {c c' : Call} {ok : Bool}
    (h : advance i s c ok = some (s', c')) : Trans i s c ok s' c' := by
  unfold advance at h
  split at h
  next hp =>
    split_ifs at h
    cases h
    exact .quiet ok _ _ (by simp) (by simp [Call.owes, hp]) rfl (by simp [Call.goto, hp])
      (by simp [hp])
  next hp =>
    have howes : c.owes = false := by simp [Call.owes, hp]
    have hpaid : c.paid = false := by simp [hp]
    split_ifs at h
    all_goals
      cases h
      exact .quiet ok s.locks _ (by simp) howes rfl (by rw [hpaid]; rfl) (by simp [hp])
  next order hp =>
    split_ifs at h with hok
    · subst hok; cases h; exact .store order hp
    · cases h
      exact .quiet ok s.locks _ (by simp) (by simp [Call.owes, hp]) rfl
        (by simp [Call.goto, hp]) (fun h => absurd h hok)
  next order hp => cases h; exact .increase ok order _ hp rfl
  next r hp =>
    split_ifs at h
    cases h
    exact .quiet ok _ _ (by simp) (by simp [Call.owes, hp]) rfl
      (by cases r <;> simp [Call.goto, hp]) (by simp [hp])
  next => cases h

/-! ### What every run keeps -/

def Known (q : ℤ) (s : State) : Prop :=
  s.order.quota = q ∧ (s.order.status = .pending ∨ s.order.status = .success)

def Copied (q : ℤ) (_ : ℕ) (_ : State) (c : Call) : Prop :=
  ∀ o, c.phase = .updating o ∨ c.phase = .increasing o → o.quota = q ∧ o.status = .success

lemma stable (q : ℤ) : Stable callbacks (Known q) (Copied q) where
  start k _ := by simp [callbacks, start, Copied]
  own {i s c ok s' c'} hI hc h := by
    obtain ⟨hq, hstatus⟩ := hI
    cases advance_trans h with
    | quiet _ locks phase hcopy howes howes' hpaid hnot =>
      refine ⟨⟨hq, hstatus⟩, fun o ho => ?_⟩
      rcases ho with ho | ho
      · rw [hcopy o ho]; exact ⟨hq, rfl⟩
      · simp [Call.owes, ho] at howes'
    | store order hp =>
      obtain ⟨hoq, hos⟩ := hc order (Or.inl hp)
      refine ⟨⟨hoq, Or.inr hos⟩, fun o ho => ?_⟩
      obtain ho | ho := ho
      · cases ho
      · cases ho; exact ⟨hoq, hos⟩
    | increase _ order r hp hr =>
      exact ⟨⟨hq, hstatus⟩, fun o ho => by rcases ho with ho | ho <;> cases ho⟩
  other _ _ hd _ _ := hd
  env {s f s'} hI h := by
    obtain ⟨user, -, rfl⟩ := Option.map_eq_some_iff.mp h
    exact ⟨hI, id⟩

/-! ### Exactly one credit -/

def made (p : Pool State Call) : ℕ := p.calls.countP Call.paid

def owed (p : Pool State Call) : ℕ := p.calls.countP Call.owes

structure Setup where
  order : Order
  user : Balance
  batchUpdateEnabled : Bool
  pending : order.status = .pending

def Setup.init (s : Setup) : Pool State Call :=
  ⟨⟨s.order, s.user, fun _ => none, s.batchUpdateEnabled⟩, []⟩

/-- A stored success has been credited once, or will be by the callback that stored it. -/
def Exact (s : Setup) (p : Pool State Call) : Prop :=
  made p + owed p = (if p.shared.order.status = .success then 1 else 0) ∧
    p.shared.user.total = s.user.total + made p * s.order.quota

/-- The order is stored only while pending, no increase fails and no batch update is lost. -/
def Sound (p : Pool State Call) : Event (String × String) Bool Flush → Prop
  | .arrive _ => True
  | .move i ok => ∀ c, p.calls[i]? = some c →
      (∀ o, c.phase = .updating o → ok = true → p.shared.order.status = .pending) ∧ (c.owes = true →
        0 ≤ p.shared.order.quota ∧ (p.shared.batchUpdateEnabled = true ∨ ok = true))
  | .env f => f = .apply false → p.shared.user.taken = 0

section
variable {p : Pool State Call} {i : ℕ} {c : Call}

lemma made_move (hc : p.calls[i]? = some c) (s' : State) (c' : Call) :
    made ⟨s', p.calls.set i c'⟩ + c.paid.toNat = made p + c'.paid.toNat :=
  countP_set Call.paid hc _

lemma owed_move (hc : p.calls[i]? = some c) (s' : State) (c' : Call) :
    owed ⟨s', p.calls.set i c'⟩ + c.owes.toNat = owed p + c'.owes.toNat :=
  countP_set Call.owes hc _

end

lemma step_exact {s : Setup} {p p' : Pool State Call} {e : Event (String × String) Bool Flush}
    (hJ : Known s.order.quota p.shared ∧ Each (Copied s.order.quota) p) (hp : Exact s p)
    (h : callbacks.step p e = some p') : Exact s p' ↔ Sound p e := by
  obtain ⟨⟨hq, hstatus⟩, hL⟩ := hJ
  cases e with
  | arrive notify =>
    cases h
    have hm : made { p with calls := p.calls ++ [callbacks.start notify] } = made p := by
      simp [made, callbacks, start]
    have ho : owed { p with calls := p.calls ++ [callbacks.start notify] } = owed p := by
      simp [owed, callbacks, start, Call.owes]
    exact iff_of_true (by rw [Exact, hm, ho]; exact hp) trivial
  | env f =>
    obtain ⟨s', hs', rfl⟩ := step_env.mp h
    obtain ⟨user, huser, rfl⟩ := Option.map_eq_some_iff.mp hs'
    have htotal := total_flush huser
    obtain ⟨hcount, hsum⟩ := hp
    have hp' : Exact s { p with shared := { p.shared with user } } ↔
        user.total = s.user.total + made p * s.order.quota :=
      ⟨fun h => h.2, fun h => ⟨hcount, h⟩⟩
    rw [hp', Sound, htotal, hsum]
    by_cases hf : f = .apply false
    · simp only [hf, if_true, forall_const]
      omega
    · simp [hf]
  | move i ok =>
    obtain ⟨c, s', c', hc, ha, rfl⟩ := step_move.mp h
    have hmade := made_move hc s' c'
    have howed := owed_move hc s' c'
    simp only [Sound, hc, Option.some.injEq, forall_eq']
    obtain ⟨hcount, hsum⟩ := hp
    cases advance_trans ha with
    | quiet _ locks phase hcopy howes howes' hpaid hnot =>
      rw [hpaid] at hmade
      rw [howes, howes'] at howed
      refine iff_of_true ?_ ⟨fun o hphase hok => absurd hphase (hnot hok o), by simp [howes]⟩
      rw [Exact, Nat.add_right_cancel hmade, Nat.add_right_cancel howed]
      exact ⟨hcount, hsum⟩
    | store order hphase =>
      obtain ⟨-, hsuccess⟩ := hL i c hc order (Or.inl hphase)
      have howes : c.owes = false := by simp [Call.owes, hphase]
      have hpaid : c.paid = false := by simp [hphase]
      rw [hpaid, paid_increasing] at hmade
      rw [howes, owes_increasing, Bool.toNat_false, Nat.add_zero, Bool.toNat_true] at howed
      have hpending : p.shared.order.status = .pending ↔ made p + owed p = 0 := by
        rw [hcount]
        rcases hstatus with h | h <;> simp [h]
      rw [Exact, Nat.add_right_cancel hmade, howed]
      simp only [hsuccess, howes, if_true, hsum, and_true, hphase, Phase.updating.injEq, forall_eq',
        forall_const, Bool.false_eq_true, false_imp_iff, hpending]
      omega
    | increase _ order r hphase hr =>
      obtain ⟨hoq, -⟩ := hL i c hc order (Or.inr hphase)
      have howes : c.owes = true := by simp [Call.owes, hphase]
      have hpaid : c.paid = false := by simp [hphase]
      rw [hpaid, paid_unlocking, Bool.toNat_false, Nat.add_zero] at hmade
      rw [howes, owes_unlocking, Bool.toNat_true, Bool.toNat_false, Nat.add_zero] at howed
      have hsound : r.2 = true ↔ 0 ≤ p.shared.order.quota ∧
          (p.shared.batchUpdateEnabled = true ∨ ok = true) := by
        rw [← hr, increase_ok, hoq, ← hq]
      have htotal : r.1.total = p.shared.user.total + if r.2 then s.order.quota else 0 := by
        rw [← hr, total_increase, hoq]
      simp only [hphase, reduceCtorEq, false_imp_iff, implies_true, true_and, howes, forall_const,
        ← hsound]
      rw [Exact, hmade, htotal, hsum]
      by_cases hpaid' : r.2 = true
      · have hone : r.2.toNat = 1 := by rw [hpaid']; rfl
        refine iff_of_true ⟨?_, ?_⟩ hpaid'
        · rw [← hcount]
          omega
        · rw [if_pos hpaid', hone]
          push_cast
          ring
      · -- the order is a success, as something was owed, and now nothing is
        have hzero : r.2.toNat = 0 := by simp [hpaid']
        refine iff_of_false (fun hexact => ?_) hpaid'
        have hnow := hexact.1
        rw [← hcount] at hnow
        omega

lemma exact_init (s : Setup) : Exact s s.init := by simp [Exact, made, owed, Setup.init, s.pending]

/-- **Exactly one credit** for a stored success, and none for a pending order. -/
theorem exact_iff (s : Setup) (es : List (Event (String × String) Bool Flush)) :
    Stays callbacks.step (Exact s) s.init es ↔ Along callbacks.step Sound s.init es := by
  refine stays_iff_along_of_invariant
    (J := fun p => Known s.order.quota p.shared ∧ Each (Copied s.order.quota) p) (fun {p e} h => ?_)
    (fun hJ h => (stable _).step hJ h) (fun hJ hp h => step_exact hJ hp h)
    ⟨⟨rfl, Or.inl s.pending⟩, fun i c hc => by simp [Setup.init] at hc⟩ (exact_init s)
  -- neither a store nor an increase ever waits
  cases e with
  | arrive notify => trivial
  | env f =>
    rintro rfl
    simp [System.step, callbacks, env, Balance.flush] at h
  | move i ok =>
    intro c hc
    have h : advance i p.shared c ok = none := by simpa [System.step, hc, callbacks] using h
    refine ⟨fun o hphase hok => ?_, fun howes => ?_⟩
    · simp [advance, hphase, hok] at h
    · unfold Call.owes at howes
      split at howes
      next o hphase => simp [advance, hphase] at h
      next => cases howes

/-- Two callbacks both read the pending order; and one whose increase fails is not repeated. -/
theorem twice_and_never : let s : Setup := ⟨⟨"T", "", 500, .pending⟩, ⟨0, 0, 0⟩, false, rfl⟩
    let turn (i : ℕ) : Event (String × String) Bool Flush := .move i true
    (run callbacks.step s.init [.arrive ("G1", "T"), .arrive ("G2", "T"), turn 0, turn 1, turn 0,
        turn 1, turn 0, turn 0, turn 0, turn 1, turn 1, turn 1]).map
      (fun p => (p.calls.map Call.phase, p.shared.user.total)) =
        some ([.ended .credited, .ended .credited], 1000) ∧
    (run callbacks.step s.init [.arrive ("G1", "T"), turn 0, turn 0, turn 0, .move 0 false, turn 0,
        .arrive ("G1", "T"), turn 1, turn 1, turn 1]).map
      (fun p => (p.calls.map Call.phase, p.shared.user.total, p.shared.order.status)) =
        some ([.ended .notCredited, .ended .notPending], 0, .success) := by
  decide

end Tokilake.Billing.Payment
