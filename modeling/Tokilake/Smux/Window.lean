import Tokilake.Smux.Session

/-! # The window of a writer

A `write` loads `peer_consumed` and `peer_window` one after the other and subtracts them as wrapping
numbers of 32 bits.  `written` is a history.

* `safe_iff`: when the arithmetic is safe. -/

namespace Tokilake.Smux.Window

open Lib.Run Smux.Wire Smux.Session

/-! ### The computation -/

def signed (n : UInt32) : ℤ := n.toInt32.toInt

def wrap (n : ℤ) : ℤ := Int.bmod n (2 ^ 32)

inductive Verdict
  | consumedMore
  | size (n : ℕ)
  | wait
  deriving DecidableEq

variable (numWritten consumed window : UInt32)

/-- The difference of `peer_window as i32` and `inflight`, before it is cut to 32 bits. -/
def win : ℤ := signed window - signed (numWritten - consumed)

def verdict (len : ℕ) : Verdict :=
  if signed (numWritten - consumed) < 0 then .consumedMore
  else if 0 < wrap (win numWritten consumed window) then
    .size (min len (min maxPayloadSize (wrap (win numWritten consumed window)).toNat))
  else .wait

def Overflows : Prop :=
  0 ≤ signed (numWritten - consumed) ∧
    (win numWritten consumed window < -2 ^ 31 ∨ 2 ^ 31 ≤ win numWritten consumed window)

/-! ### The writer and the receive loop -/

inductive Phase
  | idle
  | checking (data : Bytes)
  | loadingConsumed (data : Bytes)
  | loadingWindow (data : Bytes) (consumed : UInt32)
  | computing (data : Bytes) (consumed window : UInt32)
  | sending (payload : Bytes) (consumed window : UInt32)
  | waiting (data : Bytes)
  deriving DecidableEq

structure State where
  numWritten : UInt32 := 0
  written : ℕ := 0
  peerConsumed : UInt32 := 0
  peerWindow : UInt32 := 262144
  windowNotify : Bool := false
  phase : Phase := .idle
  deriving DecidableEq

/-- The loop stores an update and notifies; `closed` and `sent` say what the session does. -/
inductive Label
  | storeConsumed (consumed : UInt32)
  | storeWindow (window : UInt32)
  | notify
  | write (data : Bytes)
  | check (closed : Bool)
  | loadConsumed
  | loadWindow
  | compute
  | send (sent : Bool)
  | wake
  | closed
  deriving DecidableEq

def step (s : State) : Label → Option State
  | .storeConsumed peerConsumed => some { s with peerConsumed }
  | .storeWindow peerWindow => some { s with peerWindow }
  | .notify => some { s with windowNotify := true }
  | .write data =>
    match s.phase with
    | .idle => some { s with phase := if data = [] then .idle else .checking data }
    | _ => none
  | .check closed =>
    match s.phase with
    | .checking data => some { s with phase := if closed then .idle else .loadingConsumed data }
    | _ => none
  | .loadConsumed =>
    match s.phase with
    | .loadingConsumed data => some { s with phase := .loadingWindow data s.peerConsumed }
    | _ => none
  | .loadWindow =>
    match s.phase with
    | .loadingWindow data consumed => some { s with phase := .computing data consumed s.peerWindow }
    | _ => none
  | .compute =>
    match s.phase with
    | .computing data consumed window =>
      match verdict s.numWritten consumed window data.length with
      | .consumedMore => some { s with phase := .idle }
      | .size n => some { s with phase := .sending (data.take n) consumed window }
      | .wait => some { s with phase := .waiting data }
    | _ => none
  | .send sent =>
    match s.phase with
    | .sending payload _ _ =>
      if sent then
        some { s with
          numWritten := s.numWritten + UInt32.ofNat payload.length
          written := s.written + payload.length
          phase := .idle }
      else some { s with phase := .idle }
    | _ => none
  | .wake =>
    match s.phase with
    | .waiting data =>
      if s.windowNotify then some
        { s with windowNotify := false, phase := .checking data } else none
    | _ => none
  | .closed =>
    match s.phase with
    | .waiting _ => some { s with phase := .idle }
    | _ => none

/-! ### What is claimed of a step -/

def unacknowledged (written : ℕ) (consumed : UInt32) : ℤ :=
  ((written : ℤ) - consumed.toNat) % 2 ^ 32

def NoOverflow (s : State) : Label → Prop
  | .compute => ∀ data consumed window, s.phase = .computing data consumed window →
      ¬ Overflows s.numWritten consumed window
  | _ => True

def Bounded (s : State) : Label → Prop
  | .send sent => ∀ payload consumed window, sent = true →
      s.phase = .sending payload consumed window →
        unacknowledged (s.written + payload.length) consumed ≤ window.toNat
  | _ => True

/-- The window is below 2^31, or exceeds it by what is not acknowledged. -/
def Moderate (s : State) : Label → Prop
  | .compute => ∀ data consumed window, s.phase = .computing data consumed window →
      unacknowledged s.written consumed < 2 ^ 31 →
        window.toNat < 2 ^ 31 ∨ unacknowledged s.written consumed + 2 ^ 31 ≤ window.toNat
  | _ => True

/-! ### Arithmetic -/

lemma signed_eq (n : UInt32) :
    signed n = if n.toNat < 2 ^ 31 then (n.toNat : ℤ) else n.toNat - 2 ^ 32 := by
  have hbits : signed n = n.toBitVec.toInt := rfl
  have hnat : n.toBitVec.toNat = n.toNat := rfl
  rw [hbits, BitVec.toInt_eq_toNat_cond, hnat]
  split_ifs <;> omega

lemma wrap_eq (n : ℤ) :
    wrap n = if n % 2 ^ 32 < 2 ^ 31 then n % 2 ^ 32 else n % 2 ^ 32 - 2 ^ 32 := by
  rw [wrap, Int.bmod_def]
  rfl

variable {numWritten consumed window : UInt32} {len n written : ℕ} {s t : State} {a : Label}

lemma overflows_iff : Overflows numWritten consumed window ↔
    2 ^ 31 ≤ window.toNat ∧ (numWritten - consumed).toNat < 2 ^ 31 ∧
      window.toNat < (numWritten - consumed).toNat + 2 ^ 31 := by
  have hwindow := window.toNat_lt
  have hinflight := (numWritten - consumed).toNat_lt
  unfold Overflows win
  rw [signed_eq, signed_eq]
  split_ifs <;> omega

lemma verdict_size (h : verdict numWritten consumed window len = .size n) :
    (numWritten - consumed).toNat + n ≤ window.toNat := by
  have hwindow := window.toNat_lt
  have hinflight := (numWritten - consumed).toNat_lt
  unfold verdict at h
  split_ifs at h with hneg hpos
  cases h
  -- a positive difference is that of the unsigned numbers, also where it has wrapped around
  have hdiff : wrap (win numWritten consumed window) =
      (window.toNat : ℤ) - (numWritten - consumed).toNat := by
    unfold win at hpos ⊢
    rw [signed_eq] at hneg
    rw [signed_eq, signed_eq, wrap_eq] at hpos ⊢
    split_ifs at hneg hpos ⊢ <;> omega
  omega

lemma toNat_sub_eq (hwritten : numWritten.toNat = written % 2 ^ 32) (consumed : UInt32) :
    ((numWritten - consumed).toNat : ℤ) = unacknowledged written consumed := by
  have hconsumed := consumed.toNat_lt
  rw [UInt32.toNat_sub, unacknowledged]
  omega

/-! ### Runs -/

structure Inv (s : State) : Prop where
  written : s.numWritten.toNat = s.written % 2 ^ 32
  fits : ∀ payload consumed window, s.phase = .sending payload consumed window →
    (s.numWritten - consumed).toNat + payload.length ≤ window.toNat

lemma inv_start : Inv {} := ⟨rfl, nofun⟩

lemma Inv.keep (h : Inv s) (hnum : t.numWritten = s.numWritten) (hwritten : t.written = s.written)
    (hphase : t.phase = s.phase ∨
      ∀ payload consumed window, t.phase ≠ .sending payload consumed window) : Inv t := by
  refine ⟨by rw [hnum, hwritten]; exact h.written, fun payload consumed window hsending => ?_⟩
  rcases hphase with hsame | hnot
  · rw [hnum]
    exact h.fits payload consumed window (hsame ▸ hsending)
  · exact absurd hsending (hnot payload consumed window)

lemma inv_step (h : Inv s) (ht : step s a = some t) : Inv t := by
  cases a with
  | storeConsumed | storeWindow | notify =>
    cases ht
    exact h.keep rfl rfl (.inl rfl)
  | write | check =>
    simp only [step] at ht
    split at ht <;> cases ht
    exact h.keep rfl rfl (.inr (by intro payload c w; dsimp only; split_ifs <;> simp))
  | loadConsumed | loadWindow | closed =>
    simp only [step] at ht
    split at ht <;> cases ht
    exact h.keep rfl rfl (.inr (by simp))
  | compute =>
    simp only [step] at ht
    split at ht
    · rename_i data consumed window hphase
      cases hverdict : verdict s.numWritten consumed window data.length with
      | size n =>
        rw [hverdict] at ht
        cases ht
        refine ⟨h.written, ?_⟩
        rintro payload c w hsending
        cases hsending
        have hsize := verdict_size hverdict
        exact (Nat.add_le_add_left (List.length_take_le n data) _).trans hsize
      | consumedMore | wait =>
        rw [hverdict] at ht
        cases ht
        exact h.keep rfl rfl (.inr (by simp))
    · cases ht
  | send sent =>
    simp only [step] at ht
    split at ht
    · split_ifs at ht <;> cases ht
      · refine ⟨?_, by simp⟩
        have hwritten := h.written
        dsimp only
        rw [UInt32.toNat_add, UInt32.toNat_ofNat']
        omega
      · exact h.keep rfl rfl (.inr (by simp))
    · cases ht
  | wake =>
    simp only [step] at ht
    split at ht
    · split_ifs at ht
      cases ht
      exact h.keep rfl rfl (.inr (by simp))
    · cases ht

lemma bounded (h : Inv s) (a : Label) : Bounded s a := by
  cases a with
  | send sent =>
    rintro payload consumed window rfl hphase
    have hfits := h.fits payload consumed window hphase
    have hwindow := window.toNat_lt
    have hunack := toNat_sub_eq h.written consumed
    unfold unacknowledged at hunack ⊢
    omega
  | _ => trivial

lemma noOverflow_iff (h : Inv s) (a : Label) : NoOverflow s a ↔ Moderate s a := by
  cases a with
  | compute =>
    refine forall₃_congr fun data consumed window => imp_congr_right fun _ => ?_
    have hunack := toNat_sub_eq h.written consumed
    rw [overflows_iff]
    omega
  | _ => exact Iff.rfl

lemma stays_inv (labels : List Label) : Stays step Inv {} labels := fun _ _ hrun =>
  run_invariant' inv_step inv_start hrun

/-- **The arithmetic is safe exactly for moderate windows.** -/
theorem safe_iff (labels : List Label) :
    (Along step NoOverflow {} labels ∧ Along step Bounded {} labels) ↔
      Along step Moderate {} labels := by
  have hinv := stays_inv labels
  constructor
  · rintro ⟨hno, -⟩
    exact along_imp (fun hs h => (noOverflow_iff hs _).mp h) hinv hno
  · intro hmoderate
    exact ⟨along_imp (fun hs h => (noOverflow_iff hs _).mpr h) hinv hmoderate,
      along_imp (fun hs _ => bounded hs _) hinv hmoderate⟩

def pass (data : Bytes) : List Label := [.write data, .check false, .loadConsumed, .loadWindow]

/-- **A window of 2^31 overflows** as soon as a byte is on its way. -/
theorem window_overflows :
    (∃ s, run step {} (pass [7] ++ [.compute, .send true, .storeWindow 2147483648] ++ pass [8]) =
      some s ∧ s.phase = .computing [8] 0 2147483648 ∧ Overflows s.numWritten 0 2147483648) ∧
    ¬ Along step NoOverflow {}
      (pass [7] ++ [.compute, .send true, .storeWindow 2147483648] ++ pass [8] ++ [.compute]) := by
  have hover : Overflows 1 0 2147483648 := overflows_iff.mpr (by decide)
  refine ⟨⟨_, rfl, rfl, hover⟩, fun halong => ?_⟩
  have hlast := ((along_append rfl).mp halong).2.1
  exact hlast [8] 0 2147483648 rfl hover

end Tokilake.Smux.Window
