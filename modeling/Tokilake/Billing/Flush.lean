import Mathlib.Algebra.Order.Ring.Int
import Tokilake.Lib.Run
import Tokilake.Billing.Batch

/-! # Batch updates of the counters

`batchUpdate` replaces the map of each kind of counter by an empty one and sends an `UPDATE` for
each entry, while changes go on to be recorded.

* `batches_conserve_iff`: when the failed updates come to nothing. -/

namespace Tokilake.Billing.Flush

open Lib.Run Billing.Batch Function

inductive Kind
  | userQuota
  | tokenQuota
  | usedQuota
  | channelUsedQuota
  | requestCount
  deriving DecidableEq

abbrev Store := List (ℕ × ℤ)

def addNewRecord : Store → ℕ → ℤ → Store
  | [], id, value => [(id, value)]
  | (k, v) :: store, id, value =>
    if k = id then (k, v + value) :: store else (k, v) :: addNewRecord store id value

inductive Phase
  | idle
  | flushing (kind : Kind) (store : Store) (next : List Kind)
  deriving DecidableEq

/-- The columns (of a token the remaining quota) and the maps of the batch store. -/
structure State where
  stored : Kind → ℕ → ℤ
  stores : Kind → Store := fun _ => []
  phase : Phase := .idle

inductive Act
  | record (kind : Kind) (id : ℕ) (value : ℤ)
  | take
  | update (entry : ℕ) (ok : Bool)
  | finish
  deriving DecidableEq

namespace State

def take (s : State) (kind : Kind) (next : List Kind) : State :=
  { s with
    stores := update s.stores kind []
    phase := .flushing kind (s.stores kind) next }

def add (s : State) (kind : Kind) (id : ℕ) (value : ℤ) : Kind → ℕ → ℤ := fun k i =>
  if k = kind ∧ i = id then s.stored k i + value else s.stored k i

def step (s : State) : Act → Option State
  | .record kind id value =>
    some { s with
      stores := update s.stores kind (addNewRecord (s.stores kind) id value) }
  | .take =>
    match s.phase with
    | .idle => some (s.take .userQuota [.tokenQuota, .usedQuota, .channelUsedQuota, .requestCount])
    | .flushing _ [] (kind :: next) => some (s.take kind next)
    | _ => none
  | .update entry ok =>
    match s.phase with
    | .idle => none
    | .flushing kind store next =>
      store[entry]?.map fun e => { s with
        stored := if ok then s.add kind e.1 e.2 else s.stored
        phase := .flushing kind (store.eraseIdx entry) next }
  | .finish =>
    match s.phase with
    | .flushing _ [] [] => some { s with phase := .idle }
    | _ => none

end State

/-! ### One counter -/

@[simp] def recorded (id : ℕ) : Store → ℤ
  | [] => 0
  | e :: store => (if e.1 = id then e.2 else 0) + recorded id store

lemma recorded_addNewRecord (id i : ℕ) (value : ℤ) (store : Store) :
    recorded i (addNewRecord store id value) = recorded i store + if id = i then value else 0 := by
  induction store with
  | nil => simp [addNewRecord]
  | cons e store ih =>
    rw [addNewRecord]
    split_ifs with hkey hid hid
    · simp only [recorded, hkey.trans hid, if_true]
      omega
    · simp [hkey, hid]
    all_goals
      rw [recorded, ih, recorded]
      omega

lemma recorded_eraseIdx {store : Store} {n : ℕ} {e : ℕ × ℤ} (h : store[n]? = some e) (i : ℕ) :
    recorded i store = recorded i (store.eraseIdx n) + if e.1 = i then e.2 else 0 := by
  induction store generalizing n with
  | nil => simp at h
  | cons e' store ih =>
    cases n with
    | zero =>
      obtain rfl : e' = e := by simpa using h
      rw [List.eraseIdx_cons_zero, recorded]
      omega
    | succ n =>
      have hrest := ih (by simpa using h)
      rw [List.eraseIdx_cons_succ, recorded, recorded]
      omega

def balance (kind : Kind) (id : ℕ) (s : State) : Balance where
  stored := s.stored kind id
  queued := recorded id (s.stores kind)
  taken :=
    match s.phase with
    | .idle => 0
    | .flushing k store _ => if k = kind then recorded id store else 0

@[simp] def recordedBy (kind : Kind) (id : ℕ) : Act → ℤ
  | .record k i value => if k = kind ∧ i = id then value else 0
  | _ => 0

def lostBy (kind : Kind) (id : ℕ) (s : State) : Act → ℤ
  | .update entry false =>
    match s.phase with
    | .idle => 0
    | .flushing k store _ =>
      if k = kind then recorded id (store[entry]?).toList else 0
  | _ => 0

variable {kind : Kind} {id : ℕ} {s t : State}

lemma total_take {k : Kind} {next : List Kind} (hphase : (balance kind id s).taken = 0) :
    (balance kind id (s.take k next)).total = (balance kind id s).total := by
  simp only [Balance.total, hphase]
  by_cases hk : k = kind
  · simp [balance, State.take, hk]
  · simp [balance, State.take, hk, update_of_ne (Ne.symm hk)]

lemma total_step {act : Act} (hs : s.step act = some t) (kind : Kind) (id : ℕ) :
    (balance kind id t).total + lostBy kind id s act =
      (balance kind id s).total + recordedBy kind id act := by
  cases act with
  | record k i value =>
    cases hs
    by_cases hk : k = kind
    · subst hk
      simp only [Balance.total, balance, update_self, recorded_addNewRecord, lostBy,
        recordedBy, true_and]
      omega
    · simp [Balance.total, balance, update_of_ne (Ne.symm hk), lostBy, hk]
  | take =>
    suffices h : (balance kind id t).total = (balance kind id s).total by
      simp [lostBy, h]
    simp only [State.step] at hs
    split at hs
    case h_3 => cases hs
    all_goals
      rename_i hphase
      have htaken : (balance kind id s).taken = 0 := by simp [balance, hphase]
      cases hs
      exact total_take htaken
  | update entry ok =>
    simp only [State.step] at hs
    split at hs
    · cases hs
    next k store next hphase =>
    obtain ⟨e, he, rfl⟩ := Option.map_eq_some_iff.mp hs
    have herase := recorded_eraseIdx he id
    by_cases hk : k = kind
    · subst hk
      cases ok with
      | false =>
        simp only [Balance.total, balance, hphase, if_true, lostBy, he,
          Option.toList_some, recorded,
          recordedBy, Bool.false_eq_true, if_false]
        omega
      | true =>
        simp only [Balance.total, balance, hphase, if_true, lostBy, recordedBy, State.add, true_and,
          eq_comm]
        split_ifs at herase ⊢ <;> omega
    · have hadd : s.add k e.1 e.2 kind id = s.stored kind id := if_neg fun h => hk h.1.symm
      cases ok <;> simp [Balance.total, balance, hphase, hk, lostBy, hadd]
  | finish =>
    simp only [State.step] at hs
    split at hs
    · next hphase =>
      cases hs
      simp [Balance.total, balance, hphase, lostBy]
    · cases hs

/-! ### Runs -/

def changes (kind : Kind) (id : ℕ) (acts : List Act) : ℤ := (acts.map (recordedBy kind id)).sum

lemma total_run {acts : List Act} (h : run State.step s acts = some t) (kind : Kind) (id : ℕ) :
    (balance kind id t).total + sumAlong State.step (lostBy kind id) s acts =
      (balance kind id s).total + changes kind id acts := by
  induction acts generalizing s with
  | nil =>
    cases h
    simp [sumAlong, changes]
  | cons act acts ih =>
    obtain ⟨u, hs, hrun⟩ := run_cons.mp h
    have hstep := total_step hs kind id
    have hrest := ih hrun
    have hchanges : changes kind id (act :: acts) = recordedBy kind id act + changes kind id acts :=
      rfl
    rw [sumAlong_cons hs]
    omega

def Conserved (s t : State) (acts : List Act) : Prop :=
  ∀ kind id, t.stored kind id + recorded id (t.stores kind) =
    s.stored kind id + recorded id (s.stores kind) + changes kind id acts

/-- **When nothing is missing**: if the updates that failed come to nothing, counter by counter. -/
theorem batches_conserve_iff {acts : List Act} (hs : s.phase = .idle) (ht : t.phase = .idle)
    (h : run State.step s acts = some t) : Conserved s t acts ↔
      ∀ kind id, sumAlong State.step (lostBy kind id) s acts = 0 := by
  have htotal : ∀ {u : State}, u.phase = .idle → ∀ kind id,
      (balance kind id u).total = u.stored kind id + recorded id (u.stores kind) := by
    intro u hu kind id
    simp [Balance.total, balance, hu]
  refine forall_congr' fun kind => forall_congr' fun id => ?_
  have hrun := total_run h kind id
  rw [htotal hs, htotal ht] at hrun
  omega

def failedFlush : List Act :=
  [.record .userQuota 1 500, .take, .update 0 false, .take, .take, .take, .take, .finish]

/-- The 500 are neither in the database nor in the batch store. -/
theorem failedFlush_loses :
    ∃ t, run State.step { stored := fun _ _ => 0 } failedFlush = some t ∧ t.phase = .idle ∧
      t.stored .userQuota 1 = 0 ∧ t.stores .userQuota = [] ∧
      ¬ Conserved { stored := fun _ _ => 0 } t failedFlush := by
  refine ⟨_, rfl, rfl, rfl, rfl, fun h => ?_⟩
  exact absurd (h .userQuota 1) (by decide)

theorem conserved_failedFlush :
    ∃ t, run State.step { stored := fun _ _ => 0 } failedFlush = some t ∧
      (Conserved { stored := fun _ _ => 0 } t failedFlush ↔
        ∀ kind id, sumAlong State.step (lostBy kind id)
          { stored := fun _ _ => 0 } failedFlush = 0) :=
  ⟨_, rfl, batches_conserve_iff rfl rfl rfl⟩

end Tokilake.Billing.Flush
