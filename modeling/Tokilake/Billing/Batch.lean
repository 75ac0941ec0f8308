import Mathlib.Data.Int.Notation
import Mathlib.Tactic.SplitIfs

/-! # A balance and its batch store

With batch updates `addNewRecord` adds amounts up in memory and `batchUpdate` applies the sum later.

* `total_change`, `total_flush`: the stored and the recorded amount together. -/

namespace Tokilake.Billing.Batch

/-- The column, the sum that waits, and the sum a running `batchUpdate` has taken out. -/
structure Balance where
  stored : ℤ
  queued : ℤ := 0
  taken : ℤ := 0
  deriving DecidableEq

variable (b : Balance)

def Balance.total : ℤ := b.stored + b.queued + b.taken

/-- A change by `amount`; `ok` says whether the `UPDATE` succeeds if one is sent. -/
def Balance.change (batch ok : Bool) (amount : ℤ) : Balance × Bool :=
  -- `addNewRecord` cannot fail
  if batch then ({ b with queued := b.queued + amount }, true)
  else if ok then ({ b with stored := b.stored + amount }, true)
  else (b, false)

def Balance.increase (batch ok : Bool) (quota : ℤ) : Balance × Bool :=
  if quota < 0 then (b, false) else b.change batch ok quota

def Balance.decrease (batch ok : Bool) (quota : ℤ) : Balance × Bool :=
  if quota < 0 then (b, false) else b.change batch ok (-quota)

/-- A round of `batchUpdate` for one balance. -/
inductive Flush
  | take
  | apply (ok : Bool)
  deriving DecidableEq

/-- A sum is taken out when the one before has been dealt with. -/
def Balance.flush : Flush → Option Balance
  | .take => if b.taken = 0 then some { b with queued := 0, taken := b.queued } else none
  | .apply ok => some { b with stored := if ok then b.stored + b.taken else b.stored, taken := 0 }

variable {b b' : Balance} {batch ok : Bool}

lemma total_change (amount : ℤ) : (b.change batch ok amount).1.total =
    b.total + if (b.change batch ok amount).2 then amount else 0 := by
  unfold Balance.change Balance.total
  cases batch <;> cases ok <;> simp only [if_true, if_false, Bool.false_eq_true] <;> omega

lemma change_ok (amount : ℤ) : (b.change batch ok amount).2 = (batch || ok) := by
  cases batch <;> cases ok <;> rfl

lemma increase_ok {quota : ℤ} :
    (b.increase batch ok quota).2 = true ↔ 0 ≤ quota ∧ (batch = true ∨ ok = true) := by
  unfold Balance.increase
  split_ifs with h
  · simp; omega
  · rw [change_ok, Bool.or_eq_true]
    exact ⟨fun hok => ⟨by omega, hok⟩, fun hok => hok.2⟩

lemma total_increase (quota : ℤ) : (b.increase batch ok quota).1.total =
    b.total + if (b.increase batch ok quota).2 then quota else 0 := by
  unfold Balance.increase
  by_cases h : quota < 0
  · simp [h]
  · rw [if_neg h]
    exact total_change quota

lemma decrease_ok {quota : ℤ} (h : 0 ≤ quota) : (b.decrease batch ok quota).2 = (batch || ok) := by
  rw [Balance.decrease, if_neg (by omega), change_ok]

lemma total_decrease {quota : ℤ} (h : 0 ≤ quota) : (b.decrease batch ok quota).1.total =
    b.total - if batch || ok then quota else 0 := by
  rw [Balance.decrease, if_neg (by omega), total_change, change_ok]
  split_ifs <;> omega

def Balance.Draining (b : Balance) : Prop := b.queued ≤ 0 ∧ b.taken ≤ 0

lemma draining_decrease {quota : ℤ} (hb : b.Draining) : (b.decrease batch ok quota).1.Draining := by
  obtain ⟨h1, h2⟩ := hb
  unfold Balance.decrease Balance.change Balance.Draining
  split_ifs
  · exact ⟨h1, h2⟩
  · exact ⟨by dsimp only; omega, h2⟩
  · exact ⟨h1, h2⟩
  · exact ⟨h1, h2⟩

lemma draining_flush (hb : b.Draining) {f : Flush} (h : b.flush f = some b') : b'.Draining := by
  obtain ⟨h1, h2⟩ := hb
  cases f with
  | take =>
    simp only [Balance.flush] at h
    split_ifs at h
    cases h
    exact ⟨Int.le_refl 0, h1⟩
  | apply ok =>
    cases h
    exact ⟨h1, Int.le_refl 0⟩

lemma total_flush {f : Flush} (h : b.flush f = some b') :
    b'.total = b.total - if f = .apply false then b.taken else 0 := by
  cases f with
  | take =>
    simp only [Balance.flush] at h
    split_ifs at h with h0
    cases h
    simp only [Balance.total, reduceCtorEq, if_false]
    omega
  | apply ok =>
    cases h
    cases ok
    · simp [Balance.total]
    · simp only [Balance.total, if_true, Flush.apply.injEq, Bool.true_eq_false, if_false]
      omega

end Tokilake.Billing.Batch
