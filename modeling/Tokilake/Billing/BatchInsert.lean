import Mathlib.Data.List.Basic

/-! # Inserting log records in batches

A batch that fails is split into halves, down to single records.

* `batchInsert_spec`: what is inserted, and with how many statements. -/

namespace Tokilake.Billing.BatchInsert

open List

/-- The rows of a table, and the `Create` calls made on it. -/
structure Db (T : Type) where
  rows : List T := []
  calls : ℕ := 0

/-- Which records the database rejects, and the error of a batch with one of them. -/
structure Rules (T : Type) where
  rejects : T → Bool
  error : List T → String

variable {T : Type} (rules : Rules T)

/-- `Create` is atomic. -/
def create (db : Db T) (data : List T) : Option String × Db T :=
  if data.any rules.rejects then (some (rules.error data), { db with calls := db.calls + 1 })
  else (none, ⟨db.rows ++ data, db.calls + 1⟩)

def batchInsertWithRetry (db : Db T) (data : List T) : Option String × Db T :=
  if data.length = 0 then (none, db)
  else match create rules db data with
    | (none, db) => (none, db)
    | (some err, db) =>
      if data.length = 1 then (some err, db)
      else
        let mid := data.length / 2
        let first := batchInsertWithRetry db (data.take mid)
        let second := batchInsertWithRetry first.2 (data.drop mid)
        (first.1.or second.1, second.2)
termination_by data.length
decreasing_by all_goals simp; omega

def batchSize : ℕ := 200

/-- The chunk `data[i:end]`. -/
def chunk (data : List T) (i : ℕ) : List T := (data.take (min (i + batchSize) data.length)).drop i

def batchInsert (data : List T) (i : ℕ) (db : Db T) : Db T :=
  if i < data.length then
    batchInsert data (i + batchSize) (batchInsertWithRetry rules db (chunk data i)).2
  else db
termination_by data.length - i
decreasing_by simp only [batchSize]; omega

/-- A call inserts the records that are not rejected, in their order, with a bounded number of
calls. -/
structure Inserted (data : List T) (db db' : Db T) : Prop where
  rows : db'.rows = db.rows ++ data.filter fun r => !rules.rejects r
  calls : db'.calls ≤ db.calls + (2 * data.length - 1)

variable {rules}

lemma create_none {db db' : Db T} {data : List T} (h : create rules db data = (none, db')) :
    db' = ⟨db.rows ++ data.filter fun r => !rules.rejects r, db.calls + 1⟩ := by
  unfold create at h
  split_ifs at h with hany <;> cases h
  rw [filter_eq_self.mpr (by simpa using hany)]

lemma create_some {db db' : Db T} {data : List T} {err : String}
    (h : create rules db data = (some err, db')) :
    data.any rules.rejects = true ∧ db' = { db with calls := db.calls + 1 } := by
  unfold create at h
  split_ifs at h with hany <;> cases h
  exact ⟨hany, rfl⟩

lemma inserted (db : Db T) (data : List T) :
    Inserted rules data db (batchInsertWithRetry rules db data).2 := by
  fun_induction batchInsertWithRetry rules db data with
  | case1 db data hlen =>
    rw [length_eq_zero_iff.mp hlen]
    exact ⟨by simp, by simp⟩
  | case2 db data hlen db' hcreate =>
    rw [create_none hcreate]
    exact ⟨rfl, by dsimp only; omega⟩
  | case3 db data hlen err db' hcreate hone =>
    obtain ⟨hany, rfl⟩ := create_some hcreate
    obtain ⟨r, rfl⟩ := length_eq_one_iff.mp hone
    exact ⟨by simpa using hany, Nat.le_refl _⟩
  | case4 db data hlen err db' hcreate hone mid first second ih1 _ ih2 =>
    obtain ⟨-, rfl⟩ := create_some hcreate
    refine ⟨?_, ?_⟩
    · rw [ih2.rows, ih1.rows, append_assoc, ← filter_append, take_append_drop]
    · -- two trees of calls, and the call that failed
      have hfirst : first.2.calls ≤ _ := ih1.calls
      have hsecond : second.2.calls ≤ _ := ih2.calls
      simp only [length_take, length_drop] at hfirst hsecond
      show second.2.calls ≤ _
      omega

/-- **Every acceptable record once**, no rejected one, and at most `2k - 1` calls for a chunk of
`k` records. -/
theorem batchInsert_spec (rules : Rules T) (data : List T) (db : Db T) :
    (batchInsert rules data 0 db).rows = db.rows ++ data.filter (fun r => !rules.rejects r) ∧
      ∀ i < data.length, ∀ db, (batchInsertWithRetry rules db (chunk data i)).2.calls ≤
        db.calls + (2 * (chunk data i).length - 1) := by
  have hfrom : ∀ i db, (batchInsert rules data i db).rows =
      db.rows ++ (data.drop i).filter fun r => !rules.rejects r := by
    intro i db
    fun_induction batchInsert rules data i db with
    | case1 i db hi ih =>
      have hchunk : chunk data i ++ data.drop (i + batchSize) = data.drop i := by
        rw [chunk, ← take_eq_take_min, drop_take, Nat.add_sub_cancel_left, ← drop_drop,
          take_append_drop]
      rw [ih, (inserted db (chunk data i)).rows, append_assoc, ← filter_append, hchunk]
    | case2 i db hi => simp [drop_eq_nil_of_le (Nat.le_of_not_lt hi)]
  exact ⟨hfrom 0 db, fun i _ db => (inserted db (chunk data i)).calls⟩

end Tokilake.Billing.BatchInsert
