import Tokilake.Lib.Calls
import Tokilake.Lib.Table
import Mathlib.Tactic.Linarith

/-! # Redeeming a code

`Redeem` reads the row of a code, adds its quota to the user and stores the row as used, in one
transaction.

* `once_iff`: when a code is redeemed once. -/

namespace Tokilake.Billing.Redeem

open Lib.Run Lib.Calls Lib.Table Option

/-! ### Rows -/

inductive Status
  | enabled
  | disabled
  | used
  deriving DecidableEq

structure Redemption where
  key : String
  status : Status
  quota : ℤ
  redeemedTime : ℤ
  deriving DecidableEq

structure User where
  id : ℕ
  quota : ℤ
  deriving DecidableEq

structure Db where
  redemption : Locked Redemption
  users : List (Locked User)
  deriving DecidableEq

def userId (u : Locked User) : ℕ := u.value.id

def write (quota : Option ℤ) (owner : Option ℕ) (u : Locked User) : Locked User :=
  ⟨{ u.value with quota := quota.getD u.value.quota }, owner⟩

def Db.setUser (db : Db) (id : ℕ) (quota : Option ℤ) (owner : Option ℕ) : Db :=
  { db with users := update userId id (write quota owner) db.users }

def Db.release (db : Db) (r : Redemption) (id : ℕ) (quota : Option ℤ) : Db :=
  ⟨⟨r, none⟩, (db.setUser id quota none).users⟩

def Db.balance (db : Db) : ℤ := total (fun u => u.value.quota) db.users

/-! ### The statements of the transaction -/

/-- How a statement ends: it is run, the clock reading `now`, or it fails. -/
inductive Outcome
  | done (now : ℤ)
  | error (text : String)
  deriving DecidableEq

/-- Where a call stands.  `r` is its own copy of the row, `quota` what it has written for the user.
-/
inductive Phase
  | selecting
  | crediting (r : Redemption)
  | saving (r : Redemption) (quota : Option ℤ)
  | committing (r : Redemption) (quota : Option ℤ)
  | succeeded (quota : ℤ)
  | failed (error : String)
  deriving DecidableEq

structure Call where
  key : String
  user : ℕ
  phase : Phase
  deriving DecidableEq

def Call.goto (c : Call) (phase : Phase) : Call := { c with phase }

def Call.fail (c : Call) (error : String) : Call := c.goto (.failed ("兑换失败，" ++ error))

def start (args : String × ℕ) : Call :=
  { key := args.1, user := args.2, phase :=
      if args.1 = "" then .failed "未提供兑换码"
      else if args.2 = 0 then .failed "无效的 user id"
      else .selecting }

def advance (i : ℕ) (db : Db) (c : Call) : Outcome → Option (Db × Call)
  | .done now =>
    match c.phase with
    | .selecting =>
      if db.redemption.value.key ≠ c.key then some (db, c.fail "无效的兑换码")
      else if db.redemption.value.status ≠ .enabled then some (db, c.fail "该兑换码已被使用")
      else some (db, c.goto (.crediting db.redemption.value))
    | .crediting r =>
      match lookup userId c.user db.users with
      -- an `UPDATE` that finds no row is not an error
      | none => some (db, c.goto (.saving r none))
      | some u =>
        if u.owner = none then
          some (db.setUser c.user none (some i),
            c.goto (.saving r (some (u.value.quota + r.quota))))
        else none
    | .saving r quota =>
      if db.redemption.owner = none then
        some ({ db with redemption := { db.redemption with owner := some i } },
          c.goto (.committing { r with redeemedTime := now, status := .used } quota))
      else none
    | .committing r quota => some (db.release r c.user quota, c.goto (.succeeded r.quota))
    | .succeeded _ | .failed _ => none
  -- a statement that fails ends the transaction: nothing it wrote is kept, and its locks are free
  | .error text =>
    match c.phase with
    | .selecting => some (db, c.fail "无效的兑换码")
    | .crediting _ => some (db, c.fail text)
    | .saving _ _ => some (db.setUser c.user none none, c.fail text)
    | .committing _ _ => some (db.release db.redemption.value c.user none, c.fail text)
    | .succeeded _ | .failed _ => none

def redeem : System Db Call (String × ℕ) Outcome Empty := ⟨start, advance, fun _ e => nomatch e⟩

/-- Only `lock`, `save`, `commit` and the rollbacks touch the rows or their locks. -/
inductive Trans (i : ℕ) (db : Db) (c : Call) : Outcome → Db → Call → Prop
  | refuse (o : Outcome) (text : String) (h : c.phase = .selecting) :
    Trans i db c o db (c.fail text)
  | read (now : ℤ) (h : c.phase = .selecting) (he : db.redemption.value.status = .enabled) :
      Trans i db c (.done now) db (c.goto (.crediting db.redemption.value))
  | abort (text : String) (r : Redemption) (h : c.phase = .crediting r) :
      Trans i db c (.error text) db (c.fail text)
  | noUser (now : ℤ) (r : Redemption) (h : c.phase = .crediting r)
      (hu : lookup userId c.user db.users = none) :
      Trans i db c (.done now) db (c.goto (.saving r none))
  | lock (now : ℤ) (r : Redemption) (u : User) (h : c.phase = .crediting r)
      (hu : lookup userId c.user db.users = some ⟨u, none⟩) :
      Trans i db c (.done now) (db.setUser c.user none (some i))
        (c.goto (.saving r (some (u.quota + r.quota))))
  | save (now : ℤ) (r : Redemption) (n : Option ℤ) (h : c.phase = .saving r n)
      (hr : db.redemption.owner = none) :
      Trans i db c (.done now) { db with redemption := { db.redemption with owner := some i } }
        (c.goto (.committing { r with redeemedTime := now, status := .used } n))
  | rollback (text : String) (r : Redemption) (n : Option ℤ) (h : c.phase = .saving r n) :
      Trans i db c (.error text) (db.setUser c.user none none) (c.fail text)
  | rollbackBoth (text : String) (r : Redemption) (n : Option ℤ) (h : c.phase = .committing r n) :
      Trans i db c (.error text) (db.release db.redemption.value c.user none) (c.fail text)
  | commit (now : ℤ) (r : Redemption) (n : Option ℤ) (h : c.phase = .committing r n) :
      Trans i db c (.done now) (db.release r c.user n) (c.goto (.succeeded r.quota))

lemma advance_trans {i : ℕ} {db db' : Db} {c c' : Call} {o : Outcome}
    (h : advance i db c o = some (db', c')) : Trans i db c o db' c' := by
  cases o with
  | done now =>
    dsimp only [advance] at h
    split at h
    next hp =>
      split_ifs at h with hk hs
      · cases h; exact .refuse _ _ hp
      · cases h; exact .refuse _ _ hp
      · cases h; exact .read now hp (not_not.mp hs)
    next r hp =>
      split at h
      next hu => cases h; exact .noUser now r hp hu
      next u hu =>
        obtain ⟨u, owner⟩ := u
        split_ifs at h with ho
        subst ho
        cases h
        exact .lock now r u hp hu
    next r n hp =>
      split_ifs at h with hr
      cases h
      exact .save now r n hp hr
    next r n hp => cases h; exact .commit now r n hp
    next => cases h
    next => cases h
  | error text =>
    dsimp only [advance] at h
    split at h
    next hp => cases h; exact .refuse _ _ hp
    next r hp => cases h; exact .abort text r hp
    next r n hp => cases h; exact .rollback text r n hp
    next r n hp => cases h; exact .rollbackBoth text r n hp
    next => cases h
    next => cases h

/-! ### Locked rows -/

section
variable {q : ℤ} {i j id id' : ℕ} {db db' : Db} {c c' d : Call} {o : Outcome} {n : Option ℤ}

@[simp] lemma userId_write (n : Option ℤ) (owner : Option ℕ) (u : Locked User) :
    userId (write n owner u) = userId u := rfl

lemma lookup_setUser_self (n : Option ℤ) (owner : Option ℕ) :
    lookup userId id (db.setUser id n owner).users =
      (lookup userId id db.users).map (write n owner) :=
  lookup_update_self (userId_write n owner)

lemma keyed_setUser (hk : Keyed userId db.users) (n : Option ℤ) (owner : Option ℕ) :
    Keyed userId (db.setUser id n owner).users :=
  keyed_update (userId_write n owner) hk

lemma total_update {α : Type} {key : α → ℕ} {rows : List α} {k : ℕ} {row : α} (f : α → ℤ)
    (g : α → α) (hk : Keyed key rows) (h : lookup key k rows = some row) :
    total f (update key k g rows) + f row = total f rows + f (g row) := by
  induction rows with
  | nil => simp [lookup] at h
  | cons first rows ih =>
    obtain ⟨hnew, hk⟩ : (∀ r ∈ rows, key r ≠ key first) ∧ Keyed key rows := by
      simpa [Keyed] using hk
    rw [update, List.map_cons]
    by_cases hfirst : key first = k
    · have hrest : update key k g rows = rows := update_of_forall_ne fun r hr => hfirst ▸ hnew r hr
      obtain rfl : first = row := by simpa [lookup, hfirst] using h
      rw [if_pos hfirst, ← update, hrest, total, total]
      omega
    · have hrow : lookup key k rows = some row := by simpa [lookup, hfirst] using h
      have := ih hk hrow
      rw [if_neg hfirst, ← update, total, total]
      omega

lemma balance_setUser_none (owner : Option ℕ) :
    (db.setUser id none owner).balance = db.balance := by
  unfold Db.balance Db.setUser update
  induction db.users with
  | nil => rfl
  | cons u us ih =>
    rw [List.map_cons, total, total, ih]
    split_ifs <;> rfl

lemma balance_setUser (hk : Keyed userId db.users) {u : Locked User} {m : ℤ}
    (h : lookup userId id db.users = some u) (owner : Option ℕ) :
    (db.setUser id (some m) owner).balance = db.balance + (m - u.value.quota) := by
  have := total_update (fun u => u.value.quota) (write (some m) owner) hk h
  simp only [write, getD_some] at this
  simp only [Db.balance, Db.setUser]
  omega

/-- Call `i` has the lock of the user's row and will make its quota `n`, which is `q` more. -/
def Holds (q : ℤ) (i : ℕ) (db : Db) (id : ℕ) : Option ℤ → Prop
  | none => lookup userId id db.users = none
  | some n => lookup userId id db.users = some ⟨⟨id, n - q⟩, some i⟩

lemma Holds.of_users (h : Holds q i db id n) (husers : db'.users = db.users) :
    Holds q i db' id n := by
  cases n with
  | none | some n => rw [Holds, husers]; exact h

lemma Holds.setUser {m : Option ℤ} {owner : Option ℕ} (h : Holds q j db id' n)
    (hfree : ∀ u, lookup userId id db.users = some u → u.owner ≠ some j) :
    Holds q j (db.setUser id m owner) id' n := by
  by_cases hid : id' = id
  · subst hid
    cases n with
    | none => rw [Holds, lookup_setUser_self, h, map_none]
    | some n => exact absurd rfl (hfree _ h)
  · have hsame : lookup userId id' (db.setUser id m owner).users = lookup userId id' db.users :=
      lookup_update_ne (userId_write m owner) hid
    cases n with
    | none | some n => exact hsame.trans h

lemma Holds.owner (h : Holds q i db id n) (hij : i ≠ j) :
    ∀ u, lookup userId id db.users = some u → u.owner ≠ some j := by
  intro u hu ho
  cases n with
  | none =>
    rw [h] at hu
    cases hu
  | some n =>
    obtain rfl := some.inj (h.symm.trans hu)
    exact hij (some.inj ho)

/-! ### The assertion of each call -/

def Sane (q : ℤ) (db : Db) : Prop := db.redemption.value.quota = q ∧ Keyed userId db.users

def Assert (q : ℤ) (i : ℕ) (db : Db) (c : Call) : Prop :=
  match c.phase with
  | .crediting r => r.quota = q
  | .saving r n => r.quota = q ∧ Holds q i db c.user n
  | .committing r n =>
    (r.quota = q ∧ r.status = .used) ∧ db.redemption.owner = some i ∧ Holds q i db c.user n
  | .selecting | .succeeded _ | .failed _ => True

lemma assert_fail (text : String) : Assert q i db (c.fail text) := trivial

lemma assert_saving {r : Redemption} (h : c.phase = .saving r n) (hc : Assert q i db c) :
    r.quota = q ∧ Holds q i db c.user n := by
  rw [Assert, h] at hc
  exact hc

lemma assert_committing {r : Redemption} (h : c.phase = .committing r n) (hc : Assert q i db c) :
    (r.quota = q ∧ r.status = .used) ∧ db.redemption.owner = some i ∧ Holds q i db c.user n := by
  rw [Assert, h] at hc
  exact hc

lemma own_step (hI : Sane q db) (hc : Assert q i db c) (h : Trans i db c o db' c') :
    Sane q db' ∧ Assert q i db' c' := by
  obtain ⟨hq, hk⟩ := hI
  cases h with
  | refuse _ text hp | abort text r hp => exact ⟨⟨hq, hk⟩, assert_fail _⟩
  | read now hp he => exact ⟨⟨hq, hk⟩, hq⟩
  | noUser now r hp hu =>
    rw [Assert, hp] at hc
    exact ⟨⟨hq, hk⟩, hc, hu⟩
  | lock now r u hp hu =>
    rw [Assert, hp] at hc
    refine ⟨⟨hq, keyed_setUser hk _ _⟩, hc, ?_⟩
    have hid := key_of_lookup hu
    have hn : u.quota + r.quota - q = u.quota := by omega
    rw [Call.goto, Holds, lookup_setUser_self, hu, hn, map_some, ← hid]
    rfl
  | save now r n hp hr =>
    obtain ⟨hrq, hh⟩ := assert_saving hp hc
    exact ⟨⟨hq, hk⟩, ⟨hrq, rfl⟩, rfl, hh.of_users rfl⟩
  | rollback text r n hp | rollbackBoth text r n hp =>
    exact ⟨⟨hq, keyed_setUser hk _ _⟩, assert_fail _⟩
  | commit now r n hp =>
    obtain ⟨⟨hrq, -⟩, -, -⟩ := assert_committing hp hc
    exact ⟨⟨hrq, keyed_setUser hk _ _⟩, trivial⟩

lemma assert_of (hd : Assert q j db d)
    (howner : db.redemption.owner = some j → db'.redemption.owner = some j)
    (husers : ∀ n, Holds q j db d.user n → Holds q j db' d.user n) : Assert q j db' d := by
  unfold Assert at hd ⊢
  split at hd
  next => exact hd
  next => exact ⟨hd.1, husers _ hd.2⟩
  next => exact ⟨hd.1, howner hd.2.1, husers _ hd.2.2⟩
  all_goals trivial

lemma other_step (hc : Assert q i db c) (hd : Assert q j db d) (hij : i ≠ j)
    (h : Trans i db c o db' c') : Assert q j db' d := by
  cases h with
  | refuse | read | abort | noUser => exact hd
  | lock now r u hp hu =>
    refine assert_of hd id fun n hn => hn.setUser fun u' hu' ho => ?_
    rw [hu] at hu'
    cases hu'
    cases ho
  | save now r n hp hr =>
    refine assert_of hd (fun ho => ?_) fun n hn => hn.of_users rfl
    rw [hr] at ho
    cases ho
  | rollback text r n hp =>
    obtain ⟨-, hh⟩ := assert_saving hp hc
    exact assert_of hd id fun n hn => hn.setUser (hh.owner hij)
  | rollbackBoth text r n hp | commit now r n hp =>
    obtain ⟨-, ho, hh⟩ := assert_committing hp hc
    refine assert_of hd (fun ho' => ?_) fun n hn => ?_
    · exact absurd (some.inj (ho.symm.trans ho')) hij
    · exact (hn.setUser (hh.owner hij)).of_users rfl

lemma stable (q : ℤ) : Stable redeem (Sane q) (Assert q) where
  start k _ := by
    unfold redeem start Assert
    dsimp only
    split_ifs <;> trivial
  own hI hc h := own_step hI hc (advance_trans h)
  other _ hc hd hij h := other_step hc hd hij (advance_trans h)
  env {_ e _} _ _ := nomatch e

end

/-! ### At most one call succeeds -/

def Call.succeeded (c : Call) : Bool :=
  match c.phase with
  | .succeeded _ => true
  | _ => false

def successes (p : Pool Db Call) : ℕ := p.calls.countP Call.succeeded

structure Setup where
  redemption : Redemption
  users : List User
  enabled : redemption.status = .enabled
  keyed : (users.map User.id).Nodup

def Setup.init (s : Setup) : Pool Db Call :=
  ⟨⟨⟨s.redemption, none⟩, s.users.map fun u => ⟨u, none⟩⟩, []⟩

/-- At most one call has succeeded, and the users have the quota of the code more if one has. -/
def Once (s : Setup) (p : Pool Db Call) : Prop :=
  successes p ≤ 1 ∧ p.shared.balance =
    s.init.shared.balance + if successes p = 0 then 0 else s.redemption.quota

/-- A transaction commits only while the code is enabled in the database, for a user with a row. -/
def Fresh (p : Pool Db Call) : Event (String × ℕ) Outcome Empty → Prop
  | .move i (.done _) => ∀ c r n, p.calls[i]? = some c → c.phase = .committing r n →
      p.shared.redemption.value.status = .enabled ∧
      (p.shared.redemption.value.quota = 0 ∨ lookup userId c.user p.shared.users ≠ none)
  | _ => True

def Sound (q : ℤ) (p : Pool Db Call) : Prop :=
  (Sane q p.shared ∧ Each (Assert q) p) ∧
    (p.shared.redemption.value.status = .enabled ↔ successes p = 0)

lemma quiet_or_commit {i : ℕ} {db db' : Db} {c c' : Call} {o : Outcome}
    (h : Trans i db c o db' c') : (c.succeeded = c'.succeeded ∧ db'.balance = db.balance ∧
      db'.redemption.value = db.redemption.value ∧
      ∀ now r n, o = .done now → c.phase ≠ .committing r n) ∨
    ∃ now r n, o = .done now ∧ c.phase = .committing r n ∧
      db' = db.release r c.user n ∧ c' = c.goto (.succeeded r.quota) := by
  have hquiet : ∀ {phase : Phase}, c.phase = phase → (∀ m, phase ≠ .succeeded m) →
      c.succeeded = false := by
    rintro phase rfl hne
    unfold Call.succeeded
    split
    next m hm => exact absurd hm (hne m)
    next => rfl
  cases h with
  | commit now r n hp => exact Or.inr ⟨now, r, n, rfl, hp, rfl, rfl⟩
  | refuse _ text hp | read now hp he | abort text r hp | noUser now r hp hu | save now r n hp hr =>
    exact Or.inl ⟨hquiet hp (by simp), rfl, rfl, by simp [hp]⟩
  | lock now r u hp hu | rollback text r n hp =>
    exact Or.inl ⟨hquiet hp (by simp), balance_setUser_none _, rfl, by simp [hp]⟩
  | rollbackBoth text r n hp =>
    exact Or.inl ⟨hquiet hp (by simp), balance_setUser_none _, rfl, by simp⟩

lemma balance_release {q : ℤ} {i : ℕ} {db : Db} {id : ℕ} {n : Option ℤ} (r : Redemption)
    (hk : Keyed userId db.users) (h : Holds q i db id n) :
    (db.release r id n).balance =
      db.balance + if lookup userId id db.users = none then 0 else q := by
  cases n with
  | none =>
    have h : lookup userId id db.users = none := h
    rw [if_pos h, add_zero]
    exact balance_setUser_none none
  | some n =>
    rw [if_neg (by rw [h]; simp)]
    have := balance_setUser (m := n) hk h none
    simp only [sub_sub_cancel] at this
    exact this

lemma once_congr {s : Setup} {p p' : Pool Db Call} (hn : successes p' = successes p)
    (hb : p'.shared.balance = p.shared.balance) : Once s p' ↔ Once s p := by
  rw [Once, Once, hn, hb]

lemma successes_arrive (p : Pool Db Call) (args : String × ℕ) :
    successes { p with calls := p.calls ++ [redeem.start args] } = successes p := by
  have hnew : (redeem.start args).succeeded = false := by
    unfold Call.succeeded redeem start
    dsimp only
    split_ifs <;> rfl
  simp [successes, hnew]

lemma step_once {s : Setup} {p p' : Pool Db Call} {e : Event (String × ℕ) Outcome Empty}
    (hJ : Sound s.redemption.quota p) (h : redeem.step p e = some p') :
    (p'.shared.redemption.value.status = .enabled ↔ successes p' = 0) ∧
      (Once s p → (Once s p' ↔ Fresh p e)) := by
  obtain ⟨⟨⟨hq, hk⟩, hL⟩, hused⟩ := hJ
  cases e with
  | env e => exact nomatch e
  | arrive args =>
    cases h
    have hn := successes_arrive p args
    exact ⟨by rw [hn]; exact hused, fun hp => iff_of_true ((once_congr hn rfl).mpr hp) trivial⟩
  | move i o =>
    obtain ⟨c, db', c', hc, ha, rfl⟩ := step_move.mp h
    have hcount := countP_set Call.succeeded hc c'
    rcases quiet_or_commit (advance_trans ha) with
      ⟨hsame, hb, hr, hnot⟩ | ⟨now, r, n, rfl, hphase, rfl, rfl⟩
    · have hn : successes ⟨db', p.calls.set i c'⟩ = successes p := by
        rw [hsame] at hcount
        exact Nat.add_right_cancel hcount
      refine ⟨by rw [hn, hr]; exact hused, fun hp => iff_of_true ((once_congr hn hb).mpr hp) ?_⟩
      cases o with
      | error text => trivial
      | done now =>
        intro d r n hd hphase
        obtain rfl := some.inj (hc.symm.trans hd)
        exact absurd hphase (hnot now r n rfl)
    · obtain ⟨⟨hrq, hru⟩, -, hh⟩ := assert_committing hphase (hL i c hc)
      have hn : successes ⟨p.shared.release r c.user n,
          p.calls.set i (c.goto (.succeeded r.quota))⟩ =
          successes p + 1 := by
        have h0 : c.succeeded = false := by rw [Call.succeeded, hphase]
        have h1 : (c.goto (.succeeded r.quota)).succeeded = true := rfl
        simpa [successes, h0, h1] using hcount
      have hb := balance_release r hk hh
      have hstatus : (p.shared.release r c.user n).redemption.value.status = .used := hru
      refine ⟨iff_of_false (by simp [hstatus]) (by omega), fun hp => ?_⟩
      -- the first commit is allowed if the quota reaches the user, a second one never
      have hfresh : Fresh p (.move i (.done now)) ↔ successes p = 0 ∧
          (s.redemption.quota = 0 ∨ lookup userId c.user p.shared.users ≠ none) := by
        rw [← hused, ← hq]
        constructor
        · exact fun hf => hf c r n hc hphase
        · intro hf d r' n' hd hd'
          obtain rfl := some.inj (hc.symm.trans hd)
          exact hf
      rw [hfresh, Once, hn, hb]
      obtain ⟨-, hbal⟩ := hp
      rw [if_neg (Nat.succ_ne_zero _), hbal]
      by_cases h0 : successes p = 0
      · rw [if_pos h0]
        split_ifs with hu
        · simp only [h0, hu, ne_eq, not_true_eq_false, or_false, true_and]
          omega
        · simp [h0, hu]
      · exact iff_of_false (fun hc => h0 (by omega)) (fun hc => h0 hc.1)

lemma sound_init (s : Setup) : Sound s.redemption.quota s.init := by
  have hkeyed : Keyed userId (s.users.map fun u => (⟨u, none⟩ : Locked User)) := by
    rw [Keyed, List.map_map]
    exact s.keyed
  refine ⟨⟨⟨rfl, hkeyed⟩, fun i c hc => ?_⟩, iff_of_true s.enabled rfl⟩
  simp [Setup.init] at hc

lemma once_init (s : Setup) : Once s s.init := ⟨Nat.zero_le 1, by simp [successes, Setup.init]⟩

/-- **At most one success**, exactly when every transaction that commits finds the code still
enabled. -/
theorem once_iff (s : Setup) (es : List (Event (String × ℕ) Outcome Empty)) :
    Stays redeem.step (Once s) s.init es ↔ Along redeem.step Fresh s.init es := by
  refine stays_iff_along_of_invariant (J := Sound s.redemption.quota) (fun {p e} h => ?_)
    (fun hJ h => ⟨(stable _).step hJ.1 h, (step_once hJ h).1⟩)
    (fun hJ hp h => (step_once hJ h).2 hp) (sound_init s) (once_init s)
  -- a commit that cannot be taken is no commit
  cases e with
  | arrive args => trivial
  | env e => exact nomatch e
  | move i o =>
    cases o with
    | error text => trivial
    | done now =>
      intro c r n hc hphase
      simp [System.step, hc, redeem, advance, hphase] at h

/-- Two transactions read the code before either commits: the code of 100 has given 200. -/
theorem redeemed_twice :
    let s : Setup := ⟨⟨"KEY", .enabled, 100, 0⟩, [⟨1, 0⟩, ⟨2, 0⟩], rfl, by decide⟩
    let turn (i : ℕ) : Event (String × ℕ) Outcome Empty := .move i (.done 7)
    (run redeem.step s.init [.arrive ("KEY", 1), .arrive ("KEY", 2), turn 0, turn 1, turn 0, turn 1,
      turn 0, turn 0, turn 1, turn 1]).map (fun p => (successes p, p.shared.balance)) =
        some (2, 200) := by
  decide

end Tokilake.Billing.Redeem
