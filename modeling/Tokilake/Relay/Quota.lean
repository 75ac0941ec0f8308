import Tokilake.Relay.Pricing

/-! # Charging a request

`PreQuotaConsumption` takes an estimate; `Consume` settles the difference to the real amount, or
`Undo` returns the estimate.  `Store` says which store calls fail.

* `conserved_iff`: when balances change by the real amount only. -/

namespace Tokilake.Relay.Quota

open Lib.Rounding Relay.Pricing

/-! ### Balances -/

structure Token where
  remainQuota : ℤ
  usedQuota : ℤ
  unlimitedQuota : Bool
  deriving DecidableEq

structure Books where
  userQuota : ℤ
  token : Token
  deriving DecidableEq

structure Accounts where
  books : Books
  redisEnabled : Bool := false
  cachedQuota : Option ℤ := none
  deriving DecidableEq

def Accounts.setBooks (a : Accounts) (books : Books) : Accounts := { a with books }

@[simp] def Accounts.setCachedQuota (a : Accounts) (quota : ℤ) : Accounts :=
  { a with cachedQuota := some quota }

@[simp] lemma setBooks_books (a : Accounts) (b : Books) : (a.setBooks b).books = b := rfl

inductive StoreOp
  | redisGet
  | redisSet
  | redisDecrease
  | getUserQuota
  | getTokenById
  | changeUserQuota
  | changeTokenQuota
  deriving DecidableEq

abbrev Store := StoreOp → Option String

def Store.ok : Store := fun _ => none

def negativeQuota : String := "quota 不能为负数！"

variable (b : Books)

@[simp] def Books.addUser (delta : ℤ) : Books := { b with userQuota := b.userQuota + delta }

@[simp] def Books.addToken (delta : ℤ) : Books :=
  { b with token := { b.token with
      remainQuota := b.token.remainQuota + delta, usedQuota := b.token.usedQuota - delta } }

variable (store : Store)

def change (op : StoreOp) (quota : ℤ) (books : Books) (a : Accounts) :
    Except String Unit × Accounts :=
  if quota < 0 then (.error negativeQuota, a)
  else match store op with
    | some e => (.error e, a)
    | none => (.ok (), a.setBooks books)

def increaseUserQuota (a : Accounts) (quota : ℤ) : Except String Unit × Accounts :=
  change store .changeUserQuota quota (a.books.addUser quota) a

def decreaseUserQuota (a : Accounts) (quota : ℤ) : Except String Unit × Accounts :=
  change store .changeUserQuota quota (a.books.addUser (-quota)) a

def increaseTokenQuota (a : Accounts) (quota : ℤ) : Except String Unit × Accounts :=
  change store .changeTokenQuota quota (a.books.addToken quota) a

def decreaseTokenQuota (a : Accounts) (quota : ℤ) : Except String Unit × Accounts :=
  change store .changeTokenQuota quota (a.books.addToken (-quota)) a

def getUserQuota (a : Accounts) : Except String ℤ :=
  match store .getUserQuota with
  | some e => .error e
  | none => .ok a.books.userQuota

/-! ### The cached balance -/

def cacheGetUserQuota (a : Accounts) : Except String ℤ × Accounts :=
  if a.redisEnabled = false then (getUserQuota store a, a)
  else match store .redisGet, a.cachedQuota with
    | none, some quota => (.ok quota, a)
    | _, _ =>
      match getUserQuota store a with
      | .error e => (.error e, a)
      | .ok quota =>
        match store .redisSet with
        | some e => (.error e, a)
        | none => (.ok quota, a.setCachedQuota quota)

def cacheUpdateUserQuota (a : Accounts) : Except String Unit × Accounts :=
  if a.redisEnabled = false then (.ok (), a)
  else match getUserQuota store a with
    | .error e => (.error e, a)
    | .ok quota =>
      match store .redisSet with
      | some e => (.error e, a)
      | none => (.ok (), a.setCachedQuota quota)

def cacheDecreaseUserQuota (a : Accounts) (quota : ℤ) : Except String Unit × Accounts :=
  if a.redisEnabled = false then (.ok (), a)
  else match store .redisDecrease with
    | some e => (.error e, a)
    | none => (.ok (), a.setCachedQuota (a.cachedQuota.getD 0 - quota))

/-! ### Token and user together -/

def preConsumeTokenQuota (a : Accounts) (quota : ℤ) : Except String Unit × Accounts :=
  if quota < 0 then (.error negativeQuota, a)
  else match store .getTokenById with
    | some e => (.error e, a)
    | none =>
      let token := a.books.token
      if token.unlimitedQuota = false ∧ token.remainQuota < quota then (.error "令牌额度不足", a)
      else match getUserQuota store a with
        | .error e => (.error e, a)
        | .ok userQuota =>
          if userQuota < quota then (.error "用户额度不足", a)
          else
            match if token.unlimitedQuota then (.ok (), a)
              else decreaseTokenQuota store a quota with
            | (.error e, a) => (.error e, a)
            | (.ok (), a) => decreaseUserQuota store a quota

def postConsumeTokenQuotaWithInfo (a : Accounts) (unlimitedQuota : Bool) (quota : ℤ) :
    Except String Unit × Accounts :=
  if quota = 0 then (.ok (), a)
  else
    match if 0 < quota then decreaseUserQuota store a quota
      else increaseUserQuota store a (-quota) with
    | (.error e, a) => (.error e, a)
    | (.ok (), a) =>
      if unlimitedQuota then (.ok (), a)
      else if 0 < quota then decreaseTokenQuota store a quota
      else increaseTokenQuota store a (-quota)

/-! ### The account of a request -/

structure ApiError where
  message : String
  code : String
  statusCode : ℕ
  deriving DecidableEq

def newQuota (modelName : String) (price : Price) (groupRatio : ℚ) (promptTokens : ℤ)
    (unlimitedQuota : Bool) : Quota where
  modelName
  promptTokens
  price
  groupRatio
  unlimitedQuota

variable (cfg : Config)

def estimate (q : Quota) : ℤ :=
  match q.price.type with
  | .times => trunc (cfg.float (1000 * q.inputRatio cfg.float))
  | .tokens =>
    if q.price.input ≠ 0 ∨ q.price.output ≠ 0 then
      trunc (cfg.float (cfg.float q.promptTokens * q.inputRatio cfg.float)) + cfg.preConsumedQuota
    else q.preConsumedQuota

example : estimate {} (newQuota "m" ⟨.times, 1001 / 1000, 0, none⟩ 1 0 false) =
    1000 := by decide +kernel

def setPreConsumed (q : Quota) (preConsumedQuota : ℤ) (handelStatus : Bool) : Quota :=
  { q with preConsumedQuota, handelStatus }

@[simp] lemma setPreConsumed_preConsumedQuota (q : Quota) (pre : ℤ) (status : Bool) :
    (setPreConsumed q pre status).preConsumedQuota = pre := rfl

@[simp] lemma setPreConsumed_handelStatus (q : Quota) (pre : ℤ) (status : Bool) :
    (setPreConsumed q pre status).handelStatus = status := rfl

def preQuotaConsumption (store : Store) (q : Quota) (a : Accounts) :
    Option ApiError × Quota × Accounts :=
  let pre := estimate cfg q
  let q := setPreConsumed q pre q.handelStatus
  if pre = 0 then (none, q, a)
  else match cacheGetUserQuota store a with
    | (.error e, a) => (some ⟨e, "get_user_quota_failed", 500⟩, q, a)
    | (.ok userQuota, a) =>
      if userQuota < pre then
        (some ⟨"user quota is not enough", "insufficient_user_quota", 402⟩, q, a)
      else match cacheDecreaseUserQuota store a pre with
        | (.error e, a) => (some ⟨e, "decrease_user_quota_failed", 500⟩, q, a)
        | (.ok (), a) =>
          -- a user with a hundred times the estimate is trusted and not charged in advance
          let pre := if 100 * pre < userQuota then 0 else pre
          let q := setPreConsumed q pre q.handelStatus
          if 0 < pre then
            match preConsumeTokenQuota store a pre with
            | (.error e, a) => (some ⟨e, "pre_consume_token_quota_failed", 403⟩, q, a)
            | (.ok (), a) => (none, setPreConsumed q pre true, a)
          else (none, q, a)

def completedQuotaConsumption (store : Store) (q : Quota) (a : Accounts) (usage : Usage) :
    Except String Unit × Accounts :=
  let quota := q.getTotalQuotaByUsage cfg usage
  if 0 < quota then
    match postConsumeTokenQuotaWithInfo store a q.unlimitedQuota (quota - q.preConsumedQuota) with
    | (.error e, a) => (.error ("error consuming token remain quota: " ++ e), a)
    | (.ok (), a) =>
      match cacheUpdateUserQuota store a with
      | (.error e, a) => (.error ("error consuming token remain quota: " ++ e), a)
      | (.ok (), a) => (.ok (), a)
  else (.ok (), a)

def consume (store : Store) (q : Quota) (a : Accounts) (usage : Usage) : Accounts :=
  (completedQuotaConsumption cfg store q a usage).2

def undo (q : Quota) (a : Accounts) : Accounts :=
  if q.handelStatus then
    (postConsumeTokenQuotaWithInfo store a q.unlimitedQuota (-q.preConsumedQuota)).2
  else a

/-- How a request ends. -/
inductive Ending
  | consume (usage : Usage)
  | undo

def serve (store : Store) (q : Quota) (a : Accounts) (ending : Ending) :
    Option ApiError × Accounts :=
  match preQuotaConsumption cfg store q a with
  | (some e, _, a) => (some e, a)
  | (none, q, a) =>
    match ending with
    | .consume usage => (none, consume cfg store q a usage)
    | .undo => (none, undo store q a)

/-! ### Charges -/

/-- **A charge of `n`**: the user pays it, and a limited token pays it as well. -/
def Books.charge (n : ℤ) : Books :=
  if b.token.unlimitedQuota then b.addUser (-n) else (b.addUser (-n)).addToken (-n)

@[simp] lemma charge_unlimitedQuota (n : ℤ) :
    (b.charge n).token.unlimitedQuota = b.token.unlimitedQuota := by
  unfold Books.charge
  split_ifs <;> rfl

@[simp] lemma charge_userQuota (n : ℤ) : (b.charge n).userQuota = b.userQuota - n := by
  unfold Books.charge
  split_ifs <;> simp [sub_eq_add_neg]

lemma charge_remainQuota {b : Books} (h : b.token.unlimitedQuota = false) (n : ℤ) :
    (b.charge n).token.remainQuota = b.token.remainQuota - n := by
  simp [Books.charge, h, sub_eq_add_neg]

@[simp] lemma charge_zero : b.charge 0 = b := by simp [Books.charge]

@[simp] lemma charge_charge (m n : ℤ) : (b.charge m).charge n = b.charge (m + n) := by
  cases h : b.token.unlimitedQuota <;> simp [Books.charge, h] <;> omega

/-! ### The calls when the store works -/

variable {cfg : Config} {q : Quota} {a : Accounts} {usage : Usage}

lemma change_ok {quota : ℤ} (h : 0 ≤ quota) (op : StoreOp) (b : Books) :
    change Store.ok op quota b a = (.ok (), a.setBooks b) := by
  simp [change, Store.ok, not_lt.mpr h]

lemma preConsumeTokenQuota_ok {n : ℤ} (hn : 0 ≤ n)
    (ht : ¬ (a.books.token.unlimitedQuota = false ∧ a.books.token.remainQuota < n))
    (hu : n ≤ a.books.userQuota) :
    preConsumeTokenQuota Store.ok a n = (.ok (), a.setBooks (a.books.charge n)) := by
  rw [preConsumeTokenQuota, if_neg (not_lt.mpr hn)]
  simp only [Store.ok, getUserQuota, if_neg ht, if_neg (not_lt.mpr hu)]
  cases h : a.books.token.unlimitedQuota <;>
    simp [decreaseTokenQuota, decreaseUserQuota, change_ok hn, Books.charge, h, Accounts.setBooks]

lemma preConsumeTokenQuota_refused {n : ℤ} (hn : 0 ≤ n)
    (h : (a.books.token.unlimitedQuota = false ∧ a.books.token.remainQuota < n) ∨
      a.books.userQuota < n) :
    ∃ e, preConsumeTokenQuota Store.ok a n = (.error e, a) := by
  rw [preConsumeTokenQuota, if_neg (not_lt.mpr hn)]
  simp only [Store.ok, getUserQuota]
  by_cases ht : a.books.token.unlimitedQuota = false ∧ a.books.token.remainQuota < n
  · exact ⟨_, if_pos ht⟩
  · rw [if_neg ht, if_pos (h.resolve_left ht)]
    exact ⟨_, rfl⟩

lemma postConsumeTokenQuotaWithInfo_ok {unlimitedQuota : Bool} (n : ℤ)
    (hu : unlimitedQuota = a.books.token.unlimitedQuota) :
    postConsumeTokenQuotaWithInfo Store.ok a unlimitedQuota n =
      (.ok (), a.setBooks (a.books.charge n)) := by
  subst hu
  rw [postConsumeTokenQuotaWithInfo]
  by_cases h0 : n = 0
  · simp [h0, Accounts.setBooks]
  rw [if_neg h0]
  by_cases hpos : 0 < n
  · rw [if_pos hpos, decreaseUserQuota, change_ok hpos.le]
    cases h : a.books.token.unlimitedQuota <;>
      simp [decreaseTokenQuota, change_ok hpos.le, hpos, Books.charge, h, Accounts.setBooks]
  have hneg : 0 ≤ -n := by omega
  rw [if_neg hpos, increaseUserQuota, change_ok hneg]
  cases h : a.books.token.unlimitedQuota <;>
    simp [increaseTokenQuota, change_ok hneg, hpos, Books.charge, h, Accounts.setBooks]

def Accounts.seenQuota (a : Accounts) : ℤ :=
  if a.redisEnabled then a.cachedQuota.getD a.books.userQuota else a.books.userQuota

lemma cacheGetUserQuota_ok (a : Accounts) :
    ∃ a', cacheGetUserQuota Store.ok a = (.ok a.seenQuota, a') ∧ a'.books = a.books := by
  unfold cacheGetUserQuota Accounts.seenQuota getUserQuota Store.ok
  cases a.redisEnabled
  · exact ⟨a, rfl, rfl⟩
  · cases a.cachedQuota with
    | none => exact ⟨_, rfl, rfl⟩
    | some quota => exact ⟨a, rfl, rfl⟩

lemma cacheDecreaseUserQuota_ok (a : Accounts) (n : ℤ) :
    ∃ a', cacheDecreaseUserQuota Store.ok a n = (.ok (), a') ∧ a'.books = a.books := by
  unfold cacheDecreaseUserQuota Store.ok
  cases a.redisEnabled <;> exact ⟨_, rfl, rfl⟩

lemma cacheUpdateUserQuota_ok (a : Accounts) :
    ∃ a', cacheUpdateUserQuota Store.ok a = (.ok (), a') ∧ a'.books = a.books := by
  unfold cacheUpdateUserQuota getUserQuota Store.ok
  cases a.redisEnabled <;> exact ⟨_, rfl, rfl⟩

/-! ### Before the provider is asked -/

/-- The request is turned down: too little for the estimate, unless the balance is trusted. -/
def Refused (cfg : Config) (q : Quota) (a : Accounts) : Prop :=
  let pre := estimate cfg q
  pre ≠ 0 ∧ (a.seenQuota < pre ∨ (0 < pre ∧ a.seenQuota ≤ 100 * pre ∧
    ((a.books.token.unlimitedQuota = false ∧ a.books.token.remainQuota < pre) ∨
      a.books.userQuota < pre)))

/-- The estimate is really taken: it is more than a hundredth of the balance. -/
def Untrusted (cfg : Config) (q : Quota) (a : Accounts) : Prop :=
  0 < estimate cfg q ∧ a.seenQuota ≤ 100 * estimate cfg q

instance (cfg : Config) (q : Quota) (a : Accounts) : Decidable (Untrusted cfg q a) :=
  inferInstanceAs (Decidable (_ ∧ _))

lemma preQuotaConsumption_cases (cfg : Config) (a : Accounts) (hq : q.handelStatus = false) :
    (Refused cfg q a ∧ ∃ e q' a', preQuotaConsumption cfg Store.ok q a = (some e, q', a') ∧
      a'.books = a.books) ∨
    (¬ Refused cfg q a ∧ Untrusted cfg q a ∧ ∃ a', preQuotaConsumption cfg Store.ok q a =
      (none, setPreConsumed q (estimate cfg q) true, a') ∧
      a'.books = a.books.charge (estimate cfg q)) ∨
    (¬ Refused cfg q a ∧ ¬ Untrusted cfg q a ∧ ∃ a', preQuotaConsumption cfg Store.ok q a =
      (none, setPreConsumed q 0 false, a') ∧ a'.books = a.books) := by
  unfold Refused Untrusted preQuotaConsumption
  generalize estimate cfg q = pre
  rw [hq]
  by_cases h0 : pre = 0
  · refine .inr (.inr ⟨by simp [h0], by omega, a, ?_, rfl⟩)
    rw [if_pos h0, h0]
  obtain ⟨a₁, hget, hb₁⟩ := cacheGetUserQuota_ok a
  rw [if_neg h0, hget]
  dsimp only
  by_cases hlow : a.seenQuota < pre
  · rw [if_pos hlow]
    exact .inl ⟨⟨h0, .inl hlow⟩, _, _, a₁, rfl, hb₁⟩
  obtain ⟨a₂, hdec, hb₂⟩ := cacheDecreaseUserQuota_ok a₁ pre
  rw [if_neg hlow, hdec]
  dsimp only
  rw [hb₁] at hb₂
  by_cases htrust : 100 * pre < a.seenQuota
  · refine .inr (.inr ⟨by omega, by omega, a₂, ?_, hb₂⟩)
    rw [if_pos htrust, if_neg (lt_irrefl 0)]
    rfl
  -- a negative estimate is below the balance seen, so its user is trusted
  have hpos : 0 < pre := by omega
  rw [if_neg htrust, if_pos hpos]
  by_cases hshort : (a.books.token.unlimitedQuota = false ∧ a.books.token.remainQuota < pre) ∨
      a.books.userQuota < pre
  · obtain ⟨e, he⟩ := preConsumeTokenQuota_refused hpos.le (by rw [hb₂]; exact hshort)
    rw [he]
    exact .inl ⟨⟨h0, .inr ⟨hpos, by omega, hshort⟩⟩, _, _, a₂, rfl, hb₂⟩
  rw [not_or, not_lt] at hshort
  rw [preConsumeTokenQuota_ok hpos.le (by rw [hb₂]; exact hshort.1)
    (by rw [hb₂]; exact hshort.2)]
  refine .inr (.inl ⟨?_, ⟨hpos, by omega⟩, _, rfl, by rw [setBooks_books, hb₂]⟩)
  rintro ⟨-, h | ⟨-, -, h | h⟩⟩
  · exact hlow h
  · exact hshort.1 h
  · exact absurd h (not_lt.mpr hshort.2)

/-! ### After the provider has answered -/

lemma consume_books (hu : q.unlimitedQuota = a.books.token.unlimitedQuota) (usage : Usage) :
    (consume cfg Store.ok q a usage).books = if 0 < q.getTotalQuotaByUsage cfg usage then
        a.books.charge (q.getTotalQuotaByUsage cfg usage - q.preConsumedQuota)
      else a.books := by
  unfold consume completedQuotaConsumption
  dsimp only
  split_ifs with ht
  · rw [postConsumeTokenQuotaWithInfo_ok _ hu]
    obtain ⟨a', ha', hb⟩ := cacheUpdateUserQuota_ok
      (a.setBooks (a.books.charge (q.getTotalQuotaByUsage cfg usage - q.preConsumedQuota)))
    simp only [ha', hb, setBooks_books]
  · rfl

lemma undo_books (hu : q.unlimitedQuota = a.books.token.unlimitedQuota) :
    (undo Store.ok q a).books =
      if q.handelStatus then a.books.charge (-q.preConsumedQuota) else a.books := by
  unfold undo
  split_ifs
  · rw [postConsumeTokenQuotaWithInfo_ok _ hu, setBooks_books]
  · rfl

def Debited (b b' : Books) (n : ℤ) : Prop :=
  b.userQuota - b'.userQuota = n ∧
    (b.token.unlimitedQuota = false → b.token.remainQuota - b'.token.remainQuota = n)

instance (b b' : Books) (n : ℤ) : Decidable (Debited b b' n) :=
  inferInstanceAs (Decidable (_ ∧ (_ → _)))

lemma debited_charge_iff (m n : ℤ) : Debited b (b.charge m) n ↔ m = n := by
  constructor
  · intro h
    have := h.1
    rw [charge_userQuota] at this
    omega
  · rintro rfl
    refine ⟨by rw [charge_userQuota]; omega, fun h => ?_⟩
    rw [charge_remainQuota h]
    omega

lemma debited_self_iff (n : ℤ) : Debited b b n ↔ 0 = n := by simpa using debited_charge_iff b 0 n

def owed (cfg : Config) (q : Quota) : Option ApiError → Ending → ℤ
  | none, .consume usage => q.getTotalQuotaByUsage cfg usage
  | none, .undo => 0
  | some _, _ => 0

/-- The balances have changed by what the request owes. -/
def Conserved (cfg : Config) (q : Quota) (a : Accounts) (ending : Ending) : Prop :=
  Debited a.books (serve cfg Store.ok q a ending).2.books
    (owed cfg q (serve cfg Store.ok q a ending).1 ending)

lemma getExtraBillingData_setPreConsumed (pre : ℤ) (status : Bool)
    (e : Option (List (String × ExtraBilling))) :
    (setPreConsumed q pre status).getExtraBillingData e =
      setPreConsumed (q.getExtraBillingData e) pre status := by
  unfold Quota.getExtraBillingData
  split <;> rfl

@[simp] lemma getTotalQuotaByUsage_setPreConsumed (pre : ℤ) (status : Bool) :
    (setPreConsumed q pre status).getTotalQuotaByUsage cfg usage =
      q.getTotalQuotaByUsage cfg usage := by
  unfold Quota.getTotalQuotaByUsage Quota.getTotalQuota
  simp only [getExtraBillingData_setPreConsumed]
  rfl

lemma serve_refused (hq : q.handelStatus = false) (h : Refused cfg q a) (ending : Ending) :
    ∃ e a', serve cfg Store.ok q a ending = (some e, a') ∧ a'.books = a.books := by
  rcases preQuotaConsumption_cases cfg a hq with ⟨-, e, q', a', hpre, hb⟩ | ⟨hn, -⟩ | ⟨hn, -⟩
  · exact ⟨e, a', by rw [serve, hpre], hb⟩
  · exact absurd h hn
  · exact absurd h hn

lemma serve_undo (hq : q.handelStatus = false)
    (hu : q.unlimitedQuota = a.books.token.unlimitedQuota)
    (h : ¬ Refused cfg q a) :
    ∃ a', serve cfg Store.ok q a .undo = (none, a') ∧ a'.books = a.books := by
  rcases preQuotaConsumption_cases cfg a hq with
    ⟨hr, -⟩ | ⟨-, -, a', hpre, hb⟩ | ⟨-, -, a', hpre, hb⟩
  · exact absurd hr h
  · refine ⟨undo Store.ok (setPreConsumed q (estimate cfg q) true) a', by rw [serve, hpre], ?_⟩
    rw [undo_books (by rw [hb, charge_unlimitedQuota]; exact hu), hb]
    simp
  · refine ⟨undo Store.ok (setPreConsumed q 0 false) a', by rw [serve, hpre], ?_⟩
    rw [undo_books (by rw [hb]; exact hu), hb]
    simp

lemma serve_consume (hq : q.handelStatus = false)
    (hu : q.unlimitedQuota = a.books.token.unlimitedQuota)
    (h : ¬ Refused cfg q a) (usage : Usage) :
    ∃ a', serve cfg Store.ok q a (.consume usage) = (none, a') ∧ a'.books = a.books.charge
      (if 0 < q.getTotalQuotaByUsage cfg usage then q.getTotalQuotaByUsage cfg usage
        else if Untrusted cfg q a then estimate cfg q else 0) := by
  rcases preQuotaConsumption_cases cfg a hq with
    ⟨hr, -⟩ | ⟨-, hunt, a', hpre, hb⟩ | ⟨-, hunt, a', hpre, hb⟩
  · exact absurd hr h
  · refine ⟨_, by rw [serve, hpre], ?_⟩
    rw [consume_books (by rw [hb, charge_unlimitedQuota]; exact hu), hb, if_pos hunt]
    simp only [getTotalQuotaByUsage_setPreConsumed, setPreConsumed_preConsumedQuota]
    split_ifs
    · rw [charge_charge, add_sub_cancel]
    · rfl
  · refine ⟨_, by rw [serve, hpre], ?_⟩
    rw [consume_books (by rw [hb]; exact hu), hb, if_neg hunt]
    simp only [getTotalQuotaByUsage_setPreConsumed, setPreConsumed_preConsumedQuota, sub_zero]
    split_ifs
    · rfl
    · rw [charge_zero]

/-- **Conservation**: what a request owes is taken, unless it is settled at no positive amount. -/
theorem conserved_iff (cfg : Config) (modelName : String) (price : Price) (groupRatio : ℚ)
    (promptTokens : ℤ) (a : Accounts) (ending : Ending) :
    let q := newQuota modelName price groupRatio promptTokens a.books.token.unlimitedQuota
    Conserved cfg q a ending ↔ ∀ usage, ending = .consume usage → Refused cfg q a ∨
      q.IsCharged cfg usage ∨ (q.IsFree cfg usage ∧ ¬ Untrusted cfg q a) := by
  intro q
  unfold Conserved
  by_cases href : Refused cfg q a
  · obtain ⟨e, a', hs, hb⟩ := serve_refused rfl href ending
    simp [hs, hb, owed, debited_self_iff, href]
  cases ending with
  | undo =>
    obtain ⟨a', hs, hb⟩ := serve_undo rfl rfl href
    simp [hs, hb, owed, debited_self_iff]
  | consume usage =>
    obtain ⟨a', hs, hb⟩ := serve_consume rfl rfl href usage
    simp only [hs, hb, owed, debited_charge_iff, Ending.consume.injEq, forall_eq', href, false_or,
      ← getTotalQuotaByUsage_pos_iff, ← getTotalQuotaByUsage_eq_zero_iff]
    -- an estimate that was taken is positive, so it is not what a free request owes
    have hpos : Untrusted cfg q a → 0 < estimate cfg q := And.left
    split_ifs with ht hunt
    · simp [ht]
    · have := hpos hunt
      constructor
      · intro he
        omega
      · rintro (h | h)
        · exact absurd h ht
        · exact absurd hunt h.2
    · constructor
      · exact fun he => .inr ⟨he.symm, hunt⟩
      · rintro (h | h)
        · exact absurd h ht
        · exact h.1.symm

/-- The estimate of 510 is taken, the report counts no tokens, and the balances stay at 490. -/
theorem conserved_fails_unused : let a : Accounts := ⟨⟨1000, ⟨1000, 0, false⟩⟩, false, none⟩
    let q := newQuota "gpt-4o" ⟨.tokens, 1, 1, none⟩ 1 10 false
    q.getTotalQuotaByUsage {} { promptTokens := 0, completionTokens := 0 } = 0 ∧
    serve {} Store.ok q a (.consume { promptTokens := 0, completionTokens := 0 }) =
      (none, ⟨⟨490, ⟨490, 510, false⟩⟩, false, none⟩) ∧
    ¬ Conserved {} q a (.consume { promptTokens := 0, completionTokens := 0 }) := by
  refine ⟨by decide +kernel, by decide +kernel, ?_⟩
  unfold Conserved
  decide +kernel

end Tokilake.Relay.Quota
