import Tokilake.Relay.Quota

/-! # Submitting an asynchronous task

`RelayTaskSubmit` charges an estimate once and asks one provider after another.

* `chargedOnce_iff`, `refundable_iff`, `answeredOnce_iff`: when an accepted task is charged
  once, when its refund is what was charged, and when the client gets one answer. -/

namespace Tokilake.Relay.TaskSubmit

open Lib.Rounding Relay.Pricing Relay.Quota List

structure TaskError where
  code : String
  message : String
  statusCode : ℕ
  localError : Bool := false
  deriving DecidableEq

def openAIErrToTaskErr (e : ApiError) : TaskError where
  code := e.code
  message := e.message
  statusCode := e.statusCode

inductive Adaptor
  | suno
  | kling
  | tokiameVideo
  deriving DecidableEq

def sunoShouldRetry (specificChannel : Bool) (e : TaskError) : Bool :=
  if e.localError then false
  else if specificChannel then false
  else if e.statusCode = 429 then true
  else if e.statusCode = 307 then true
  else if e.statusCode / 100 = 5 then
    -- no retry after a timeout
    if e.statusCode = 504 ∨ e.statusCode = 524 then false else true
  else true

def shouldRetry : Adaptor → Bool → TaskError → Bool
  | .suno, specificChannel, e => sunoShouldRetry specificChannel e
  | .kling, _, _ => false
  | .tokiameVideo, _, _ => false

inductive Attempt
  | noProvider (e : TaskError)
  | failed (e : TaskError)
  | accepted
  deriving DecidableEq

/-- The platform, the check of the request, the price, and the outcomes of the attempts. -/
structure Submission where
  adaptor : Option Adaptor
  initError : Option TaskError := none
  specificChannel : Bool := false
  modelName : String
  price : Price
  groupRatio : ℚ
  attempts : ℕ → Attempt

inductive Response
  | accepted
  | error (e : TaskError)
  deriving DecidableEq

/-- The accounts, the `Quota` column of the rows inserted, and the answers to the client. -/
structure Outcome where
  accounts : Accounts
  tasks : List ℤ := []
  responses : List Response := []
  deriving DecidableEq

variable (o : Outcome)

@[simp] def Outcome.setAccounts (accounts : Accounts) : Outcome := { o with accounts }

@[simp] def Outcome.respond (response : Response) : Outcome :=
  { o with responses := o.responses ++ [response] }

@[simp] lemma setAccounts_accounts (a : Accounts) : (o.setAccounts a).accounts = a := rfl

@[simp] lemma setAccounts_tasks (a : Accounts) : (o.setAccounts a).tasks = o.tasks := rfl

@[simp] lemma respond_accounts (r : Response) : (o.respond r).accounts = o.accounts := rfl

def taskUsage : Usage where
  promptTokens := 1
  completionTokens := 0

def taskQuota (fl : Precision) (q : Quota) : ℤ := trunc (fl (q.inputRatio fl * 1000))

@[simp] def completedTask (cfg : Config) (store : Store) (q : Quota) (o : Outcome) : Outcome :=
  { o with
    accounts := consume cfg store q o.accounts taskUsage
    tasks := o.tasks ++ [taskQuota cfg.float q] }

section
variable (cfg : Config) (store : Store) (retryTimes : ℕ) (sub : Submission)

def retryLoop (adaptor : Adaptor) (q : Quota) : ℕ → ℕ → TaskError → Outcome → Outcome
  | 0, _, taskErr, o => o.respond (.error taskErr)
  | n + 1, i, _, o =>
    match sub.attempts i with
    | .noProvider e => retryLoop adaptor q n (i + 1) e o
    -- unlike the first attempt, an accepted retry writes no answer
    | .accepted => completedTask cfg store q o
    | .failed e =>
      let o := o.setAccounts (undo store q o.accounts)
      if shouldRetry adaptor sub.specificChannel e then retryLoop adaptor q n (i + 1) e o
      else o.respond (.error e)

def Submission.quota (a : Accounts) : Quota :=
  newQuota sub.modelName sub.price sub.groupRatio 1000 a.books.token.unlimitedQuota

def relay (adaptor : Adaptor) (a : Accounts) (firstError : Option TaskError) : Outcome :=
  match preQuotaConsumption cfg store (sub.quota a) a with
  | (some e, _, a) => Outcome.respond ⟨a, [], []⟩ (.error (openAIErrToTaskErr e))
  | (none, q, a) =>
    match firstError with
    | none => (completedTask cfg store q ⟨a, [], []⟩).respond .accepted
    | some e =>
      let retryTimes := if shouldRetry adaptor sub.specificChannel e then retryTimes else 0
      retryLoop cfg store sub adaptor q retryTimes 1 e ⟨undo store q a, [], []⟩

def relayTaskSubmit (a : Accounts) : Outcome :=
  match sub.adaptor with
  | none =>
    Outcome.respond ⟨a, [], []⟩ (.error ⟨"adaptor_not_found", "adaptor not found", 400, true⟩)
  | some adaptor =>
    match sub.initError, sub.attempts 0 with
    | some e, _ => Outcome.respond ⟨a, [], []⟩ (.error e)
    | none, .noProvider e => Outcome.respond ⟨a, [], []⟩ (.error e)
    | none, .accepted => relay cfg store retryTimes sub adaptor a none
    | none, .failed e => relay cfg store retryTimes sub adaptor a (some e)

/-! ### The attempts made -/

def retries (adaptor : Adaptor) : ℕ → ℕ → List Attempt
  | 0, _ => []
  | n + 1, i =>
    match sub.attempts i with
    | .noProvider e => .noProvider e :: retries adaptor n (i + 1)
    | .accepted => [.accepted]
    | .failed e => .failed e ::
        if shouldRetry adaptor sub.specificChannel e then retries adaptor n (i + 1) else []

def answered (adaptor : Adaptor) : Option TaskError → List Attempt
  | none => [.accepted]
  | some e => .failed e ::
      retries sub adaptor (if shouldRetry adaptor sub.specificChannel e then retryTimes else 0) 1

/-- The attempts that are made. -/
def made : List Attempt :=
  match sub.adaptor with
  | none => []
  | some adaptor =>
    match sub.initError, sub.attempts 0 with
    | some _, _ => []
    | none, .noProvider e => [.noProvider e]
    | none, .accepted => answered retryTimes sub adaptor none
    | none, .failed e => answered retryTimes sub adaptor (some e)

end

def Attempt.isFailed : Attempt → Bool
  | .failed _ => true
  | _ => false

def failures (attempts : List Attempt) : ℕ := attempts.countP Attempt.isFailed

@[simp] lemma failures_nil : failures [] = 0 := rfl

@[simp] lemma failures_cons_failed (e : TaskError) (l : List Attempt) :
    failures (.failed e :: l) = failures l + 1 := countP_cons_of_pos rfl

@[simp] lemma failures_cons_noProvider (e : TaskError) (l : List Attempt) :
    failures (.noProvider e :: l) = failures l := countP_cons_of_neg (by simp [Attempt.isFailed])

@[simp] lemma failures_cons_accepted (l : List Attempt) : failures (.accepted :: l) = failures l :=
  countP_cons_of_neg (by simp [Attempt.isFailed])

lemma count_accepted_retries (sub : Submission) (adaptor : Adaptor) (n i : ℕ) :
    (retries sub adaptor n i).count .accepted ≤ 1 := by
  induction n generalizing i with
  | zero => simp [retries]
  | succ n ih =>
    unfold retries
    cases sub.attempts i with
    | noProvider e => simpa using ih (i + 1)
    | accepted => simp
    | failed e =>
      dsimp only
      split_ifs
      · simpa using ih (i + 1)
      · simp

lemma count_accepted_answered (retryTimes : ℕ) (sub : Submission) (adaptor : Adaptor)
    (firstError : Option TaskError) :
    (answered retryTimes sub adaptor firstError).count .accepted ≤ 1 := by
  cases firstError with
  | none => simp [answered]
  | some e => simpa [answered] using count_accepted_retries sub adaptor _ 1

/-! ### What the attempts take -/

section
variable {cfg : Config} {sub : Submission} {q : Quota} {o : Outcome} {adaptor : Adaptor}

/-- A failed attempt returns the estimate noted, the accepted one adds the rest of the amount. -/
def effect (cfg : Config) (q : Quota) : Attempt → ℤ
  | .noProvider _ => 0
  | .failed _ => if q.handelStatus then -q.preConsumedQuota else 0
  | .accepted =>
    if 0 < q.getTotalQuotaByUsage cfg taskUsage then
      q.getTotalQuotaByUsage cfg taskUsage - q.preConsumedQuota
    else 0

lemma undo_charge (cfg : Config) {a : Accounts}
    (hu : q.unlimitedQuota = a.books.token.unlimitedQuota)
    (e : TaskError) : (undo Store.ok q a).books = a.books.charge (effect cfg q (.failed e)) := by
  rw [undo_books hu, effect]
  split_ifs <;> simp

lemma completedTask_charge (cfg : Config) {o : Outcome}
    (hu : q.unlimitedQuota = o.accounts.books.token.unlimitedQuota) :
    (completedTask cfg Store.ok q o).accounts.books =
      o.accounts.books.charge (effect cfg q .accepted) := by
  rw [completedTask, consume_books hu, effect]
  split_ifs <;> simp

lemma retryLoop_books (n i : ℕ) (taskErr : TaskError)
    (hu : q.unlimitedQuota = o.accounts.books.token.unlimitedQuota) :
    (retryLoop cfg Store.ok sub adaptor q n i taskErr o).accounts.books =
      o.accounts.books.charge ((retries sub adaptor n i).map (effect cfg q)).sum := by
  induction n generalizing i taskErr o with
  | zero => simp [retryLoop, retries]
  | succ n ih =>
    unfold retryLoop retries
    cases sub.attempts i with
    | noProvider e => simpa [effect] using ih (i + 1) e hu
    | accepted => simpa using completedTask_charge cfg hu
    | failed e =>
      have hundo := undo_charge cfg hu e
      dsimp only
      split_ifs
      · rw [ih (i + 1) e (by simpa [hundo] using hu), setAccounts_accounts, hundo, charge_charge,
          map_cons, sum_cons]
      · simpa using hundo

lemma retryLoop_tasks (n i : ℕ) (taskErr : TaskError) :
    (retryLoop cfg Store.ok sub adaptor q n i taskErr o).tasks = [] ↔
      o.tasks = [] ∧ .accepted ∉ retries sub adaptor n i := by
  induction n generalizing i taskErr o with
  | zero => simp [retryLoop, retries]
  | succ n ih =>
    unfold retryLoop retries
    cases sub.attempts i with
    | noProvider e => simpa using ih (i + 1) e
    | accepted => simp
    | failed e =>
      dsimp only
      split_ifs
      · rw [ih (i + 1) e, setAccounts_tasks]
        simp
      · simp

lemma sum_effect_count (attempts : List Attempt) :
    (attempts.map (effect cfg q)).sum = attempts.count .accepted * effect cfg q .accepted -
      failures attempts * (if q.handelStatus then q.preConsumedQuota else 0) := by
  induction attempts with
  | nil => simp
  | cons attempt attempts ih =>
    rw [map_cons, sum_cons, ih]
    cases attempt with
    | noProvider e => simp [effect]
    | failed e =>
      simp only [effect, count_cons_of_ne (show Attempt.failed e ≠ .accepted from nofun),
        failures_cons_failed]
      split_ifs <;> push_cast <;> ring
    | accepted =>
      rw [count_cons_self, failures_cons_accepted]
      push_cast
      ring

lemma sum_effect {attempts : List Attempt} (h : attempts.count .accepted ≤ 1) :
    (attempts.map (effect cfg q)).sum =
      (if .accepted ∈ attempts then effect cfg q .accepted else 0) -
      failures attempts * (if q.handelStatus then q.preConsumedQuota else 0) := by
  rw [sum_effect_count]
  by_cases hmem : .accepted ∈ attempts
  · have : attempts.count .accepted = 1 := le_antisymm h (count_pos_iff.mpr hmem)
    simp [this, hmem]
  · simp [count_eq_zero.mpr hmem, hmem]

lemma relay_spec {a a' : Accounts} {pre : ℤ} (retryTimes : ℕ) (adaptor : Adaptor)
    (firstError : Option TaskError)
    (hpre : preQuotaConsumption cfg Store.ok (sub.quota a) a = (none, q, a'))
    (hu : q.unlimitedQuota = a.books.token.unlimitedQuota) (hb : a'.books = a.books.charge pre) :
    let attempts := answered retryTimes sub adaptor firstError
    let o := relay cfg Store.ok retryTimes sub adaptor a firstError
    o.accounts.books = a.books.charge (pre + (attempts.map (effect cfg q)).sum) ∧
      (o.tasks = [] ↔ .accepted ∉ attempts) := by
  have hu' : q.unlimitedQuota = a'.books.token.unlimitedQuota := by
    rw [hb, charge_unlimitedQuota, hu]
  unfold relay
  rw [hpre]
  cases firstError with
  | none =>
    refine ⟨?_, by simp [answered]⟩
    rw [respond_accounts, completedTask_charge cfg hu']
    simp [answered, hb]
  | some e =>
    have hundo := undo_charge cfg hu' e
    refine ⟨?_, by simp [answered, retryLoop_tasks]⟩
    rw [retryLoop_books _ _ _ (by rw [hundo, charge_unlimitedQuota, hu'])]
    simp only [hundo, hb, charge_charge, answered, map_cons, sum_cons, add_assoc]

end

/-! ### Charged once -/

/-- The user has paid the price of an accepted task, and nothing otherwise. -/
def ChargedOnce (cfg : Config) (retryTimes : ℕ) (sub : Submission) (a : Accounts) : Prop :=
  let o := relayTaskSubmit cfg Store.ok retryTimes sub a
  a.books.userQuota - o.accounts.books.userQuota =
    if o.tasks = [] then 0 else (sub.quota a).getTotalQuotaByUsage cfg taskUsage

/-- What the meter shows for one prompt token. -/
def Submission.meter (sub : Submission) (cfg : Config) (r : ℚ) : ℤ :=
  match sub.price.type with
  | .times => trunc (cfg.float (1000 * r))
  | .tokens => ⌈cfg.float (cfg.float (cfg.float 1 * r))⌉

lemma taskUsage_total (cfg : Config) (sub : Submission) (a : Accounts) :
    (sub.quota a).getTotalQuotaByUsage cfg taskUsage =
      if (sub.quota a).inputRatio cfg.float = 0 then 0
      else max 1 (sub.meter cfg ((sub.quota a).inputRatio cfg.float)) := by
  have hmeter : ((sub.quota a).getExtraBillingData none).meteredQuota cfg 1 0 =
      sub.meter cfg ((sub.quota a).inputRatio cfg.float) := by
    have hextra : ((sub.quota a).getExtraBillingData none).extraBillingQuota cfg = 0 := rfl
    rw [Quota.meteredQuota, hextra, if_neg (lt_irrefl 0), Submission.meter]
    cases h : sub.price.type <;>
      simp [Quota.getExtraBillingData, Submission.quota, newQuota, h, cfg.float.round_zero]
  unfold Quota.getTotalQuotaByUsage
  change (sub.quota a).getTotalQuota cfg 1 0 none = _
  split_ifs with hr
  · rw [getTotalQuota_of_no_rate (by decide) hr, hmeter, hr, Submission.meter]
    cases sub.price.type <;> simp [cfg.float.round_zero]
  · rw [getTotalQuota_of_rate (by decide) hr, hmeter]

lemma taskUsage_total_pos_iff (cfg : Config) (sub : Submission) (a : Accounts) :
    0 < (sub.quota a).getTotalQuotaByUsage cfg taskUsage ↔
      (sub.quota a).inputRatio cfg.float ≠ 0 := by
  rw [taskUsage_total]
  split_ifs with h
  · simp [h]
  · simp only [ne_eq, h, not_false_eq_true, iff_true]
    omega

lemma taskUsage_total_eq_zero {cfg : Config} {sub : Submission} {a : Accounts}
    (h : (sub.quota a).inputRatio cfg.float = 0) :
    (sub.quota a).getTotalQuotaByUsage cfg taskUsage = 0 := by
  rw [taskUsage_total, if_pos h]

lemma estimates_eq_iff {p : ℤ} (hp : 0 < p) (k m : ℕ) : m * p - k * p = 0 ↔ k = m := by
  rw [sub_eq_zero, mul_left_inj' hp.ne', Nat.cast_inj, eq_comm]

/-- The failed attempts have returned the estimate as often as they should. -/
def ReturnedOnce (fl : Precision) (q : Quota) (attempts : List Attempt) : Prop :=
  if .accepted ∈ attempts then failures attempts = if q.inputRatio fl = 0 then 1 else 0
  else failures attempts ≤ 1

section
variable {cfg : Config} {retryTimes : ℕ} {sub : Submission} {a : Accounts} {adaptor : Adaptor}

lemma paid_of_trusted {attempts : List Attempt} (hcount : attempts.count .accepted ≤ 1) :
    0 + (attempts.map (effect cfg (setPreConsumed (sub.quota a) 0 false))).sum =
      if .accepted ∈ attempts then (sub.quota a).getTotalQuotaByUsage cfg taskUsage else 0 := by
  rw [sum_effect hcount]
  simp only [effect, getTotalQuotaByUsage_setPreConsumed, setPreConsumed_preConsumedQuota,
    setPreConsumed_handelStatus, Bool.false_eq_true, if_false]
  split_ifs with hmem hpos
  · omega
  · rw [taskUsage_total_pos_iff, not_not] at hpos
    rw [taskUsage_total_eq_zero hpos]
    omega
  · omega

lemma paid_of_untrusted {pre : ℤ} {attempts : List Attempt} (hcount : attempts.count .accepted ≤ 1)
    (hfail : .accepted ∉ attempts → 1 ≤ failures attempts) (hpre : 0 < pre) :
    pre + (attempts.map (effect cfg (setPreConsumed (sub.quota a) pre true))).sum =
        (if .accepted ∈ attempts then (sub.quota a).getTotalQuotaByUsage cfg taskUsage else 0) ↔
      ReturnedOnce cfg.float (sub.quota a) attempts := by
  rw [sum_effect hcount, ReturnedOnce]
  simp only [effect, getTotalQuotaByUsage_setPreConsumed, setPreConsumed_preConsumedQuota,
    setPreConsumed_handelStatus, if_true]
  split_ifs with hmem hpos hr hr
  · exact absurd hr ((taskUsage_total_pos_iff cfg sub a).mp hpos)
  · rw [← estimates_eq_iff hpre _ 0]
    push_cast
    constructor <;> intro h <;> linarith
  · rw [taskUsage_total_eq_zero hr, ← estimates_eq_iff hpre _ 1]
    push_cast
    constructor <;> intro h <;> linarith
  · exact absurd ((taskUsage_total_pos_iff cfg sub a).mpr hr) hpos
  · have hone : failures attempts = 1 ↔ failures attempts ≤ 1 := by have := hfail hmem; omega
    rw [← hone, ← estimates_eq_iff hpre _ 1]
    push_cast
    constructor <;> intro h <;> linarith

lemma relay_chargedOnce_iff (firstError : Option TaskError) :
    let o := relay cfg Store.ok retryTimes sub adaptor a firstError
    (a.books.userQuota - o.accounts.books.userQuota =
        if o.tasks = [] then 0 else (sub.quota a).getTotalQuotaByUsage cfg taskUsage) ↔
      Refused cfg (sub.quota a) a ∨ ¬ Untrusted cfg (sub.quota a) a ∨
        ReturnedOnce cfg.float (sub.quota a) (answered retryTimes sub adaptor firstError) := by
  dsimp only
  have hcount := count_accepted_answered retryTimes sub adaptor firstError
  rcases preQuotaConsumption_cases cfg a (q := sub.quota a) rfl with
    ⟨hr, e, q', a', hpre, hb⟩ | ⟨hr, hunt, a', hpre, hb⟩ | ⟨hr, hunt, a', hpre, hb⟩
  · simp [relay, hpre, hb, hr]
  · obtain ⟨hbooks, htasks⟩ := relay_spec retryTimes adaptor firstError hpre rfl hb
    rw [hbooks, charge_userQuota, sub_sub_cancel]
    simp only [htasks, ite_not, hr, hunt, not_true, false_or]
    refine paid_of_untrusted hcount (fun hnone => ?_) hunt.1
    cases firstError with
    | none => simp [answered] at hnone
    | some e => simp [answered]
  · obtain ⟨hbooks, htasks⟩ :=
      relay_spec retryTimes adaptor firstError hpre rfl (hb.trans (charge_zero _).symm)
    rw [hbooks, charge_userQuota, sub_sub_cancel, paid_of_trusted hcount]
    simp [htasks, hunt]

/-- **Charged once**, unless failed attempts returned an estimate once too often or not at all. -/
theorem chargedOnce_iff (cfg : Config) (retryTimes : ℕ) (sub : Submission) (a : Accounts) :
    ChargedOnce cfg retryTimes sub a ↔
      Refused cfg (sub.quota a) a ∨ ¬ Untrusted cfg (sub.quota a) a ∨
        ReturnedOnce cfg.float (sub.quota a) (made retryTimes sub) := by
  unfold ChargedOnce relayTaskSubmit made
  cases sub.adaptor with
  | none => simp [ReturnedOnce]
  | some adaptor =>
    cases sub.initError with
    | some e => simp [ReturnedOnce]
    | none =>
      cases sub.attempts 0 with
      | noProvider e => simp [ReturnedOnce]
      | accepted => exact relay_chargedOnce_iff none
      | failed e => exact relay_chargedOnce_iff (some e)

end

/-- The first provider fails and returns the estimate, the second accepts for nothing. -/
theorem chargedOnce_fails_retry : let a : Accounts := ⟨⟨2000, ⟨2000, 0, false⟩⟩, false, none⟩
    let sub : Submission :=
      { adaptor := some .suno, modelName := "suno_music",
        price := ⟨.times, 1, 0, none⟩, groupRatio := 1,
        attempts := fun i => if i = 0 then .failed ⟨"bad_response", "upstream error", 500, false⟩
          else .accepted }
    (sub.quota a).getTotalQuotaByUsage {} taskUsage = 1000 ∧
    relayTaskSubmit {} Store.ok 1 sub a = ⟨a, [1000], []⟩ ∧ ¬ ChargedOnce {} 1 sub a := by
  refine ⟨by decide +kernel, by decide +kernel, ?_⟩
  unfold ChargedOnce
  decide +kernel

/-! ### What a failure refunds -/

/-- **Refundable**: when the amount stored is the amount charged, in exact arithmetic. -/
theorem refundable_iff (cfg : Config) (sub : Submission) (a : Accounts) :
    taskQuota .exact (sub.quota a) = (sub.quota a).getTotalQuotaByUsage cfg.exact taskUsage ↔
      (sub.quota a).inputRatio .exact = 0 ∨ (1 ≤ 1000 * (sub.quota a).inputRatio .exact ∧
        (sub.price.type = .tokens → 1000 * (sub.quota a).inputRatio .exact < 2)) := by
  rw [taskUsage_total, taskQuota, mul_comm, Submission.meter]
  simp only [Config.exact, Precision.exact, id, one_mul]
  generalize (sub.quota a).inputRatio ⟨id, rfl⟩ = r
  by_cases hr : r = 0
  · simp [hr]
  simp only [hr, if_false, false_or]
  have hpos := @trunc_pos_iff (1000 * r)
  cases sub.price.type with
  | times =>
    dsimp only
    rw [← hpos]
    constructor
    · exact fun h => ⟨by omega, nofun⟩
    · rintro ⟨h, -⟩
      omega
  | tokens =>
    dsimp only
    rcases lt_or_gt_of_ne hr with hneg | hr
    · -- a negative ratio is charged one and stored as nothing or less
      have := trunc_nonpos (show 1000 * r < 0 by linarith)
      constructor
      · intro h
        omega
      · rintro ⟨h, -⟩
        linarith
    · have hceil : 0 < ⌈r⌉ := Int.ceil_pos.mpr hr
      rw [max_eq_right (by omega), trunc_mul_eq_ceil_iff (by norm_num) hr]
      simp

/-- A price per token of one: the submission is charged one, and its failure refunds a thousand. -/
theorem refundable_fails_tokens : let a : Accounts := ⟨⟨2000, ⟨2000, 0, false⟩⟩, false, none⟩
    let sub : Submission :=
      { adaptor := some .tokiameVideo, modelName := "video",
        price := ⟨.tokens, 1, 1, none⟩, groupRatio := 1,
        attempts := fun _ => .accepted }
    (sub.quota a).getTotalQuotaByUsage {} taskUsage = 1 ∧
    relayTaskSubmit {} Store.ok 0 sub a =
      ⟨⟨⟨1999, ⟨1999, 1, false⟩⟩, false, none⟩, [1000], [.accepted]⟩ ∧
    taskQuota .exact (sub.quota a) ≠
      (sub.quota a).getTotalQuotaByUsage (Config.exact {}) taskUsage := by
  decide +kernel

/-! ### The answer -/

/-- The error that ends a submission before any attempt. -/
@[simp] def barred (cfg : Config) (store : Store) (sub : Submission) (a : Accounts) :
    Option TaskError :=
  match sub.adaptor with
  | none => some ⟨"adaptor_not_found", "adaptor not found", 400, true⟩
  | some _ =>
    match sub.initError, sub.attempts 0 with
    | some e, _ => some e
    | none, .noProvider e => some e
    | none, _ => (preQuotaConsumption cfg store (sub.quota a) a).1.map openAIErrToTaskErr

def Attempt.error? : Attempt → Option TaskError
  | .noProvider e => some e
  | .failed e => some e
  | .accepted => none

def lastFailure (attempts : List Attempt) : Option TaskError :=
  (attempts.filterMap Attempt.error?).getLast?

/-- The answer that the client is owed. -/
def Due (cfg : Config) (store : Store) (retryTimes : ℕ) (sub : Submission) (a : Accounts)
    (r : Response) : Prop :=
  match barred cfg store sub a with
  | some e => r = .error e
  | none =>
    if .accepted ∈ made retryTimes sub then r = .accepted
    else ∃ e, lastFailure (made retryTimes sub) = some e ∧ r = .error e

section
variable {cfg : Config} {store : Store} {sub : Submission} {q : Quota} {o : Outcome}
  {adaptor : Adaptor}

@[simp] lemma lastFailure_nil : lastFailure [] = none := rfl

@[simp] lemma lastFailure_noProvider (e : TaskError) (l : List Attempt) :
    lastFailure (.noProvider e :: l) = some ((lastFailure l).getD e) := getLast?_cons

@[simp] lemma lastFailure_failed (e : TaskError) (l : List Attempt) :
    lastFailure (.failed e :: l) = some ((lastFailure l).getD e) := getLast?_cons

lemma retryLoop_responses (n i : ℕ) (taskErr : TaskError) :
    (retryLoop cfg store sub adaptor q n i taskErr o).responses = o.responses ++
      if .accepted ∈ retries sub adaptor n i then []
      else [.error ((lastFailure (retries sub adaptor n i)).getD taskErr)] := by
  induction n generalizing i taskErr o with
  | zero => simp [retryLoop, retries]
  | succ n ih =>
    unfold retryLoop retries
    cases sub.attempts i with
    | noProvider e => simp [ih (i + 1) e]
    | accepted => simp
    | failed e =>
      by_cases hretry : shouldRetry adaptor sub.specificChannel e = true
      · simp [hretry, ih (i + 1) e]
      · simp [hretry]

lemma relay_responses {a a' : Accounts} (retryTimes : ℕ) (firstError : Option TaskError)
    (hpre : preQuotaConsumption cfg store (sub.quota a) a = (none, q, a')) :
    (relay cfg store retryTimes sub adaptor a firstError).responses =
      if .accepted ∈ (answered retryTimes sub adaptor firstError).tail then []
      else if .accepted ∈ answered retryTimes sub adaptor firstError then [.accepted]
      else (lastFailure (answered retryTimes sub adaptor firstError)).toList.map .error := by
  unfold relay
  rw [hpre]
  cases firstError with
  | none => simp [answered]
  | some e =>
    rw [retryLoop_responses, answered]
    generalize retries sub adaptor _ 1 = attempts
    by_cases hmem : .accepted ∈ attempts <;> simp [hmem]

lemma answered_cases (retryTimes : ℕ) (sub : Submission) (adaptor : Adaptor)
    (firstError : Option TaskError) : .accepted ∈ answered retryTimes sub adaptor firstError ∨
      ∃ e, lastFailure (answered retryTimes sub adaptor firstError) = some e := by
  cases firstError with
  | none => exact .inl (by simp [answered])
  | some e => exact .inr ⟨_, lastFailure_failed e _⟩

lemma relay_answeredOnce_iff {a : Accounts} (retryTimes : ℕ) (firstError : Option TaskError)
    (hbarred : barred cfg store sub a =
      (preQuotaConsumption cfg store (sub.quota a) a).1.map openAIErrToTaskErr)
    (hmade : made retryTimes sub = answered retryTimes sub adaptor firstError) :
    (∃ r, (relay cfg store retryTimes sub adaptor a firstError).responses = [r] ∧
      Due cfg store retryTimes sub a r) ↔
    ((barred cfg store sub a).isSome ∨ .accepted ∉ (made retryTimes sub).tail) := by
  unfold Due
  rcases hpre : preQuotaConsumption cfg store (sub.quota a) a with ⟨_ | e, q, a'⟩
  · have hnone : barred cfg store sub a = none := by rw [hbarred, hpre]; rfl
    rw [hnone, relay_responses retryTimes firstError hpre, hmade]
    simp only [Option.isSome_none, Bool.false_eq_true, false_or]
    by_cases htail : .accepted ∈ (answered retryTimes sub adaptor firstError).tail
    · simp [htail]
    rw [if_neg htail]
    simp only [htail, not_false_eq_true, iff_true]
    rcases answered_cases retryTimes sub adaptor firstError with hmem | ⟨e, he⟩
    · exact ⟨.accepted, by simp [hmem]⟩
    · by_cases hmem : .accepted ∈ answered retryTimes sub adaptor firstError
      · exact ⟨.accepted, by simp [hmem]⟩
      · exact ⟨.error e, by simp [hmem, he]⟩
  · have hsome : barred cfg store sub a = some (openAIErrToTaskErr e) := by rw [hbarred, hpre]; rfl
    rw [hsome, relay, hpre]
    simp

/-- **One answer**, unless a retry is accepted: that one is booked, and nothing is written. -/
theorem answeredOnce_iff (cfg : Config) (store : Store) (retryTimes : ℕ) (sub : Submission)
    (a : Accounts) : (∃ r, (relayTaskSubmit cfg store retryTimes sub a).responses = [r] ∧
      Due cfg store retryTimes sub a r) ↔
    ((barred cfg store sub a).isSome ∨ .accepted ∉ (made retryTimes sub).tail) := by
  unfold relayTaskSubmit
  cases hadaptor : sub.adaptor with
  | none => simp [Due, hadaptor]
  | some adaptor =>
    cases hinit : sub.initError with
    | some e => simp [Due, hadaptor, hinit]
    | none =>
      cases hfirst : sub.attempts 0 with
      | noProvider e => simp [Due, hadaptor, hinit, hfirst]
      | accepted =>
        exact relay_answeredOnce_iff retryTimes none (by simp [hadaptor, hinit, hfirst])
          (by simp [made, hadaptor, hinit, hfirst])
      | failed e =>
        exact relay_answeredOnce_iff retryTimes (some e) (by simp [hadaptor, hinit, hfirst])
          (by simp [made, hadaptor, hinit, hfirst])

end

/-- The second provider accepts: the task is stored and the client gets no answer. -/
theorem unanswered_retry : let a : Accounts := ⟨⟨2000, ⟨2000, 0, false⟩⟩, false, none⟩
    let sub : Submission :=
      { adaptor := some .suno, modelName := "suno_music",
        price := ⟨.times, 1, 0, none⟩, groupRatio := 1,
        attempts := fun i => if i = 0 then .failed ⟨"bad_response", "upstream error", 429, false⟩
          else .accepted }
    barred {} Store.ok sub a = none ∧ .accepted ∈ made 1 sub ∧
    (relayTaskSubmit {} Store.ok 1 sub a).tasks = [1000] ∧
    (relayTaskSubmit {} Store.ok 1 sub a).responses = [] := by
  decide +kernel

end Tokilake.Relay.TaskSubmit
