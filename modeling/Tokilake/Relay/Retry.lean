import Mathlib.Data.List.Infix
import Tokilake.Relay.Provider

/-! # The retries of a request

`Relay` selects a provider, sends the request, and retries up to `RetryTimes` times.  Answers, clock
and tables are inputs.

* `relay_attempts`: how many attempts there are;
* `priced_iff`: when each is priced by the group that served it. -/

namespace Tokilake.Relay.Retry

open Routing Relay.Provider List

structure OpenAIError where
  message : String := ""
  param : String := ""
  code : String := ""
  statusCode : ℕ
  localError : Bool := false
  deriving DecidableEq

def stringErrorWrapperLocal (message code : String) (statusCode : ℕ) : OpenAIError where
  message
  code
  statusCode
  localError := true

def contains (text part : String) : Bool := decide (part.toList <:+: text.toList)

def channelTypeAnthropic : ℤ := 14

def channelTypeBedrock : ℤ := 32

def shouldRetryBadRequest (channelType : ℤ) (apiErr : OpenAIError) : Bool :=
  if channelType = channelTypeAnthropic then
    contains apiErr.message "Your credit balance is too low"
  else if channelType = channelTypeBedrock then contains apiErr.message "Operation not allowed"
  else apiErr.param = "INVALID_ARGUMENT" && contains apiErr.message "API key not valid"

def shouldRetry (c : Context) (apiErr : OpenAIError) (channelType : ℤ) : Bool :=
  if apiErr.localError ∨ c.specific then false
  else if apiErr.statusCode = 429 ∨ apiErr.statusCode = 307 then true
  else if apiErr.statusCode = 408 ∨ apiErr.statusCode = 504 ∨ apiErr.statusCode = 524 then false
  else if apiErr.statusCode = 400 then shouldRetryBadRequest channelType apiErr
  else if apiErr.statusCode / 100 = 5 then true
  else if apiErr.statusCode / 100 = 2 then false
  else true

def shouldCooldowns (c : Context) (channel : Channel) (apiErr : OpenAIError) :
    Context × Option (ℤ × String) :=
  ({ c with skipChannelIds := some (c.skipChannelIds.getD [] ++ [channel.id]) },
    if apiErr.statusCode = 429 then some (channel.id, c.newModel) else none)

structure GroupQuota where
  isBackupGroup : Bool
  groupName : String
  backupGroupName : String
  groupRatio : ℚ

def newQuota (c : Context) : GroupQuota where
  isBackupGroup := c.isBackupGroup
  groupName := c.tokenGroup
  backupGroupName := c.tokenBackupGroup
  groupRatio := c.groupRatio

/-- What the selections find, how `RelayHandler` ends, and whether it is too late for a retry. -/
structure Script where
  before : World
  world : ℕ → World
  handler : ℕ → Option OpenAIError × Bool
  late : ℕ → Bool := fun _ => false

/-- What the relay takes from the request; `bodyModel` is read before it is relayed. -/
structure Request where
  originalModel : String
  bodyModel : Option String := none
  requestError : Option String := none
  skipOnlyChat : Bool := false
  isStream : Bool := false

structure Attempt where
  selected : Selected
  quota : GroupQuota
  apiErr : Option OpenAIError
  done : Bool

inductive Response
  | sent
  | error (e : OpenAIError)
  | panic

structure Relayed where
  attempts : List Attempt := []
  freezes : List (ℤ × String) := []
  response : Response

section
variable (x : Script)

def attempt (modelName : String) (i : ℕ) (c : Context) : Except Failure Attempt × Context :=
  match getProvider (x.world i) c modelName with
  | (.error e, c) => (.error e, c)
  | (.ok s, c) => (.ok ⟨s, newQuota c, (x.handler i).1, (x.handler i).2⟩, c)

def retryTimeout : OpenAIError := stringErrorWrapperLocal "重试超时，上游负载已饱和，请稍后再试" "system_error" 429

def retryLoop (modelName : String) : ℕ → ℕ → Context → Channel → OpenAIError → Relayed
  | 0, _, _, _, apiErr => { response := .error apiErr }
  | n + 1, i, c, channel, apiErr =>
    let (c, freeze) := shouldCooldowns c channel apiErr
    let freezes := freeze.toList
    if x.late i then { freezes, response := .error retryTimeout }
    else match attempt x modelName i c with
      | (.error .panic, _) => { freezes, response := .panic }
      | (.error (.error _), _) => { freezes, response := .error apiErr }
      | (.ok a, c) =>
        match a.apiErr with
        | none => { attempts := [a], freezes, response := .sent }
        | some apiErr =>
          if a.done ∨ shouldRetry c apiErr a.selected.columns.type = false then
            { attempts := [a], freezes, response := .error apiErr }
          else
            let r := retryLoop modelName n (i + 1) c a.selected.channel apiErr
            { r with attempts := a :: r.attempts, freezes := freezes ++ r.freezes }

/-- The selection for the model of the body: whether it panics, and the context it leaves.  An error
is dropped. -/
def applyPreMapping (req : Request) (c : Context) : Bool × Context :=
  match req.bodyModel with
  | none => (false, c)
  | some modelName =>
    if modelName = "" then (false, c)
    else match getProvider x.before c modelName with
      | (.error .panic, c) => (true, c)
      | (_, c) => (false, c)

def setRequest (req : Request) (c : Context) : Context :=
  { c with skipOnlyChat := c.skipOnlyChat || req.skipOnlyChat, isStream := req.isStream }

def relay (retryTimes : ℤ) (req : Request) (c : Context) : Relayed :=
  let (panicked, c) := applyPreMapping x req c
  if panicked then { response := .panic }
  else match req.requestError with
  | some e => { response := .error (stringErrorWrapperLocal e "one_hub_error" 400) }
  | none =>
    match attempt x req.originalModel 0 (setRequest req c) with
    | (.error .panic, _) => { response := .panic }
    | (.error (.error e), _) =>
      { response := .error (stringErrorWrapperLocal e "one_hub_error" 503) }
    | (.ok a, c) =>
      match a.apiErr with
      | none => { attempts := [a], response := .sent }
      | some apiErr =>
        let retryTimes :=
          if a.done ∨ shouldRetry c apiErr a.selected.columns.type = false then 0 else retryTimes
        let r := retryLoop x req.originalModel retryTimes.toNat 1 c a.selected.channel apiErr
        { r with attempts := a :: r.attempts }

end

/-! ### The attempts, one after the other -/

variable {x : Script} {modelName : String} {i n : ℕ} {c c' c₀ : Context} {channel : Channel}
  {apiErr : OpenAIError} {a : Attempt} {req : Request}

def Retryable (c : Context) (a : Attempt) : Prop :=
  ∃ e, a.apiErr = some e ∧ a.done = false ∧ shouldRetry c e a.selected.columns.type = true

lemma shouldRetry_frame (h : c'.specific ↔ c.specific) (channelType : ℤ) :
    shouldRetry c' apiErr channelType = shouldRetry c apiErr channelType := by
  unfold shouldRetry
  simp only [h]

lemma retryable_frame (h : c'.specific ↔ c.specific) : Retryable c' a ↔ Retryable c a := by
  simp only [Retryable, shouldRetry_frame h]

lemma retryable_of_not_stop {e : OpenAIError} (hfailed : a.apiErr = some e)
    (h : ¬ (a.done = true ∨ shouldRetry c e a.selected.columns.type = false)) : Retryable c a := by
  push Not at h
  exact ⟨e, hfailed, by simpa using h.1, by simpa using h.2⟩

lemma retryLoop_cases (x : Script) (modelName : String) (n i : ℕ) (c : Context)
    (channel : Channel) (apiErr : OpenAIError) :
    (retryLoop x modelName (n + 1) i c channel apiErr).attempts = [] ∨
    ∃ a c', attempt x modelName i (shouldCooldowns c channel apiErr).1 = (.ok a, c') ∧
      ((retryLoop x modelName (n + 1) i c channel apiErr).attempts = [a] ∨
        Retryable c' a ∧ ∃ e, (retryLoop x modelName (n + 1) i c channel apiErr).attempts =
          a :: (retryLoop x modelName n (i + 1) c' a.selected.channel e).attempts) := by
  simp only [retryLoop]
  split_ifs with hlate
  · exact .inl rfl
  rcases hattempt : attempt x modelName i (shouldCooldowns c channel apiErr).1 with
    ⟨(text | _) | a, c'⟩
  · exact .inl rfl
  · exact .inl rfl
  · refine .inr ⟨a, c', rfl, ?_⟩
    dsimp only
    cases hfailed : a.apiErr with
    | none => exact .inl rfl
    | some e =>
      dsimp only
      split_ifs with hstop
      · exact .inl rfl
      · exact .inr ⟨retryable_of_not_stop hfailed hstop, e, rfl⟩

lemma applyPreMapping_snd (x : Script) (req : Request) (c : Context) :
    (applyPreMapping x req c).2 = match req.bodyModel with
      | none => c
      | some modelName => if modelName = "" then c else (getProvider x.before c modelName).2 := by
  unfold applyPreMapping
  cases req.bodyModel with
  | none => rfl
  | some modelName =>
    dsimp only
    split_ifs
    · rfl
    · rcases getProvider x.before c modelName with ⟨(e | _) | s, c'⟩ <;> rfl

lemma relay_cases (x : Script) (retryTimes : ℤ) (req : Request) (c : Context) :
    (relay x retryTimes req c).attempts = [] ∨
    ∃ a c', attempt x req.originalModel 0
      (setRequest req (applyPreMapping x req c).2) = (.ok a, c') ∧
      ((relay x retryTimes req c).attempts = [a] ∨
        Retryable c' a ∧ ∃ e, (relay x retryTimes req c).attempts = a ::
          (retryLoop x req.originalModel retryTimes.toNat 1 c' a.selected.channel e).attempts) := by
  unfold relay
  dsimp only
  split_ifs
  · exact .inl rfl
  cases hrequest : req.requestError with
  | some e => exact .inl rfl
  | none =>
    dsimp only
    rcases hattempt : attempt x req.originalModel 0
      (setRequest req (applyPreMapping x req c).2) with
      ⟨(text | _) | a, c'⟩
    · exact .inl rfl
    · exact .inl rfl
    · refine .inr ⟨a, c', rfl, ?_⟩
      dsimp only
      cases hfailed : a.apiErr with
      | none => exact .inl rfl
      | some e =>
        dsimp only
        split_ifs with hstop
        · exact .inl rfl
        · exact .inr ⟨retryable_of_not_stop hfailed hstop, e, rfl⟩

lemma attempt_ok (h : attempt x modelName i c = (.ok a, c')) :
    getProvider (x.world i) c modelName = (.ok a.selected, c') ∧ a.quota = newQuota c' := by
  unfold attempt at h
  rcases hselect : getProvider (x.world i) c modelName with ⟨e | s, c₁⟩
  · rw [hselect] at h
    cases h
  · rw [hselect] at h
    cases h
    exact ⟨rfl, rfl⟩

lemma attempt_frame (h : attempt x modelName i c = (.ok a, c')) : Frame c c' := by
  have hprovided := provided (x.world i) c modelName
  rw [(attempt_ok h).1] at hprovided
  exact hprovided.frame

/-! ### Different channels, and how many -/

/-- No attempt uses a skipped channel or one twice, and each but the last is worth a retry. -/
structure Distinct (c : Context) (skipped : List ℤ) (limit : ℕ) (attempts : List Attempt) :
    Prop where
  fresh : ∀ a ∈ attempts, a.selected.channel.id ∉ skipped
  nodup : (attempts.map (·.selected.channel.id)).Nodup
  bounded : attempts.length ≤ limit
  retryable : ∀ before a b after, attempts = before ++ a :: b :: after → Retryable c a

lemma Distinct.nil (skipped : List ℤ) : Distinct c skipped n [] :=
  ⟨by simp, by simp, by simp, by simp⟩

lemma Distinct.single {skipped : List ℤ} (h : a.selected.channel.id ∉ skipped) :
    Distinct c skipped (n + 1) [a] := by
  refine ⟨by simpa using h, by simp, by simp, fun before a₁ b after heq => ?_⟩
  have hlength := congrArg length heq
  simp at hlength
  omega

lemma Distinct.mono {skipped skipped' : List ℤ} {attempts : List Attempt}
    (h : Distinct c skipped n attempts) (hsub : skipped' ⊆ skipped) :
    Distinct c skipped' n attempts :=
  ⟨fun a ha hmem => h.fresh a ha (hsub hmem), h.nodup, h.bounded, h.retryable⟩

lemma Distinct.cons {skipped : List ℤ} {attempts : List Attempt}
    (hfresh : a.selected.channel.id ∉ skipped) (hretry : Retryable c a)
    (h : Distinct c (skipped ++ [a.selected.channel.id]) n attempts) :
    Distinct c skipped (n + 1) (a :: attempts) := by
  refine ⟨?_, ?_, by simpa using h.bounded, ?_⟩
  · intro b hb
    rcases mem_cons.mp hb with rfl | hb
    · exact hfresh
    · have hnot := h.fresh b hb
      exact fun hmem => hnot (mem_append_left _ hmem)
  · rw [map_cons, nodup_cons]
    refine ⟨?_, h.nodup⟩
    rintro hmem
    obtain ⟨b, hb, heq⟩ := mem_map.mp hmem
    exact h.fresh b hb (by simp [heq])
  · intro before a₁ b after heq
    cases before with
    | nil =>
      cases heq
      exact hretry
    | cons first before =>
      cases heq
      exact h.retryable before a₁ b after rfl

lemma retryLoop_distinct (hspecific : ¬ c₀.specific) (hsame : c.specific ↔ c₀.specific) :
    Distinct c₀ (c.skipChannelIds.getD [] ++ [channel.id]) n
      (retryLoop x modelName n i c channel apiErr).attempts := by
  induction n generalizing i c channel apiErr with
  | zero => exact .nil _
  | succ n ih =>
    rcases retryLoop_cases x modelName n i c channel apiErr with hnil | ⟨a, c', hattempt, hrest⟩
    · rw [hnil]
      exact .nil _
    have hfresh :=
      not_skipped (c := (shouldCooldowns c channel apiErr).1) (fun h => hspecific (hsame.mp h)) rfl
        (attempt_ok hattempt).1
    have hframe := attempt_frame hattempt
    have hsame' := hframe.specific.trans hsame
    have hskip : c'.skipChannelIds.getD [] = c.skipChannelIds.getD [] ++ [channel.id] := by
      rw [hframe.skipChannelIds]
      rfl
    rcases hrest with hsingle | ⟨hretry, e, hcons⟩
    · rw [hsingle]
      exact .single hfresh
    rw [hcons]
    refine .cons hfresh ((retryable_frame hsame').mp hretry) ?_
    rw [← hskip]
    exact ih hsame'

lemma applyPreMapping_frame (x : Script) (req : Request) (c : Context) :
    Frame c (applyPreMapping x req c).2 := by
  rw [applyPreMapping_snd]
  cases req.bodyModel with
  | none => exact ⟨rfl, rfl, rfl, rfl, rfl⟩
  | some modelName =>
    dsimp only
    split_ifs with hempty
    · exact ⟨rfl, rfl, rfl, rfl, rfl⟩
    · exact (provided x.before c modelName).frame

/-- **The attempts of a request** use different channels, and are at most `RetryTimes` retries. -/
theorem relay_attempts (x : Script) (retryTimes : ℤ) (req : Request) (c : Context)
    (hspecific : ¬ c.specific) :
    ((relay x retryTimes req c).attempts.map (·.selected.channel.id)).Nodup ∧
    ((relay x retryTimes req c).attempts.length : ℤ) ≤ 1 + max retryTimes 0 ∧
    ∀ before a b after, (relay x retryTimes req c).attempts = before ++ a :: b :: after →
      ∃ e, a.apiErr = some e ∧ a.done = false ∧ shouldRetry c e a.selected.columns.type = true := by
  have hdistinct : Distinct c [] (retryTimes.toNat + 1) (relay x retryTimes req c).attempts := by
    rcases relay_cases x retryTimes req c with hnil | ⟨a, c', hattempt, hrest⟩
    · rw [hnil]
      exact .nil _
    have hsame := (attempt_frame hattempt).specific.trans (applyPreMapping_frame x req c).specific
    rcases hrest with hsingle | ⟨hretry, e, hcons⟩
    · rw [hsingle]
      exact .single (by simp)
    · rw [hcons]
      exact .cons (by simp) ((retryable_frame hsame).mp hretry)
        ((retryLoop_distinct hspecific hsame).mono (by simp))
  refine ⟨hdistinct.nodup, ?_, hdistinct.retryable⟩
  have hbound := hdistinct.bounded
  omega

def twoGroups (cooldowns : Cooldowns.Store) : World where
  set := ⟨[⟨1, "cheap", "gpt-4", 1, 0⟩, ⟨2, "dear", "gpt-4", 1, 0⟩], by decide⟩
  order := []
  ordered := by decide
  cooldowns
  ratio := fun group => if group = "cheap" then some (1 / 2)
    else if group = "dear" then some 2 else none

/-- The first attempt fails with this status, the second succeeds. -/
def failsOnce (statusCode : ℕ) (cooldowns : Cooldowns.Store) : Script where
  before := twoGroups cooldowns
  world := fun i => twoGroups (if i = 0 then cooldowns else fun _ => none)
  handler := fun i => (if i = 0 then some { statusCode } else none, false)

def bothGroups : Context where
  tokenGroup := "cheap"
  tokenBackupGroup := "dear"
  groupRatio := 1 / 2

def gpt4 : Request where
  originalModel := "gpt-4"

/-- The channel of the first group is rate limited, and the retry goes to the backup group. -/
theorem relay_attempts_backup : (relay (failsOnce 429 fun _ => none) 3 gpt4 bothGroups).attempts.map
      (·.selected.channel.id) = [1, 2] ∧
    ((relay (failsOnce 429 fun _ => none) 3 gpt4 bothGroups).attempts.map
      (·.selected.channel.id)).Nodup :=
  ⟨by decide, (relay_attempts _ _ _ _ (by decide)).1⟩

/-- With a negative number of retries there is still the first attempt. -/
theorem attempt_of_negative : 1 + (-1 : ℤ) <
      (relay (failsOnce 429 fun _ => none) (-1) gpt4 bothGroups).attempts.length := by
  decide

/-! ### The group an attempt is priced by -/

/-- The account of an attempt has the flag and the ratio of the group that serves it. -/
def Priced (base : ℚ) (w : World) (c : Context) (a : Attempt) : Prop :=
  match a.selected.origin with
  | .byId => True
  | .primary => a.quota.isBackupGroup = false ∧ a.quota.groupRatio = base
  | .backup => a.quota.isBackupGroup = true ∧ w.ratio c.tokenBackupGroup = some a.quota.groupRatio

/-- No attempt in the token's group follows a selection that took the backup group. -/
def Orderly (flag : Bool) (attempts : List Attempt) : Prop :=
  attempts.Pairwise (fun a b => a.selected.origin = .backup → b.selected.origin ≠ .primary) ∧
  (flag = true → ∀ a ∈ attempts, a.selected.origin ≠ .primary)

variable {flag : Bool} {attempts : List Attempt} {base : ℚ}

lemma orderly_cons_own (h : a.selected.origin ≠ .backup) : Orderly flag (a :: attempts) ↔
      (a.selected.origin = .primary → flag = false) ∧ Orderly flag attempts := by
  simp only [Orderly, pairwise_cons, forall_mem_cons]
  constructor
  · rintro ⟨⟨-, hpairs⟩, hflag⟩
    refine ⟨fun hprimary => ?_, hpairs, fun htrue => (hflag htrue).2⟩
    by_contra htrue
    exact (hflag (by simpa using htrue)).1 hprimary
  · rintro ⟨hfirst, hpairs, hflag⟩
    refine ⟨⟨fun _ _ hbackup => absurd hbackup h, hpairs⟩,
      fun htrue => ⟨fun hprimary => ?_, hflag htrue⟩⟩
    rw [hfirst hprimary] at htrue
    cases htrue

lemma orderly_cons_backup (h : a.selected.origin = .backup) :
    Orderly flag (a :: attempts) ↔ Orderly true attempts := by
  simp only [Orderly, pairwise_cons, forall_mem_cons, h]
  constructor
  · rintro ⟨⟨hfirst, hpairs⟩, -⟩
    exact ⟨hpairs, fun _ b hb => hfirst b hb trivial⟩
  · rintro ⟨hpairs, hrest⟩
    exact ⟨⟨fun b hb _ => hrest trivial b hb, hpairs⟩, fun _ => ⟨by decide, hrest trivial⟩⟩

def PricedFrom (x : Script) (base : ℚ) (c : Context) (i : ℕ) (attempts : List Attempt) : Prop :=
  ∀ j a, attempts[j]? = some a → Priced base (x.world (i + j)) c a

lemma pricedFrom_cons : PricedFrom x base c i (a :: attempts) ↔
    Priced base (x.world i) c a ∧ PricedFrom x base c (i + 1) attempts := by
  constructor
  · intro h
    refine ⟨h 0 a rfl, fun j b hb => ?_⟩
    have hpriced := h (j + 1) b (by simpa using hb)
    rwa [show i + (j + 1) = i + 1 + j by omega] at hpriced
  · rintro ⟨hfirst, hrest⟩ (_ | j) b hb
    · cases hb
      exact hfirst
    · have hpriced := hrest j b (by simpa using hb)
      rwa [show i + 1 + j = i + (j + 1) by omega] at hpriced

lemma attempt_group (h : attempt x modelName i c = (.ok a, c')) :
    (a.selected.origin ≠ .backup ∧ c'.isBackupGroup = c.isBackupGroup ∧
      c'.groupRatio = c.groupRatio) ∨ (a.selected.origin = .backup ∧ c'.isBackupGroup = true ∧
      (x.world i).ratio c.tokenBackupGroup = some c'.groupRatio) := by
  have hprovided := provided (x.world i) c modelName
  rw [(attempt_ok h).1] at hprovided
  cases hprovided with
  | own _ horigin _ hflag hratio =>
    refine .inl ⟨?_, hflag, hratio⟩
    rcases horigin with ⟨hid, -⟩ | ⟨hprimary, -⟩
    · simp [hid]
    · simp [hprimary]
  | backup _ horigin _ _ hflag hratio => exact .inr ⟨horigin, hflag, hratio⟩

lemma priced_step (h : attempt x modelName i c = (.ok a, c'))
    (hbackup : c.tokenBackupGroup = c₀.tokenBackupGroup)
    (hbase : c.isBackupGroup = false → c.groupRatio = base)
    (hrest : (c'.isBackupGroup = false → c'.groupRatio = base) →
      (PricedFrom x base c₀ (i + 1) attempts ↔ Orderly c'.isBackupGroup attempts)) :
    PricedFrom x base c₀ i (a :: attempts) ↔ Orderly c.isBackupGroup (a :: attempts) := by
  rw [pricedFrom_cons]
  have hquota := (attempt_ok h).2
  rcases attempt_group h with ⟨horigin, hflag, hratio⟩ | ⟨horigin, hflag, hratio⟩
  · rw [orderly_cons_own horigin, hrest (by rwa [hflag, hratio]), hflag]
    refine and_congr_left fun _ => ?_
    unfold Priced
    cases hcase : a.selected.origin with
    | byId => simp
    | primary =>
      simp only [hquota, newQuota, hflag, hratio, forall_const]
      exact ⟨fun hpriced => hpriced.1, fun hfalse => ⟨hfalse, hbase hfalse⟩⟩
    | backup => exact absurd hcase horigin
  · rw [orderly_cons_backup horigin, hrest (by simp [hflag]), hflag]
    refine and_iff_right ?_
    unfold Priced
    rw [horigin]
    simp only [hquota, newQuota, ← hbackup]
    exact ⟨hflag, hratio⟩

lemma pricedFrom_nil : PricedFrom x base c i [] ↔ Orderly flag [] := by simp [PricedFrom, Orderly]

lemma retryLoop_priced (hbackup : c.tokenBackupGroup = c₀.tokenBackupGroup)
    (hbase : c.isBackupGroup = false → c.groupRatio = base) :
    PricedFrom x base c₀ i (retryLoop x modelName n i c channel apiErr).attempts ↔
      Orderly c.isBackupGroup (retryLoop x modelName n i c channel apiErr).attempts := by
  induction n generalizing i c channel apiErr with
  | zero => exact pricedFrom_nil
  | succ n ih =>
    rcases retryLoop_cases x modelName n i c channel apiErr with hnil | ⟨a, c', hattempt, hrest⟩
    · rw [hnil]
      exact pricedFrom_nil
    have hframe := attempt_frame hattempt
    rcases hrest with hsingle | ⟨-, e, hcons⟩
    · rw [hsingle]
      exact priced_step (c := (shouldCooldowns c channel apiErr).1) hattempt hbackup hbase
        fun _ => pricedFrom_nil
    · rw [hcons]
      exact priced_step (c := (shouldCooldowns c channel apiErr).1) hattempt hbackup hbase
        fun hbase' => ih (hframe.tokenBackupGroup.trans hbackup) hbase'

def PreMapsToBackup (x : Script) (req : Request) (c : Context) : Prop :=
  ∃ modelName, req.bodyModel = some modelName ∧ modelName ≠ "" ∧ SelectsBackup x.before c modelName

lemma applyPreMapping_group (x : Script) (req : Request) (hfresh : c.isBackupGroup = false) :
    ((applyPreMapping x req c).2.isBackupGroup = true ↔ PreMapsToBackup x req c) ∧
    ((applyPreMapping x req c).2.isBackupGroup = false →
      (applyPreMapping x req c).2.groupRatio = c.groupRatio) := by
  rw [applyPreMapping_snd]
  unfold PreMapsToBackup
  cases hbody : req.bodyModel with
  | none => simp [hfresh]
  | some modelName =>
    dsimp only
    by_cases hempty : modelName = ""
    · simp [hempty, hfresh]
    rw [if_neg hempty]
    simp only [Option.some.injEq, ↓existsAndEq, true_and, hempty, not_false_eq_true, ne_eq]
    rcases (provided x.before c modelName).group with ⟨hselects, hflag⟩ | ⟨hselects, hflag, hratio⟩
    · exact ⟨⟨fun _ => hselects, fun _ => hflag⟩, fun hfalse => by simp [hflag] at hfalse⟩
    · exact ⟨⟨fun htrue => by simp [hflag, hfresh] at htrue, fun h => absurd h hselects⟩,
        fun _ => hratio⟩

lemma setupGroups_ratio {ratio : String → Option ℚ} {active : String → Except String Bool}
    {userGroup : String} {token : Context} (h : setupGroups ratio active userGroup token = .ok c) :
    c.isBackupGroup = token.isBackupGroup ∧ c.groupRatio = (ratio c.tokenGroup).getD 1 := by
  unfold setupGroups at h
  generalize determineEffectiveGroup token.tokenGroup token.tokenBackupGroup userGroup = group at h
  by_cases hgroup : group = ""
  · rw [if_pos hgroup] at h
    cases h
  rw [if_neg hgroup] at h
  cases hratio : ratio group with
  | some r =>
    rw [hratio] at h
    cases h
    simp [hratio]
  | none =>
    rw [hratio] at h
    rcases hactive : active group with e | _ | _ <;> rw [hactive] at h
    · cases h
    · cases h
    · cases h
      simp [hratio]

/-- **Which requests are priced right**: the orderly ones. -/
theorem priced_iff (x : Script) (retryTimes : ℤ) (req : Request) (ratio : String → Option ℚ)
    (active : String → Except String Bool) (userGroup : String) (token c : Context)
    (hfresh : token.isBackupGroup = false)
    (hsetup : setupGroups ratio active userGroup token = .ok c) :
    (∀ i a, (relay x retryTimes req c).attempts[i]? = some a →
      Priced ((ratio c.tokenGroup).getD 1) (x.world i) c a) ↔
    (relay x retryTimes req c).attempts.Pairwise
      (fun a b => a.selected.origin = .backup → b.selected.origin ≠ .primary) ∧
    (PreMapsToBackup x req c →
      ∀ a ∈ (relay x retryTimes req c).attempts, a.selected.origin ≠ .primary) := by
  obtain ⟨hflag, hratio⟩ := setupGroups_ratio hsetup
  obtain ⟨hpre, hkept⟩ := applyPreMapping_group x req (hflag.trans hfresh)
  have hframe := applyPreMapping_frame x req c
  have hbase : (applyPreMapping x req c).2.isBackupGroup = false →
      (applyPreMapping x req c).2.groupRatio = (ratio c.tokenGroup).getD 1 := fun hfalse =>
    (hkept hfalse).trans hratio
  have hall : PricedFrom x ((ratio c.tokenGroup).getD 1) c 0 (relay x retryTimes req c).attempts ↔
      Orderly (applyPreMapping x req c).2.isBackupGroup (relay x retryTimes req c).attempts := by
    rcases relay_cases x retryTimes req c with hnil | ⟨a, c', hattempt, hrest⟩
    · rw [hnil]
      exact pricedFrom_nil
    have hbackup' := (attempt_frame hattempt).tokenBackupGroup.trans hframe.tokenBackupGroup
    rcases hrest with hsingle | ⟨-, e, hcons⟩
    · rw [hsingle]
      exact priced_step (c := setRequest req (applyPreMapping x req c).2) hattempt
        hframe.tokenBackupGroup hbase fun _ => pricedFrom_nil
    rw [hcons]
    exact priced_step (c := setRequest req (applyPreMapping x req c).2) hattempt
      hframe.tokenBackupGroup hbase fun hbase' =>
      retryLoop_priced hbackup' hbase'
  rw [Orderly, hpre] at hall
  simpa only [PricedFrom, Nat.zero_add] using hall

/-- A retry that goes to the backup group: both attempts are priced right. -/
theorem priced_iff_backup : (relay (failsOnce 429 fun _ => none) 3 gpt4 bothGroups).attempts.map
      (fun a => (a.selected.origin, a.quota.isBackupGroup, a.quota.groupRatio)) =
        [(.primary, false, 1 / 2), (.backup, true, 2)] ∧
    ∀ i a, (relay (failsOnce 429 fun _ => none) 3 gpt4 bothGroups).attempts[i]? = some a →
      Priced (1 / 2) ((failsOnce 429 fun _ => none).world i) bothGroups a := by
  refine ⟨by decide +kernel, ?_⟩
  refine (priced_iff (failsOnce 429 fun _ => none) 3 gpt4 (twoGroups fun _ => none).ratio
    (fun _ => .ok false) "" bothGroups bothGroups rfl rfl).mpr ⟨?_, ?_⟩
  · have hattempts : (relay (failsOnce 429 fun _ => none) 3 gpt4 bothGroups).attempts.map
        (·.selected.origin) = [.primary, .backup] := by decide
    have hpairs : [Origin.primary, Origin.backup].Pairwise
        (fun o o' => o = .backup → o' ≠ .primary) := by decide
    rw [← hattempts, pairwise_map] at hpairs
    exact hpairs
  · rintro ⟨modelName, hbody, -⟩
    cases hbody

def cooling : Cooldowns.Store := (Cooldowns.setCooldowns (fun _ => none) 0 1 "gpt-4" 5).2

/-- The backup group fails, and the retry in the token's group is priced as the backup. -/
theorem primary_after_backup :
    setupGroups (twoGroups cooling).ratio (fun _ => .ok false) "" bothGroups = .ok bothGroups ∧
    (relay (failsOnce 500 cooling) 3 gpt4 bothGroups).attempts.map
      (fun a => (a.selected.origin, a.selected.channel.id, a.quota.isBackupGroup,
        a.quota.groupRatio)) = [(.backup, 2, true, 2), (.primary, 1, true, 2)] ∧
    ¬ ∀ i a, (relay (failsOnce 500 cooling) 3 gpt4 bothGroups).attempts[i]? = some a →
      Priced (1 / 2) ((failsOnce 500 cooling).world i) bothGroups a := by
  refine ⟨rfl, by decide, fun h => ?_⟩
  have hsecond : ((relay (failsOnce 500 cooling) 3 gpt4 bothGroups).attempts[1]?).map
      (fun a => (a.selected.origin, a.quota.isBackupGroup)) = some (.primary, true) := by
    decide
  obtain ⟨a, ha, heq⟩ := Option.map_eq_some_iff.mp hsecond
  have hpriced := h 1 a ha
  rw [Prod.mk.injEq] at heq
  rw [Priced, heq.1] at hpriced
  rw [heq.2] at hpriced
  exact absurd hpriced.1 (by decide)

end Tokilake.Relay.Retry
