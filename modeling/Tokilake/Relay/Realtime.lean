import Tokilake.Relay.Quota
import Tokilake.Relay.UsageReport
import Tokilake.Relay.WsProxy

/-! # A realtime session

The transfer that reads the provider's messages hands the usage of every response to `usageHandler`,
which merges it and counts it in Redis; when a transfer ends, a goroutine bills the merged usage and
takes the counted amount back.  No lock orders the two, so `Merge` and `ToChatUsage` go field by
field.  `handed`, `billed`, `increased` and `decreased` are histories.

* `inv_step`: while the usage handler keeps clear of the closing goroutine, the copy that is billed
  is of all events handed over;
* `counted_step`: the increments are the noted amount and those on their way to it;
* `session_settled`: so a session ends with one bill for all events, and as much taken back as
  added;
* `response_after_bill`: a response that is handled while the user hangs up is not billed. -/

namespace Tokilake.Relay.Realtime

open Lib.Run Relay.Pricing Relay.UsageReport List
open Relay.WsProxy hiding Event step start Terminates
open Relay.Quota (Accounts Books Store cacheGetUserQuota)

/-! ### The provider's messages -/

structure ResponseEvent where
  usage : Option UsageEvent := none

structure EventError where
  type : String
  code : String
  message : String
  eventId : String

structure Event where
  eventId : String
  type : String
  response : Option ResponseEvent := none
  errorDetail : Option EventError := none

def newErrorEvent (eventId errType code message : String) : Event where
  eventId
  type := "error"
  errorDetail := some ⟨errType, code, message, eventId⟩

structure Env where
  cfg : Config
  quota : Quota
  decode : List UInt8 → Except String Event
  render : Event → List UInt8

variable (E : Env)

def Env.error (e : Event) : List UInt8 := if e.errorDetail.isNone then [] else E.render e

/-- The provider's handler; a finished response without a response object is a nil dereference. -/
def handleMessage (eventId : String) (source : MessageSource) (frame : Frame) :
    Option (Handled UsageEvent) :=
  if source = .user then some { shouldContinue := true }
  else if frame.messageType ≠ textMessage then some { shouldContinue := true }
  else match E.decode frame.message with
    | .error err =>
      let event := newErrorEvent eventId "json_unmarshal_failed" "invalid_event" err
      some { shouldContinue := true, err := some (E.error event) }
    | .ok event =>
      if event.type = "error" then some { shouldContinue := false, err := some (E.error event) }
      else if event.type = "response.done" then
        event.response.map fun response => { shouldContinue := true, usage := response.usage }
      else some { shouldContinue := true }

/-! ### The price of an event -/

def getExtraTokens (u : UsageEvent) : List (String × ℤ) :=
  [("cached_tokens", u.inputTokenDetails.cachedTokens),
    ("input_audio_tokens", u.inputTokenDetails.audioTokens),
    ("output_audio_tokens", u.outputTokenDetails.audioTokens)].foldl fillEntry u.extraTokens

def getComputeTokensByUsageEvent (fl : Lib.Rounding.Precision) (q : Quota) (usage : UsageEvent) :
    ℤ × ℤ :=
  addExtraTokens fl q (getExtraTokens usage) (usage.inputTokens, usage.outputTokens)

def Env.increaseQuota (usage : UsageEvent) : ℤ :=
  let (promptTokens, completionTokens) := getComputeTokensByUsageEvent E.cfg.float E.quota usage
  E.quota.getTotalQuota E.cfg promptTokens completionTokens none

/-! ### The realtime counter -/

/-- What the script answers, and the counter after it; a counter that has expired is `none`. -/
def updateQuotaScript (counter : Option ℤ) (increment : ℤ) : ℤ × Option ℤ :=
  match counter with
  | none => if increment < 0 then (0, none) else (increment, some increment)
  | some value => (value + increment, some (value + increment))

/-- The amount that the script adds to the counter. -/
def added (counter : Option ℤ) (increment : ℤ) : ℤ :=
  (updateQuotaScript counter increment).2.getD 0 - counter.getD 0

/-! ### The session -/

/-- Where `UpdateUserRealtimeQuota` stands, called from the transfer of the provider's messages. -/
inductive Meter
  | idle
  | merging (usage : UsageEvent) (writes : List (UsageEvent → UsageEvent))
  | increasing (usage : UsageEvent)
  | adding (increaseQuota cacheQuota : ℤ)
  | checking (cacheQuota : ℤ)
  | returning (err : Option String)

/-- Where the closing goroutine stands, and then the one that `Consume` starts. -/
inductive Closer
  | selecting
  | closing
  | consuming
  | copying (copy : Usage) (reads : List (UsageEvent → Usage → Usage))
  | charging (usage : Usage)
  | deferred
  | decreasing
  | settled

structure Session where
  proxy : Proxy UsageEvent
  accounts : Accounts
  counter : Option ℤ := none
  usage : UsageEvent := {}
  cacheQuota : ℤ := 0
  meter : Meter := .idle
  closer : Closer := .selecting
  handed : List UsageEvent := []
  billed : List Usage := []
  increased : ℤ := 0
  decreased : ℤ := 0

/-- How a call of the script ends: with its answer, without having run, or with its answer lost. -/
inductive Outcome
  | answered
  | refused (err : String)
  | lost (err : String)

inductive MeterMove
  | merge
  | increase (outcome : Outcome)
  | add
  | check (store : Store)
  | leave (eventId : String)

inductive CloserMove
  | select
  | close
  | consume
  | copy
  | charge (store : Store)
  | inspect
  | decrease (ran : Bool)

/-- A step of the connections, of one of the two handlers, of the closing goroutine, or outside. -/
inductive Action
  | proxy (e : WsProxy.Event UsageEvent)
  | handle (source : MessageSource) (eventId : String)
  | meter (move : MeterMove)
  | closer (move : CloserMove)
  | others (books : Books) (cachedQuota : Option ℤ)
  | setCounter (counter : Option ℤ)

def start (accounts : Accounts) (counter : Option ℤ) : Session where
  proxy := WsProxy.start 1
  accounts
  counter

/-- The events of the proxy that neither handler nor the closing goroutine makes. -/
def plain : WsProxy.Event UsageEvent → Bool
  | .close | .transfer _ (.handled _) | .transfer _ (.usageHandled _) => false
  | _ => true

variable (s : Session)

def Session.proxyStep (e : WsProxy.Event UsageEvent) : Option Session :=
  (WsProxy.step both s.proxy e).map fun proxy => { s with proxy }

/-- What the provider's handler returns for the frame that the transfer has read. -/
def answer (source : MessageSource) (eventId : String) : Option (Handled UsageEvent) :=
  match s.proxy.phase source with
  | .handling frame => handleMessage E eventId source frame
  | _ => none

/-- The call of `usageHandler`. -/
def Session.handOver : Option UsageEvent → Session
  | none => s
  | some usage => { s with handed := s.handed ++ [usage], meter := .merging usage usage.writes }

/-- The script for an increment, whether or not its answer comes back. -/
def Session.increase (usage : UsageEvent) (meter : Meter) : Session :=
  { s with
    counter := (updateQuotaScript s.counter (E.increaseQuota usage)).2
    increased := s.increased + added s.counter (E.increaseQuota usage)
    meter }

def updateFailed (err : String) : Meter :=
  .returning (some ("error update user realtime quota cache: 更新用户配额失败: " ++ err))

/-- `UpdateUserRealtimeQuota`. -/
def meterStep : MeterMove → Option Session
  | .merge =>
    match s.meter with
    | .merging usage (write :: writes) =>
      some { s with usage := write s.usage, meter := .merging usage writes }
    | .merging usage [] => some { s with
        meter := if s.accounts.redisEnabled then .increasing usage else .returning none }
    | _ => none
  | .increase outcome =>
    match s.meter, outcome with
    | .increasing usage, .answered => some (s.increase E usage (.adding (E.increaseQuota usage)
        (updateQuotaScript s.counter (E.increaseQuota usage)).1))
    | .increasing _, .refused err => some { s with meter := updateFailed err }
    | .increasing usage, .lost err => some (s.increase E usage (updateFailed err))
    | _, _ => none
  | .add =>
    match s.meter with
    | .adding increaseQuota cacheQuota => some { s with
        cacheQuota := s.cacheQuota + increaseQuota
        meter := .checking cacheQuota }
    | _ => none
  | .check store =>
    match s.meter with
    | .checking cacheQuota =>
      let (result, accounts) := cacheGetUserQuota store s.accounts
      some { s with
        accounts
        meter := .returning (match result with
          | .error err => some ("error get user quota cache: " ++ err)
          | .ok userQuota =>
            if userQuota ≤ cacheQuota then some "user quota is not enough" else none) }
    | _ => none
  | .leave eventId =>
    match s.meter with
    | .returning err =>
      let text := err.map fun err =>
        E.error (newErrorEvent eventId "system_error" "system_error" err)
      (s.proxyStep (.transfer .supplier (.usageHandled text))).map fun s =>
        { s with meter := .idle }
    | _ => none

/-- The closing goroutine, with a deferred function that reads the noted amount twice. -/
def closerStep : CloserMove → Option Session
  | .select =>
    match s.closer with
    | .selecting =>
      if (s.proxy.phase .user).closed ∨ (s.proxy.phase .supplier).closed then
        some { s with closer := .closing }
      else none
    | _ => none
  | .close =>
    match s.closer with
    | .closing => some { s with proxy := s.proxy.close, closer := .consuming }
    | _ => none
  | .consume =>
    match s.closer with
    | .consuming => some { s with
        closer := .copying { promptTokens := 0, completionTokens := 0 } UsageEvent.reads }
    | _ => none
  | .copy =>
    match s.closer with
    | .copying copy (read :: reads) => some { s with closer := .copying (read s.usage copy) reads }
    | .copying copy [] => some { s with billed := s.billed ++ [copy], closer := .charging copy }
    | _ => none
  | .charge store =>
    match s.closer with
    | .charging usage => some { s with
        accounts := Quota.consume E.cfg store E.quota s.accounts usage
        closer := .deferred }
    | _ => none
  | .inspect =>
    match s.closer with
    | .deferred => some { s with closer := if 0 < s.cacheQuota then .decreasing else .settled }
    | _ => none
  | .decrease ran =>
    match s.closer with
    | .decreasing =>
      if ran ∧ s.accounts.redisEnabled then some { s with
        counter := (updateQuotaScript s.counter (-s.cacheQuota)).2
        decreased := s.decreased - added s.counter (-s.cacheQuota)
        closer := .settled }
      else some { s with closer := .settled }
    | _ => none

/-- One step of a transfer, of the usage handler, of the closing goroutine or of others. -/
def step : Action → Option Session
  | .proxy e => if plain e then s.proxyStep e else none
  | .handle source eventId => (answer E s source eventId).bind fun result =>
      (s.proxyStep (.transfer source (.handled result))).map fun s => s.handOver result.usage
  | .meter move => meterStep E s move
  | .closer move => closerStep E s move
  | .others books cachedQuota => some { s with accounts := { s.accounts with books, cachedQuota } }
  | .setCounter counter => some { s with counter }

/-! ### What the steps do -/

variable {E} {s t : Session}

/-- The steps of the usage handler, with what they leave open. -/
inductive Metered (E : Env) (s : Session) : MeterMove → Session → Prop
  | write {usage : UsageEvent} {write : UsageEvent → UsageEvent}
      {writes : List (UsageEvent → UsageEvent)} (h : s.meter = .merging usage (write :: writes)) :
      Metered E s .merge { s with usage := write s.usage, meter := .merging usage writes }
  | merged {usage : UsageEvent} {meter : Meter} (h : s.meter = .merging usage [])
      (hmeter : meter = .increasing usage ∨ meter = .returning none) :
      Metered E s .merge { s with meter }
  | increase {usage : UsageEvent} {value : ℤ} (h : s.meter = .increasing usage) :
      Metered E s (.increase .answered) (s.increase E usage (.adding (E.increaseQuota usage) value))
  | refused {usage : UsageEvent} {err : String} (h : s.meter = .increasing usage) :
      Metered E s (.increase (.refused err)) { s with meter := updateFailed err }
  | lost {usage : UsageEvent} {err : String} (h : s.meter = .increasing usage) :
      Metered E s (.increase (.lost err)) (s.increase E usage (updateFailed err))
  | add {amount value : ℤ} (h : s.meter = .adding amount value) :
      Metered E s .add { s with cacheQuota := s.cacheQuota + amount, meter := .checking value }
  | check {value : ℤ} {store : Store} {accounts : Accounts} {err : Option String}
      (h : s.meter = .checking value) :
      Metered E s (.check store) { s with accounts, meter := .returning err }
  | leave {err : Option String} {eventId : String} {proxy : Proxy UsageEvent}
      (h : s.meter = .returning err) : Metered E s (.leave eventId) { s with proxy, meter := .idle }

lemma metered {move : MeterMove} (h : meterStep E s move = some t) : Metered E s move t := by
  cases move <;> simp only [meterStep] at h <;> split at h <;> try cases h
  · exact .write ‹_›
  · next hm =>
    refine .merged hm ?_
    split_ifs
    · exact Or.inl rfl
    · exact Or.inr rfl
  · exact .increase ‹_›
  · exact .refused ‹_›
  · exact .lost ‹_›
  · exact .add ‹_›
  · exact .check ‹_›
  · next hm =>
    simp only [Session.proxyStep, Option.map_map, Option.map_eq_some_iff] at h
    obtain ⟨proxy, -, rfl⟩ := h
    exact .leave hm

/-- The steps of the closing goroutine. -/
inductive Closed (s : Session) : CloserMove → Session → Prop
  | select (h : s.closer = .selecting) : Closed s .select { s with closer := .closing }
  | close (h : s.closer = .closing) :
      Closed s .close { s with proxy := s.proxy.close, closer := .consuming }
  | consume (h : s.closer = .consuming) : Closed s .consume { s with
        closer := .copying { promptTokens := 0, completionTokens := 0 } UsageEvent.reads }
  | read {copy : Usage} {read : UsageEvent → Usage → Usage}
      {reads : List (UsageEvent → Usage → Usage)} (h : s.closer = .copying copy (read :: reads)) :
      Closed s .copy { s with closer := .copying (read s.usage copy) reads }
  | bill {copy : Usage} (h : s.closer = .copying copy []) :
      Closed s .copy { s with billed := s.billed ++ [copy], closer := .charging copy }
  | charge {usage : Usage} {store : Store} {accounts : Accounts} (h : s.closer = .charging usage) :
      Closed s (.charge store) { s with accounts, closer := .deferred }
  | keep (h : s.closer = .deferred) (hpos : 0 < s.cacheQuota) :
      Closed s .inspect { s with closer := .decreasing }
  | skip (h : s.closer = .deferred) (hpos : ¬ 0 < s.cacheQuota) :
      Closed s .inspect { s with closer := .settled }
  | decrease {ran : Bool} {counter : Option ℤ} (h : s.closer = .decreasing)
      (hran : ran ∧ s.accounts.redisEnabled) : Closed s (.decrease ran) { s with
        counter
        decreased := s.decreased - added s.counter (-s.cacheQuota)
        closer := .settled }
  | failed {ran : Bool} (h : s.closer = .decreasing) (hran : ¬ (ran ∧ s.accounts.redisEnabled)) :
      Closed s (.decrease ran) { s with closer := .settled }

lemma closed {move : CloserMove} (h : closerStep E s move = some t) : Closed s move t := by
  cases move <;> simp only [closerStep] at h <;> split at h <;> try cases h
  · next hc =>
    split_ifs at h
    cases h
    exact .select hc
  · exact .close ‹_›
  · exact .consume ‹_›
  · exact .read ‹_›
  · exact .bill ‹_›
  · exact .charge ‹_›
  · next hc =>
    split_ifs with hpos
    · exact .keep hc hpos
    · exact .skip hc hpos
  · next hc =>
    split_ifs at h with hran
    · cases h
      exact .decrease hc hran
    · cases h
      exact .failed hc hran

variable {source : MessageSource} {eventId : String}

lemma handle_eq_some (h : step E s (.handle source eventId) = some t) : ∃ result proxy,
      answer E s source eventId = some result ∧
      WsProxy.step both s.proxy (.transfer source (.handled result)) = some proxy ∧
      t = { s with proxy }.handOver result.usage := by
  simp only [step, Session.proxyStep, Option.bind_eq_some_iff, Option.map_map,
    Option.map_eq_some_iff] at h
  obtain ⟨result, hresult, proxy, hproxy, rfl⟩ := h
  exact ⟨result, proxy, hresult, hproxy, rfl⟩

lemma proxy_eq_some {e : WsProxy.Event UsageEvent} (h : step E s (.proxy e) = some t) :
    plain e = true ∧ ∃ proxy, WsProxy.step both s.proxy e = some proxy ∧ t = { s with proxy } := by
  simp only [step] at h
  split_ifs at h with hplain
  simp only [Session.proxyStep, Option.map_eq_some_iff] at h
  obtain ⟨proxy, hproxy, rfl⟩ := h
  exact ⟨hplain, proxy, hproxy, rfl⟩

lemma handleMessage_usage {frame : Frame} {result : Handled UsageEvent} {usage : UsageEvent}
    (h : handleMessage E eventId source frame = some result) (husage : result.usage = some usage) :
    source = .supplier ∧ result.err = none ∧ result.shouldContinue = true := by
  cases source with
  | user =>
    cases h
    cases husage
  | supplier =>
    simp only [handleMessage, reduceCtorEq, if_false] at h
    split_ifs at h with htype
    · cases h
      cases husage
    split at h
    · cases h
      cases husage
    split_ifs at h with herror hdone
    · cases h
      cases husage
    · obtain ⟨response, -, rfl⟩ := Option.map_eq_some_iff.mp h
      exact ⟨rfl, rfl, rfl⟩
    · cases h
      cases husage

lemma metering_of_usage {result : Handled UsageEvent} {usage : UsageEvent}
    {proxy : Proxy UsageEvent} (hanswer : answer E s source eventId = some result)
    (husage : result.usage = some usage)
    (hproxy : WsProxy.step both s.proxy (.transfer source (.handled result)) = some proxy) :
    source = .supplier ∧ ∃ frame, proxy.phase .supplier = .metering usage frame := by
  unfold answer at hanswer
  split at hanswer
  · rename_i frame hphase
    obtain ⟨hsource, herr, hcontinue⟩ := handleMessage_usage hanswer husage
    subst hsource
    obtain ⟨src, dst, phase, ht, rfl⟩ := step_transfer.mp hproxy
    rw [hphase] at ht
    obtain ⟨-, -, rfl⟩ := ht
    refine ⟨rfl, { frame with message := result.newMessage.getD frame.message }, ?_⟩
    simp [handle, herr, hcontinue, husage, both]
  · cases hanswer

/-! ### The bill -/

/-- The usage once the writes of a `Merge` that is going on have been made. -/
def Meter.finish (usage : UsageEvent) : Meter → UsageEvent
  | .merging _ writes => writes.foldl (fun u write => write u) usage
  | _ => usage

/-- `ToChatUsage` has begun. -/
def Closer.hasBegun : Closer → Bool
  | .selecting | .closing | .consuming => false
  | _ => true

def Closer.hasBilled : Closer → Bool
  | .charging _ | .deferred | .decreasing | .settled => true
  | _ => false

def Closer.hasSettled : Closer → Bool
  | .settled => true
  | _ => false

/-- The usage handler runs when `ToChatUsage` begins, or is called after that. -/
def Late (E : Env) (s : Session) : Action → Prop
  | .handle source eventId =>
    s.closer.hasBegun = true ∧ ((answer E s source eventId).bind (·.usage)).isSome = true
  | .closer .consume => s.meter ≠ .idle
  | _ => False

/-- The usage handler rests from the copy on, and the copy is of the events handed over. -/
structure Inv (s : Session) : Prop where
  metering : s.meter ≠ .idle → ∃ usage frame, s.proxy.phase .supplier = .metering usage frame
  usage : s.meter.finish s.usage = mergeAll s.handed
  idle : s.closer.hasBegun = true → s.meter = .idle
  copying : ∀ copy reads, s.closer = .copying copy reads →
    reads.foldl (fun copy read => read s.usage copy) copy = s.usage.toChatUsage
  unbilled : s.closer.hasBilled = false → s.billed = []
  billed : s.closer.hasBilled = true → s.billed = [s.usage.toChatUsage]

lemma hasBegun_of_hasBilled {c : Closer} (h : c.hasBilled = true) : c.hasBegun = true := by
  cases c <;> first | rfl | cases h

lemma hasBilled_of_hasSettled {c : Closer} (h : c.hasSettled = true) : c.hasBilled = true := by
  cases c <;> first | rfl | cases h

lemma mergeAll_concat (events : List UsageEvent) (usage : UsageEvent) :
    mergeAll (events ++ [usage]) = (mergeAll events).merge usage := by
  simp [mergeAll]

lemma inv_start (accounts : Accounts) (counter : Option ℤ) : Inv (start accounts counter) where
  metering h := absurd rfl h
  usage := rfl
  idle h := by cases h
  copying _ _ h := by cases h
  unbilled _ := rfl
  billed h := by cases h

lemma metering_of_step (hinv : Inv s) {e : WsProxy.Event UsageEvent} {proxy : Proxy UsageEvent}
    (he : ∀ err, e ≠ .transfer .supplier (.usageHandled err))
    (h : WsProxy.step both s.proxy e = some proxy) (hmeter : s.meter ≠ .idle) :
    ∃ usage frame, proxy.phase .supplier = .metering usage frame := by
  obtain ⟨usage, frame, hphase⟩ := hinv.metering hmeter
  exact ⟨usage, frame, metering_step hphase he h⟩

lemma idle_of_answer (hinv : Inv s) {result : Handled UsageEvent}
    (h : answer E s .supplier eventId = some result) : s.meter = .idle := by
  by_contra hmeter
  obtain ⟨usage, frame, hphase⟩ := hinv.metering hmeter
  simp [answer, hphase] at h

lemma inv_handle (hinv : Inv s) (hlate : ¬ Late E s (.handle source eventId))
    (h : step E s (.handle source eventId) = some t) : Inv t := by
  obtain ⟨result, proxy, hanswer, hproxy, rfl⟩ := handle_eq_some h
  cases husage : result.usage with
  | none => exact { hinv with metering := metering_of_step hinv (by simp) hproxy }
  | some usage =>
    obtain ⟨rfl, frame, hphase⟩ := metering_of_usage hanswer husage hproxy
    have hsum := hinv.usage
    rw [idle_of_answer hinv hanswer] at hsum
    refine { hinv with
      metering := fun _ => ⟨usage, frame, hphase⟩
      usage := ?_
      idle := fun hbegun => absurd ⟨hbegun, by simp [hanswer, husage]⟩ hlate }
    show usage.writes.foldl (fun u write => write u) s.usage = mergeAll (s.handed ++ [usage])
    rw [foldl_writes, mergeAll_concat, ← hsum]
    rfl

/-- What the usage handler leaves alone.  A write brings the usage nearer to where it is going. -/
structure MeterFrame (s t : Session) : Prop where
  closer : t.closer = s.closer
  handed : t.handed = s.handed
  billed : t.billed = s.billed
  running : s.meter ≠ .idle
  proxy : t.meter ≠ .idle → t.proxy = s.proxy
  usage : t.meter.finish t.usage = s.meter.finish s.usage

lemma meterFrame {move : MeterMove} (h : Metered E s move t) : MeterFrame s t := by
  cases h with
  | merged hmeter hnext =>
    refine ⟨rfl, rfl, rfl, by simp [hmeter], fun _ => rfl, ?_⟩
    rcases hnext with rfl | rfl <;> simp [hmeter, Meter.finish]
  | leave hmeter =>
    exact ⟨rfl, rfl, rfl, by simp [hmeter], fun hidle => absurd rfl hidle,
      by simp [hmeter, Meter.finish]⟩
  | write hmeter | increase hmeter | refused hmeter | lost hmeter | add hmeter | check hmeter =>
    exact ⟨rfl, rfl, rfl, by simp [hmeter], fun _ => rfl,
      by simp [hmeter, Meter.finish, Session.increase, updateFailed]⟩

lemma inv_meter (hinv : Inv s) {move : MeterMove}
    (h : step E s (.meter move) = some t) : Inv t := by
  have hf := meterFrame (metered h)
  have hbegun : s.closer.hasBegun = false := by
    by_contra hbegun
    exact hf.running (hinv.idle (Bool.not_eq_false _ ▸ hbegun))
  refine ⟨fun hne => ?_, ?_, ?_, ?_, ?_, ?_⟩
  · rw [hf.proxy hne]
    exact hinv.metering hf.running
  · rw [hf.usage, hf.handed, hinv.usage]
  all_goals rw [hf.closer]
  · intro h
    rw [hbegun] at h
    cases h
  · intro copy reads hcopying
    rw [hcopying] at hbegun
    cases hbegun
  · rw [hf.billed]
    exact hinv.unbilled
  · intro hbilled
    rw [hasBegun_of_hasBilled hbilled] at hbegun
    cases hbegun

structure CloserFrame (s t : Session) : Prop where
  meter : t.meter = s.meter
  phase : t.proxy.phase = s.proxy.phase
  handed : t.handed = s.handed
  usage : t.usage = s.usage

lemma closerFrame {move : CloserMove} (h : Closed s move t) : CloserFrame s t := by
  cases h <;> exact ⟨rfl, rfl, rfl, rfl⟩

lemma inv_closer (hinv : Inv s) {move : CloserMove} (hlate : ¬ Late E s (.closer move))
    (h : step E s (.closer move) = some t) : Inv t := by
  have hclosed := closed h
  have hf := closerFrame hclosed
  have hmetering : t.meter ≠ .idle →
      ∃ usage frame, t.proxy.phase .supplier = .metering usage frame := by
    rw [hf.meter, hf.phase]
    exact hinv.metering
  have husage : t.meter.finish t.usage = mergeAll t.handed := by
    rw [hf.meter, hf.usage, hf.handed]
    exact hinv.usage
  cases hclosed with
  | select hc | close hc =>
    exact ⟨hmetering, husage, by simp [Closer.hasBegun], by simp,
      fun _ => hinv.unbilled (by rw [hc]; rfl), by simp [Closer.hasBilled]⟩
  | consume hc =>
    refine ⟨hmetering, husage, fun _ => not_not.mp hlate, ?_,
      fun _ => hinv.unbilled (by rw [hc]; rfl), by simp [Closer.hasBilled]⟩
    rintro copy reads ⟨⟩
    exact foldl_reads s.usage
  | read hc =>
    refine ⟨hmetering, husage, fun _ => hinv.idle (by rw [hc]; rfl), ?_,
      fun _ => hinv.unbilled (by rw [hc]; rfl), by simp [Closer.hasBilled]⟩
    rintro copy reads ⟨⟩
    rw [← hinv.copying _ _ hc]
    rfl
  | bill hc =>
    refine ⟨hmetering, husage, fun _ => hinv.idle (by rw [hc]; rfl), by simp,
      by simp [Closer.hasBilled], fun _ => ?_⟩
    rw [hinv.unbilled (by rw [hc]; rfl), ← hinv.copying _ _ hc]
    rfl
  | charge hc | keep hc | skip hc | decrease hc | failed hc =>
    exact ⟨hmetering, husage, fun _ => hinv.idle (by rw [hc]; rfl), by simp,
      by simp [Closer.hasBilled], fun _ => hinv.billed (by rw [hc]; rfl)⟩

lemma inv_step {a : Action} (hinv : Inv s) (hlate : ¬ Late E s a) (h : step E s a = some t) :
    Inv t := by
  cases a with
  | proxy e =>
    obtain ⟨hplain, proxy, hproxy, rfl⟩ := proxy_eq_some h
    have he : ∀ err, e ≠ .transfer .supplier (.usageHandled err) := by
      rintro err rfl
      cases hplain
    exact { hinv with metering := metering_of_step hinv he hproxy }
  | handle source eventId => exact inv_handle hinv hlate h
  | meter move => exact inv_meter hinv h
  | closer move => exact inv_closer hinv hlate h
  | others books cachedQuota | setCounter counter =>
    cases h
    exact { hinv with }

/-! ### The counter -/

/-- Redis loses the answer to an increment, or the decrement is not made or finds no counter. -/
def Lapse (s : Session) : Action → Prop
  | .meter (.increase (.lost _)) => True
  | .closer (.decrease ran) => ¬ (ran ∧ s.accounts.redisEnabled) ∨ s.counter = none
  | _ => False

/-- The amount that Redis has been given and `cacheQuota` does not have yet. -/
@[simp] def Meter.inFlight : Meter → ℤ
  | .adding increaseQuota _ => increaseQuota
  | _ => 0

/-- The increments are the noted amount and the one on its way to it, until they are taken back. -/
structure Counted (s : Session) : Prop where
  balance : s.increased - s.decreased =
    if s.closer.hasSettled then 0 else s.cacheQuota + s.meter.inFlight
  noted : 0 ≤ s.cacheQuota
  inFlight : 0 ≤ s.meter.inFlight

lemma increaseQuota_nonneg (hrate : E.quota.inputRatio E.cfg.float ≠ 0) (usage : UsageEvent) :
    0 ≤ E.increaseQuota usage := by
  unfold Env.increaseQuota
  obtain ⟨p, c⟩ := getComputeTokensByUsageEvent E.cfg.float E.quota usage
  show 0 ≤ E.quota.getTotalQuota E.cfg p c none
  by_cases h : p + c = 0
  · exact (getTotalQuota_of_no_tokens h none).ge
  · rw [getTotalQuota_of_rate h hrate]
    exact le_trans zero_le_one (le_max_left _ _)

lemma added_of_nonneg (counter : Option ℤ) {increment : ℤ} (h : 0 ≤ increment) :
    added counter increment = increment := by
  cases counter with
  | none => simp [added, updateQuotaScript, not_lt.mpr h]
  | some value => simp [added, updateQuotaScript]

lemma counted_meter (hrate : E.quota.inputRatio E.cfg.float ≠ 0) (hinv : Inv s) (hs : Counted s)
    {move : MeterMove} (hlapse : ¬ Lapse s (.meter move)) (h : Metered E s move t) : Counted t := by
  have hf := meterFrame h
  have hopen : s.closer.hasSettled = false := by
    by_contra hsettled
    rw [Bool.not_eq_false] at hsettled
    exact hf.running (hinv.idle (hasBegun_of_hasBilled (hasBilled_of_hasSettled hsettled)))
  obtain ⟨hbalance, hnoted, hinFlight⟩ := hs
  rw [hopen, if_neg Bool.false_ne_true] at hbalance
  cases h with
  | @increase usage value hmeter =>
    have hnonneg := increaseQuota_nonneg hrate usage
    rw [hmeter] at hbalance
    refine ⟨?_, hnoted, hnonneg⟩
    simp only [Session.increase, hopen, added_of_nonneg s.counter hnonneg, Meter.inFlight,
      Bool.false_eq_true, if_false] at hbalance ⊢
    omega
  | lost hmeter => exact absurd trivial hlapse
  | @add amount value hmeter =>
    rw [hmeter] at hbalance hinFlight
    refine ⟨?_, add_nonneg hnoted hinFlight, le_refl 0⟩
    simpa [hopen] using hbalance
  | merged hmeter hnext =>
    rw [hmeter] at hbalance
    rcases hnext with rfl | rfl <;> exact ⟨by simpa [hopen] using hbalance, hnoted, le_refl 0⟩
  | write hmeter | refused hmeter | check hmeter | leave hmeter =>
    rw [hmeter] at hbalance
    exact ⟨by simpa [hopen, updateFailed] using hbalance, hnoted, le_refl 0⟩

lemma counted_closer (hinv : Inv s) (hs : Counted s) {move : CloserMove}
    (hlapse : ¬ Lapse s (.closer move)) (h : Closed s move t) : Counted t := by
  obtain ⟨hbalance, hnoted, hinFlight⟩ := hs
  cases h with
  | skip hc hpos =>
    rw [hc, hinv.idle (by rw [hc]; rfl)] at hbalance
    refine ⟨?_, hnoted, hinFlight⟩
    have hzero : s.cacheQuota = 0 := le_antisymm (not_lt.mp hpos) hnoted
    simpa [Closer.hasSettled, hzero] using hbalance
  | decrease hc hran =>
    rw [hc, hinv.idle (by rw [hc]; rfl)] at hbalance
    refine ⟨?_, hnoted, hinFlight⟩
    obtain ⟨value, hvalue⟩ := Option.ne_none_iff_exists'.mp fun h => hlapse (Or.inr h)
    simp only [Closer.hasSettled, Meter.inFlight, hvalue, added, updateQuotaScript,
      Option.getD_some, Bool.false_eq_true, if_false, if_true] at hbalance ⊢
    omega
  | failed hc hran => exact absurd (Or.inl hran) hlapse
  | select hc | close hc | consume hc | read hc | bill hc | charge hc | keep hc =>
    rw [hc] at hbalance
    exact ⟨hbalance, hnoted, hinFlight⟩

lemma counted_step (hrate : E.quota.inputRatio E.cfg.float ≠ 0) {a : Action} (hinv : Inv s)
    (hs : Counted s) (hlapse : ¬ Lapse s a) (h : step E s a = some t) : Counted t := by
  cases a with
  | proxy e =>
    obtain ⟨-, proxy, -, rfl⟩ := proxy_eq_some h
    exact { hs with }
  | handle source eventId =>
    obtain ⟨result, proxy, hanswer, hproxy, rfl⟩ := handle_eq_some h
    cases husage : result.usage with
    | none => exact { hs with }
    | some usage =>
      obtain ⟨rfl, -⟩ := metering_of_usage hanswer husage hproxy
      have hbalance := hs.balance
      rw [idle_of_answer hinv hanswer] at hbalance
      exact ⟨hbalance, hs.noted, le_refl 0⟩
  | meter move => exact counted_meter hrate hinv hs hlapse (metered h)
  | closer move => exact counted_closer hinv hs hlapse (closed h)
  | others books cachedQuota | setCounter counter =>
    cases h
    exact { hs with }

/-! ### The end of a session -/

/-- The consumption is done, and both transfers have ended. -/
structure Over (s : Session) : Prop where
  settled : s.closer.hasSettled = true
  loops : ∀ source, (s.proxy.phase source).closed = true

def Session.isOver (s : Session) : Bool :=
  s.closer.hasSettled && (s.proxy.phase .user).closed && (s.proxy.phase .supplier).closed

lemma isOver_iff : s.isOver = true ↔ Over s := by
  simp only [Session.isOver, Bool.and_eq_true]
  constructor
  · rintro ⟨⟨hsettled, huser⟩, hsupplier⟩
    exact ⟨hsettled, (forall_source .user).mpr ⟨huser, hsupplier⟩⟩
  · rintro ⟨hsettled, hloops⟩
    exact ⟨⟨hsettled, hloops .user⟩, hloops .supplier⟩

/-- **A session that ends in order**: if the usage handler rests from the begin of `ToChatUsage` on,
one bill is for all events; and if there is an input rate and Redis does not lapse, what was added
to the counter is taken back. -/
theorem session_settled {accounts : Accounts} {counter : Option ℤ} {as : List Action}
    (hrun : run (step E) (start accounts counter) as = some t) (hover : Over t)
    (hlate : Along (step E) (fun s a => ¬ Late E s a) (start accounts counter) as) :
    t.billed = [(mergeAll t.handed).toChatUsage] ∧
    (E.quota.inputRatio E.cfg.float ≠ 0 →
      Along (step E) (fun s a => ¬ Lapse s a) (start accounts counter) as →
      t.increased = t.decreased) := by
  have hstart := inv_start accounts counter
  refine ⟨?_, fun hrate hlapse => ?_⟩
  · have hinv : Inv t := run_invariant inv_step hstart hlate hrun
    have husage := hinv.usage
    have hbilled := hasBilled_of_hasSettled hover.settled
    rw [hinv.idle (hasBegun_of_hasBilled hbilled)] at husage
    rw [hinv.billed hbilled, ← husage]
    rfl
  · have hboth : Inv t ∧ Counted t := by
      refine run_invariant (I := fun s => Inv s ∧ Counted s) ?_ ⟨hstart, rfl, le_refl 0, le_refl 0⟩
        (along_and hlate hlapse) hrun
      rintro s a u ⟨hinv, hs⟩ ⟨hnotLate, hnotLapse⟩ hstep
      exact ⟨inv_step hinv hnotLate hstep, counted_step hrate hinv hs hnotLapse hstep⟩
    have hbalance := hboth.2.balance
    rw [hover.settled, if_pos rfl] at hbalance
    exact sub_eq_zero.mp hbalance

instance decidableLate (E : Env) (s : Session) : (a : Action) → Decidable (Late E s a)
  | .proxy _ | .meter _ | .others _ _ | .setCounter _ => isFalse id
  | .handle source eventId => inferInstanceAs (Decidable
      (s.closer.hasBegun = true ∧ ((answer E s source eventId).bind (·.usage)).isSome = true))
  | .closer .consume =>
    match hm : s.meter with
    | .idle => isFalse fun h => h hm
    | .merging _ _ | .increasing _ | .adding _ _ | .checking _ | .returning _ =>
      isTrue fun h => by cases hm.symm.trans h
  | .closer .select | .closer .close | .closer .copy | .closer (.charge _) | .closer .inspect
  | .closer (.decrease _) => isFalse id

instance decidableLapse (s : Session) : (a : Action) → Decidable (Lapse s a)
  | .proxy _ | .handle _ _ | .others _ _ | .setCounter _ => isFalse id
  | .meter (.increase (.lost _)) => isTrue trivial
  | .meter .merge | .meter (.increase .answered) | .meter (.increase (.refused _)) | .meter .add
  | .meter (.check _) | .meter (.leave _) => isFalse id
  | .closer (.decrease ran) => inferInstanceAs (Decidable
      (¬ (ran ∧ s.accounts.redisEnabled) ∨ s.counter = none))
  | .closer .select | .closer .close | .closer .consume | .closer .copy | .closer (.charge _)
  | .closer .inspect => isFalse id

def sample : Env where
  cfg := {}
  quota := Quota.newQuota "gpt-realtime" ⟨.tokens, 1, 1, none⟩ 1 0 false
  decode _ := .ok {
    eventId := "event_1"
    type := "response.done"
    response := some ⟨some { inputTokens := 10, outputTokens := 20, totalTokens := 30 }⟩ }
  render _ := []

def opened : Session := start ⟨⟨1000, ⟨1000, 0, false⟩⟩, true, none⟩ none

def delivery : List Action :=
  [.proxy (.receive .supplier ⟨textMessage, []⟩), .proxy (.transfer .supplier .read)]

def metering : List Action :=
  [.handle .supplier "event_2"] ++ List.replicate 9 (.meter .merge) ++
    [.meter (.increase .answered), .meter .add, .meter (.check Store.ok), .meter (.leave "event_3")]

def hangUp : List Action :=
  [.proxy (.drop .user), .proxy (.transfer .user .readError), .proxy (.transfer .user .closeClosed),
    .closer .select, .closer .close, .closer .consume] ++ List.replicate 13 (.closer .copy) ++
    [.closer (.charge Store.ok), .closer .inspect]

def ending : List Action :=
  [.proxy (.transfer .supplier (.write false)), .proxy (.transfer .supplier .closeClosed)]

/-- The user hangs up when a response has been handled: 30 are added, billed and taken back. -/
theorem settled_in_order : ∃ t, run (step sample) opened
      (delivery ++ metering ++ hangUp ++ [.closer (.decrease true)] ++ ending) = some t ∧
    t.handed.length = 1 ∧ t.increased = 30 ∧ t.billed = [(mergeAll t.handed).toChatUsage] ∧
      t.increased = t.decreased := by
  have hend : (run (step sample) opened
      (delivery ++ metering ++ hangUp ++ [.closer (.decrease true)] ++ ending)).map (fun t =>
        (t.handed.length, t.increased, t.isOver)) = some (1, 30, true) := by
    decide +kernel
  obtain ⟨t, hrun, hend⟩ := Option.map_eq_some_iff.mp hend
  simp only [Prod.mk.injEq] at hend
  obtain ⟨hlength, hincreased, hover⟩ := hend
  obtain ⟨hbilled, hcounter⟩ := session_settled hrun (isOver_iff.mp hover) (by decide +kernel)
  exact ⟨t, hrun, hlength, hincreased, hbilled,
    hcounter (by decide +kernel) (by decide +kernel)⟩

/-- The user hangs up while a response is being handled: it is not billed. -/
theorem response_after_bill : ∃ t,
    run (step sample) opened (delivery ++ hangUp ++ metering ++ ending) = some t ∧ Over t ∧
    t.handed.map (·.totalTokens) = [30] ∧ t.billed.map (·.completionTokens) = [0] ∧
    t.increased = 30 ∧ t.decreased = 0 := by
  have hend : (run (step sample) opened (delivery ++ hangUp ++ metering ++ ending)).map (fun t =>
      (t.handed.map (·.totalTokens), t.billed.map (·.completionTokens), t.increased, t.decreased,
        t.isOver)) = some ([30], [0], 30, 0, true) := by
    decide +kernel
  obtain ⟨t, hrun, hend⟩ := Option.map_eq_some_iff.mp hend
  simp only [Prod.mk.injEq] at hend
  obtain ⟨hhanded, hbilled, hincreased, hdecreased, hover⟩ := hend
  exact ⟨t, hrun, isOver_iff.mp hover, hhanded, hbilled, hincreased, hdecreased⟩

end Tokilake.Relay.Realtime
