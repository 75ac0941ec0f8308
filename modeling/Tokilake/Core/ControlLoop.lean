import Tokilake.Hub.Frames
import Tokilake.Lib.Run

/-! # The control loop of a gateway session

`serveControlStream` reads the messages of a worker and answers them.  A `Turn` is what comes from
outside: the message, what the authenticator and the registry would answer, and whether the reply
can be written.

* `follows_serve`: the calls of a stream keep to the order that `Seen` accepts;
* `gives_serve`: each call is for the payload of its message, with the answer of its turn;
* `disciplined`: so a worker is registered once, after authentication, and every message is
  answered;
* `hubRegistered_binds`, `hubBinding_kept`: the hub's registry binds a worker once. -/

namespace Tokilake.Core.ControlLoop

open Lib.Run List

/-! ### Messages and sessions -/

inductive MessageType
  | auth
  | register
  | heartbeat
  | modelsSync
  | ack
  | error
  | other (name : String)
  deriving DecidableEq

structure ControlMessage (R H M : Type) where
  type : MessageType
  requestId : String
  auth : Option String := none
  register : Option R := none
  heartbeat : Option H := none
  modelsSync : Option M := none

structure AckMessage where
  message : String
  ns : String := ""
  workerId : ℕ := 0
  channelId : ℕ := 0
  deriving DecidableEq

structure ErrorMessage where
  code : String
  message : String
  deriving DecidableEq

inductive Reply
  | ack (message : AckMessage)
  | error (message : ErrorMessage)
  deriving DecidableEq

structure Binding where
  ns : String := ""
  workerId : ℕ := 0
  channelId : ℕ := 0
  deriving DecidableEq

structure Session where
  authenticated : Bool
  tokenKey : String
  userId : Option ℤ
  binding : Binding := {}
  deriving DecidableEq

def newGatewaySession (userId : Option ℤ) (tokenKey : String) : Session :=
  { authenticated := userId.isSome, tokenKey, userId }

/-- One message, and the answers of the authenticator, the registry and the stream. -/
structure Turn (R H M : Type) where
  msg : ControlMessage R H M
  authenticated : Except String (String × Option ℤ)
  registered : Except String Binding × Binding
  beat : Except String Unit
  synced : Except String Unit
  writeErr : Option String := none

inductive Event (R H M : Type)
  | authenticate (token : String) (ok : Bool)
  | registerWorker (register : R) (ok : Bool)
  | updateHeartbeat (heartbeat : H) (ok : Bool)
  | syncModels (modelsSync : M) (ok : Bool)
  | reply (requestId : String) (body : Reply)

/-- The session after a message, what happened, and the error the loop returns with, if it ends. -/
structure Outcome (R H M : Type) where
  session : Session
  events : List (Event R H M)
  returned : Option String

/-! ### The loop -/

section
variable {R H M : Type}

def Turn.refuse (turn : Turn R H M) (session : Session) (calls : List (Event R H M))
    (code message returned : String) : Outcome R H M :=
  ⟨session, calls ++ [.reply turn.msg.requestId (.error ⟨code, message⟩)],
    some (turn.writeErr.getD returned)⟩

def Turn.confirm (turn : Turn R H M) (session : Session) (calls : List (Event R H M))
    (ack : AckMessage) : Outcome R H M :=
  ⟨session, calls ++ [.reply turn.msg.requestId (.ack ack)], turn.writeErr⟩

variable (session : Session)

def handleAuth (turn : Turn R H M) : Outcome R H M :=
  if session.authenticated then
    turn.refuse session [] "auth_already_completed" "auth message already handled"
      "duplicate auth message"
  else match turn.msg.auth with
  | none =>
    turn.refuse session [] "auth_payload_missing" "auth payload is required"
      "auth payload is required"
  | some token =>
    match turn.authenticated with
    | .error err => turn.refuse session [.authenticate token false] "auth_failed" err err
    | .ok (tokenKey, userId) =>
      turn.confirm { session with userId, tokenKey, authenticated := true }
        [.authenticate token true]
        { message := "auth_ok" }

def handleRegister (turn : Turn R H M) : Outcome R H M :=
  if ¬ session.authenticated then
    turn.refuse session [] "not_authenticated" "authentication is required"
      "register received before auth"
  else if session.binding.workerId ≠ 0 then
    turn.refuse session [] "register_already_completed" "register message already handled"
      "duplicate register message"
  else match turn.msg.register with
  | none =>
    turn.refuse session [] "register_payload_missing" "register payload is required"
      "register payload is required"
  | some register =>
    match turn.registered with
    | (.error err, binding) =>
      turn.refuse { session with binding }
        [.registerWorker register false] "register_failed" err err
    | (.ok result, binding) =>
      turn.confirm { session with binding } [.registerWorker register true]
        ⟨"register_ok", result.ns, result.workerId, result.channelId⟩

def handleWorker {P : Type} (session : Session) (turn : Turn R H M) (name missing : String)
    (payload : Option P) (call : P → Bool → Event R H M) (answer : Except String Unit) :
    Outcome R H M :=
  if ¬ session.authenticated then
    turn.refuse session [] "not_authenticated" "authentication is required"
      (name ++ " received before auth")
  else if session.binding.workerId = 0 then
    turn.refuse session [] "not_registered" ("register is required before " ++ name)
      (name ++ " received before register")
  else match payload with
  | none =>
    turn.refuse session [] missing (name ++ " payload is required") (name ++ " payload is required")
  | some payload =>
    match answer with
    | .error err => turn.refuse session [call payload false] (name ++ "_failed") err err
    | .ok () =>
      turn.confirm session [call payload true]
        ⟨name ++ "_ok", session.binding.ns, session.binding.workerId, session.binding.channelId⟩

def handleHeartbeat (turn : Turn R H M) : Outcome R H M :=
  handleWorker session turn "heartbeat" "heartbeat_payload_missing" turn.msg.heartbeat
    .updateHeartbeat turn.beat

def handleModelsSync (turn : Turn R H M) : Outcome R H M :=
  handleWorker session turn "models_sync" "models_payload_missing" turn.msg.modelsSync
    .syncModels turn.synced

def handleOther (turn : Turn R H M) (name : String) : Outcome R H M :=
  if ¬ session.authenticated then
    turn.refuse session [] "not_authenticated" "authentication is required"
      ("unsupported unauthenticated control message type: " ++ name)
  else
    turn.refuse session [] "unsupported_message_type" ("unsupported message type: " ++ name)
      ("unsupported control message type: " ++ name)

def handle (turn : Turn R H M) : Outcome R H M :=
  match turn.msg.type with
  | .auth => handleAuth session turn
  | .register => handleRegister session turn
  | .heartbeat => handleHeartbeat session turn
  | .modelsSync => handleModelsSync session turn
  | .ack | .error => ⟨session, [], none⟩
  | .other name => handleOther session turn name

structure Handled (R H M : Type) where
  msg : ControlMessage R H M
  events : List (Event R H M)

def serveControlStream : Session → List (Turn R H M) → List (Handled R H M)
  | _, [] => []
  | session, turn :: turns =>
    let out := handle session turn
    ⟨turn.msg, out.events⟩ :: if out.returned = none then serveControlStream out.session turns
      else []

def events (handled : List (Handled R H M)) : List (Event R H M) := handled.flatMap Handled.events

/-! ### The order of the events -/

structure Seen where
  authenticated : Bool
  registered : Bool
  failed : Bool

/-- A worker is registered once, after authentication; heartbeats and model lists come after that.
-/
def Seen.next (seen : Seen) : Event R H M → Option Seen
  | .authenticate _ ok => some { seen with authenticated := seen.authenticated || ok }
  | .registerWorker _ ok =>
    if seen.authenticated ∧ ¬ seen.registered ∧ ¬ seen.failed then
      some { seen with registered := ok, failed := !ok }
    else none
  | .updateHeartbeat _ _ | .syncModels _ _ =>
    if seen.registered ∧ ¬ seen.failed then some seen else none
  | .reply _ _ => some seen

@[simp] def Session.seen : Seen := ⟨session.authenticated, session.binding.workerId ≠ 0, false⟩

def Event.isCall : Event R H M → Bool
  | .registerWorker _ _ | .updateHeartbeat _ _ | .syncModels _ _ => true
  | _ => false

def Event.isWorker : Event R H M → Bool
  | .updateHeartbeat _ _ | .syncModels _ _ => true
  | _ => false

def Event.registers : Event R H M → Bool
  | .registerWorker _ ok => ok
  | _ => false

def Event.authenticates : Event R H M → Bool
  | .authenticate _ ok => ok
  | _ => false

section
variable {seen seen' : Seen} {e : Event R H M} {es : List (Event R H M)}

lemma Seen.next_authenticated (h : seen.next e = some seen') (ha : seen'.authenticated = true) :
    seen.authenticated = true ∨ e.authenticates = true := by
  cases e with
  | authenticate token ok =>
    cases h
    simpa [Event.authenticates] using ha
  | registerWorker register ok =>
    simp only [Seen.next] at h
    split_ifs at h with hok
    exact Or.inl hok.1
  | updateHeartbeat _ _ | syncModels _ _ =>
    simp only [Seen.next] at h
    split_ifs at h
    cases h
    exact Or.inl ha
  | reply _ _ =>
    cases h
    exact Or.inl ha

lemma Seen.next_registered (h : seen.next e = some seen') :
    (e.registers = true ∧ seen.registered = false ∧ seen'.registered = true) ∨
      (e.registers = false ∧ seen'.registered = seen.registered) := by
  cases e with
  | authenticate token ok | reply _ _ =>
    cases h
    exact Or.inr ⟨rfl, rfl⟩
  | registerWorker register ok =>
    simp only [Seen.next] at h
    split_ifs at h with hok
    cases h
    have hnot : seen.registered = false := by simpa using hok.2.1
    cases ok
    · exact Or.inr ⟨rfl, hnot.symm⟩
    · exact Or.inl ⟨rfl, hnot, rfl⟩
  | updateHeartbeat _ _ | syncModels _ _ =>
    simp only [Seen.next] at h
    split_ifs at h
    cases h
    exact Or.inr ⟨rfl, rfl⟩

lemma Seen.next_failed (h : seen.next e = some seen') (hf : seen.failed = true) :
    e.isCall = false ∧ seen'.failed = true := by
  cases e with
  | authenticate token ok | reply _ _ =>
    cases h
    exact ⟨rfl, hf⟩
  | registerWorker _ _ | updateHeartbeat _ _ | syncModels _ _ => simp [Seen.next, hf] at h

lemma Seen.next_registerWorker {register : R} {ok : Bool}
    (h : seen.next (.registerWorker register ok : Event R H M) = some seen') :
    seen.authenticated = true ∧ seen'.failed = !ok := by
  simp only [Seen.next] at h
  split_ifs at h with hok
  cases h
  exact ⟨hok.1, rfl⟩

lemma Seen.registered_of_worker (h : seen.next e = some seen') (he : e.isWorker = true) :
    seen.registered = true := by
  cases e with
  | updateHeartbeat _ _ | syncModels _ _ =>
    simp only [Seen.next] at h
    split_ifs at h with hok
    exact hok.1
  | authenticate _ _ | registerWorker _ _ | reply _ _ => cases he

lemma Event.eq_of_authenticates (he : e.authenticates = true) :
    ∃ token, e = .authenticate token true := by
  cases e with
  | authenticate token ok =>
    cases he
    exact ⟨token, rfl⟩
  | registerWorker _ _ | updateHeartbeat _ _ | syncModels _ _ | reply _ _ => cases he

lemma Event.eq_of_registers (he : e.registers = true) :
    ∃ register, e = .registerWorker register true := by
  cases e with
  | registerWorker register ok =>
    cases he
    exact ⟨register, rfl⟩
  | authenticate _ _ | updateHeartbeat _ _ | syncModels _ _ | reply _ _ => cases he

section

variable (h : run Seen.next seen es = some seen')
include h

lemma authenticated_run (ha : seen'.authenticated = true) :
    seen.authenticated = true ∨ ∃ e ∈ es, e.authenticates = true := by
  induction es generalizing seen with
  | nil =>
    cases h
    exact Or.inl ha
  | cons e es ih =>
    obtain ⟨mid, hmid, hrest⟩ := run_cons.mp h
    rcases ih hrest with hmida | ⟨e', he', hok⟩
    · rcases Seen.next_authenticated hmid hmida with hseen | hok
      · exact Or.inl hseen
      · exact Or.inr ⟨e, mem_cons_self, hok⟩
    · exact Or.inr ⟨e', mem_cons_of_mem e he', hok⟩

lemma registered_run :
    es.countP Event.registers + seen.registered.toNat = seen'.registered.toNat := by
  induction es generalizing seen with
  | nil =>
    cases h
    simp
  | cons e es ih =>
    obtain ⟨mid, hmid, hrest⟩ := run_cons.mp h
    have hcount := ih hrest
    rcases Seen.next_registered hmid with ⟨he, hseen, hmidr⟩ | ⟨he, hmidr⟩
    · rw [hmidr] at hcount
      simp [hseen, he] at hcount ⊢
      omega
    · rw [hmidr] at hcount
      simpa [he] using hcount

lemma failed_run (hf : seen.failed = true) : ∀ e ∈ es, e.isCall = false := by
  induction es generalizing seen with
  | nil => exact fun e he => absurd he not_mem_nil
  | cons e es ih =>
    obtain ⟨mid, hmid, hrest⟩ := run_cons.mp h
    obtain ⟨hcall, hmidf⟩ := Seen.next_failed hmid hf
    exact forall_mem_cons.mpr ⟨hcall, ih hrest hmidf⟩

end

end

/-! ### The answers of a turn -/

/-- The call is for the payload of the message, and its flag is the answer that the turn gives. -/
def Turn.Gives (turn : Turn R H M) : Event R H M → Prop
  | .authenticate token ok => turn.msg.auth = some token ∧ turn.authenticated.isOk = ok
  | .registerWorker register ok => turn.msg.register = some register ∧ turn.registered.1.isOk = ok
  | .updateHeartbeat heartbeat ok => turn.msg.heartbeat = some heartbeat ∧ turn.beat.isOk = ok
  | .syncModels modelsSync ok => turn.msg.modelsSync = some modelsSync ∧ turn.synced.isOk = ok
  | .reply requestId _ => requestId = turn.msg.requestId

section
variable {turn : Turn R H M} {turns : List (Turn R H M)} {calls : List (Event R H M)}

lemma gives_refuse (h : ∀ e ∈ calls, turn.Gives e) {code message returned : String} :
    ∀ e ∈ (turn.refuse session calls code message returned).events, turn.Gives e :=
  forall_mem_append.mpr ⟨h, by simp [Turn.Gives]⟩

lemma gives_confirm (h : ∀ e ∈ calls, turn.Gives e) {ack : AckMessage} :
    ∀ e ∈ (turn.confirm session calls ack).events, turn.Gives e :=
  forall_mem_append.mpr ⟨h, by simp [Turn.Gives]⟩

lemma gives_handleAuth : ∀ e ∈ (handleAuth session turn).events, turn.Gives e := by
  unfold handleAuth
  split_ifs
  · exact gives_refuse session (by simp)
  split
  · exact gives_refuse session (by simp)
  next token htoken =>
  have hgives : turn.Gives (.authenticate token turn.authenticated.isOk) := ⟨htoken, rfl⟩
  split
  · next herr =>
    rw [herr] at hgives
    exact gives_refuse session (forall_mem_singleton.mpr hgives)
  · next hok =>
    rw [hok] at hgives
    exact gives_confirm _ (forall_mem_singleton.mpr hgives)

lemma gives_handleRegister : ∀ e ∈ (handleRegister session turn).events, turn.Gives e := by
  unfold handleRegister
  by_cases ha : ¬ session.authenticated
  · rw [if_pos ha]
    exact gives_refuse session (by simp)
  rw [if_neg ha]
  split_ifs
  · exact gives_refuse session (by simp)
  split
  · exact gives_refuse session (by simp)
  next register hregister =>
  have hgives : turn.Gives (.registerWorker register turn.registered.1.isOk) := ⟨hregister, rfl⟩
  split
  · next herr =>
    rw [herr] at hgives
    exact gives_refuse _ (forall_mem_singleton.mpr hgives)
  · next hok =>
    rw [hok] at hgives
    exact gives_confirm _ (forall_mem_singleton.mpr hgives)

lemma gives_handleWorker {P : Type} {name missing : String} {payload : Option P}
    {call : P → Bool → Event R H M} {answer : Except String Unit}
    (hcall : ∀ p, payload = some p → turn.Gives (call p answer.isOk)) :
    ∀ e ∈ (handleWorker session turn name missing payload call answer).events, turn.Gives e := by
  unfold handleWorker
  by_cases ha : ¬ session.authenticated
  · rw [if_pos ha]
    exact gives_refuse session (by simp)
  rw [if_neg ha]
  split_ifs
  · exact gives_refuse session (by simp)
  split
  · exact gives_refuse session (by simp)
  have hgives := hcall _ rfl
  split
  · exact gives_refuse session (forall_mem_singleton.mpr hgives)
  · exact gives_confirm session (forall_mem_singleton.mpr hgives)

lemma gives_handle : ∀ e ∈ (handle session turn).events, turn.Gives e := by
  unfold handle
  cases turn.msg.type with
  | auth => exact gives_handleAuth session
  | register => exact gives_handleRegister session
  | heartbeat | modelsSync => exact gives_handleWorker session fun p hp => ⟨hp, rfl⟩
  | ack | error => simp
  | other name =>
    unfold handleOther
    split_ifs
    · exact gives_refuse session (by simp)
    · exact gives_refuse session (by simp)

lemma gives_serve {i : ℕ} {one : Handled R H M}
    (h : (serveControlStream session turns)[i]? = some one) :
    ∃ turn, turns[i]? = some turn ∧ one.msg = turn.msg ∧ ∀ e ∈ one.events, turn.Gives e := by
  induction turns generalizing session i with
  | nil => simp [serveControlStream] at h
  | cons turn turns ih =>
    rw [serveControlStream] at h
    cases i with
    | zero =>
      cases h
      exact ⟨turn, rfl, rfl, gives_handle session⟩
    | succ i =>
      rw [getElem?_cons_succ] at h
      split_ifs at h
      · exact ih _ h
      · simp at h

end

/-! ### The loop keeps to the order -/

def Turn.Binds (turn : Turn R H M) : Prop :=
  ∀ result, turn.registered.1 = .ok result → turn.registered.2.workerId ≠ 0

def replies (es : List (Event R H M)) : List (String × Reply) :=
  es.filterMap fun
    | .reply requestId body => some (requestId, body)
    | _ => none

lemma replies_concat (es : List (Event R H M)) (requestId : String) (body : Reply) :
    replies (es ++ [.reply requestId body]) = replies es ++ [(requestId, body)] := by
  simp [replies, filterMap_append]

inductive Answered (session : Session) (turn : Turn R H M) : Outcome R H M → Prop
  | refuse (after : Session) (calls : List (Event R H M))
    (code message returned : String) (seen : Seen)
      (accepted : run Seen.next session.seen calls = some seen) (quiet : replies calls = []) :
      Answered session turn (turn.refuse after calls code message returned)
  | confirm (after : Session) (calls : List (Event R H M)) (ack : AckMessage)
      (accepted : run Seen.next session.seen calls = some after.seen) (quiet : replies calls = []) :
      Answered session turn (turn.confirm after calls ack)

section
variable {session : Session} {turn : Turn R H M} {turns : List (Turn R H M)}

lemma answered_refused (code message returned : String) :
    Answered session turn (turn.refuse session [] code message returned) :=
  .refuse _ _ _ _ _ session.seen rfl rfl

lemma answered_handleAuth : Answered session turn (handleAuth session turn) := by
  unfold handleAuth
  split_ifs with ha
  · exact answered_refused _ _ _
  split
  · exact answered_refused _ _ _
  split
  · exact .refuse _ _ _ _ _ _ rfl rfl
  · refine .confirm _ _ _ ?_ rfl
    simp [run, Seen.next]

lemma answered_handleRegister (hbinds : turn.Binds) :
    Answered session turn (handleRegister session turn) := by
  unfold handleRegister
  by_cases ha : ¬ session.authenticated
  · rw [if_pos ha]
    exact answered_refused _ _ _
  rw [if_neg ha]
  split_ifs with hw
  · exact answered_refused _ _ _
  have hstart : session.seen.authenticated ∧ ¬ session.seen.registered ∧ ¬ session.seen.failed :=
    ⟨not_not.mp ha, by simpa using hw, by simp⟩
  split
  · exact answered_refused _ _ _
  split
  · exact .refuse _ _ _ _ _ _ (run_cons.mpr ⟨_, if_pos hstart, rfl⟩) rfl
  next result binding hresult =>
  have hbound : binding.workerId ≠ 0 := by
    have hnonzero := hbinds result (by rw [hresult])
    rwa [hresult] at hnonzero
  refine .confirm _ _ _ (run_cons.mpr ⟨_, if_pos hstart, ?_⟩) rfl
  simp [hbound]

lemma answered_handleWorker {P : Type} {name missing : String} {payload : Option P}
    {call : P → Bool → Event R H M} {answer : Except String Unit}
    (hcall : ∀ (seen : Seen) p ok, seen.registered ∧ ¬ seen.failed →
      seen.next (call p ok) = some seen)
    (hquiet : ∀ p ok, replies [call p ok] = []) :
    Answered session turn (handleWorker session turn name missing payload call answer) := by
  unfold handleWorker
  by_cases ha : ¬ session.authenticated
  · rw [if_pos ha]
    exact answered_refused _ _ _
  rw [if_neg ha]
  split_ifs with hw
  · exact answered_refused _ _ _
  have hstart : session.seen.registered ∧ ¬ session.seen.failed := by simpa using hw
  split
  · exact answered_refused _ _ _
  split
  · exact .refuse _ _ _ _ _ _ (run_cons.mpr ⟨session.seen, hcall _ _ _ hstart, rfl⟩) (hquiet _ _)
  · exact .confirm _ _ _ (run_cons.mpr ⟨session.seen, hcall _ _ _ hstart, rfl⟩) (hquiet _ _)

lemma answered_handleOther (name : String) :
    Answered session turn (handleOther session turn name) := by
  unfold handleOther
  split_ifs
  · exact answered_refused _ _ _
  · exact answered_refused _ _ _

def MessageType.isSilent : MessageType → Bool
  | .ack | .error => true
  | _ => false

lemma handle_cases (session : Session) (hbinds : turn.Binds) :
    (turn.msg.type.isSilent = true ∧ handle session turn = ⟨session, [], none⟩) ∨
      (turn.msg.type.isSilent = false ∧ Answered session turn (handle session turn)) := by
  unfold handle
  cases turn.msg.type with
  | auth => exact Or.inr ⟨rfl, answered_handleAuth⟩
  | register => exact Or.inr ⟨rfl, answered_handleRegister hbinds⟩
  | heartbeat | modelsSync =>
    exact Or.inr ⟨rfl, answered_handleWorker (fun _ _ _ h => if_pos h) fun _ _ => rfl⟩
  | ack | error => exact Or.inl ⟨rfl, rfl⟩
  | other name => exact Or.inr ⟨rfl, answered_handleOther name⟩

lemma Answered.follows {out : Outcome R H M} (h : Answered session turn out) :
    ∃ seen, run Seen.next session.seen out.events = some seen ∧
      (out.returned = none → seen = out.session.seen) := by
  cases h with
  | refuse after calls code message returned seen accepted quiet =>
    refine ⟨seen, run_append.mpr ⟨seen, accepted, rfl⟩, fun hnone => ?_⟩
    cases hnone
  | confirm after calls ack accepted quiet =>
    exact ⟨after.seen, run_append.mpr ⟨after.seen, accepted, rfl⟩, fun _ => rfl⟩

lemma Answered.replies {out : Outcome R H M} (h : Answered session turn out) :
    ∃ body, ControlLoop.replies out.events = [(turn.msg.requestId, body)] ∧
      ((∃ message, body = .error message) → out.returned ≠ none) := by
  cases h with
  | refuse after calls code message returned seen accepted quiet =>
    refine ⟨.error ⟨code, message⟩, ?_, fun _ hnone => nomatch hnone⟩
    rw [Turn.refuse, replies_concat, quiet, nil_append]
  | confirm after calls ack accepted quiet =>
    refine ⟨.ack ack, ?_, ?_⟩
    · rw [Turn.confirm, replies_concat, quiet, nil_append]
    · rintro ⟨message, hmessage⟩
      cases hmessage

variable (session)

lemma follows_serve (hbinds : ∀ turn ∈ turns, turn.Binds) :
    ∃ seen, run Seen.next session.seen (events (serveControlStream session turns)) = some seen := by
  induction turns generalizing session with
  | nil => exact ⟨session.seen, rfl⟩
  | cons turn turns ih =>
    obtain ⟨hhead, htail⟩ := forall_mem_cons.mp hbinds
    have hone : ∃ seen, run Seen.next session.seen (handle session turn).events = some seen ∧
        ((handle session turn).returned = none → seen = (handle session turn).session.seen) := by
      rcases handle_cases session hhead with ⟨-, hsilent⟩ | ⟨-, hanswered⟩
      · rw [hsilent]
        exact ⟨session.seen, rfl, fun _ => rfl⟩
      · exact hanswered.follows
    obtain ⟨seen, hseen, hnext⟩ := hone
    simp only [serveControlStream, events, flatMap_cons]
    split_ifs with hgoes
    · obtain ⟨last, hlast⟩ := ih (handle session turn).session htail
      rw [← hnext hgoes] at hlast
      exact ⟨last, run_append.mpr ⟨seen, hseen, hlast⟩⟩
    · exact ⟨seen, by simpa using hseen⟩

lemma replies_handle (hbinds : turn.Binds) :
    (turn.msg.type.isSilent = true → replies (handle session turn).events = []) ∧
      (turn.msg.type.isSilent = false →
        ∃ body, replies (handle session turn).events = [(turn.msg.requestId, body)]) ∧
      (∀ requestId message, (requestId, .error message) ∈ replies (handle session turn).events →
        (handle session turn).returned ≠ none) := by
  rcases handle_cases session hbinds with ⟨hsilent, hhandle⟩ | ⟨hsilent, hanswered⟩
  · rw [hhandle, hsilent]
    exact ⟨fun _ => rfl, fun h => (nomatch h), fun _ _ h => absurd h not_mem_nil⟩
  obtain ⟨body, hbody, hends⟩ := hanswered.replies
  rw [hbody, hsilent]
  refine ⟨fun h => (nomatch h), fun _ => ⟨body, rfl⟩,
    fun requestId message h => hends ⟨message, ?_⟩⟩
  exact (Prod.mk.inj (mem_singleton.mp h)).2.symm

lemma replies_serve (hbinds : ∀ turn ∈ turns, turn.Binds) :
    ∀ one ∈ serveControlStream session turns,
      (one.msg.type.isSilent = true → replies one.events = []) ∧ (one.msg.type.isSilent = false →
          ∃ body, replies one.events = [(one.msg.requestId, body)]) := by
  induction turns generalizing session with
  | nil => exact fun one h => absurd h not_mem_nil
  | cons turn turns ih =>
    obtain ⟨hhead, htail⟩ := forall_mem_cons.mp hbinds
    have hone := replies_handle session hhead
    refine forall_mem_cons.mpr ⟨⟨hone.1, hone.2.1⟩, ?_⟩
    split_ifs with hgoes
    · exact ih (handle session turn).session htail
    · exact fun one h => absurd h not_mem_nil

lemma last_serve (hbinds : ∀ turn ∈ turns, turn.Binds)
    {pre post : List (Handled R H M)} {one : Handled R H M}
    (h : serveControlStream session turns = pre ++ one :: post) {requestId : String}
    {message : ErrorMessage} (herror : (requestId, .error message) ∈ replies one.events) :
    post = [] := by
  induction turns generalizing session pre with
  | nil => exact absurd h (by simp [serveControlStream])
  | cons turn turns ih =>
    obtain ⟨hhead, htail⟩ := forall_mem_cons.mp hbinds
    cases pre with
    | nil =>
      obtain ⟨rfl, hrest⟩ := cons.inj h
      rw [if_neg ((replies_handle session hhead).2.2 requestId message herror)] at hrest
      exact hrest.symm
    | cons first pre =>
      obtain ⟨-, hrest⟩ := cons.inj h
      split_ifs at hrest with hgoes
      · exact ih (handle session turn).session htail hrest
      · exact absurd hrest (by simp)

variable {session}

end

/-- **The control loop keeps to its protocol**, over any messages and any answers. -/
theorem disciplined (userId : Option ℤ) (tokenKey : String) (turns : List (Turn R H M))
    (hbinds : ∀ turn ∈ turns, turn.Binds) : let session := newGatewaySession userId tokenKey
    let handled := serveControlStream session turns
    (∀ pre register ok post, events handled = pre ++ .registerWorker register ok :: post →
      session.authenticated = true ∨ ∃ token, .authenticate token true ∈ pre) ∧
    (∀ pre register post, events handled = pre ++ .registerWorker register false :: post →
      ∀ e ∈ post, e.isCall = false) ∧ (events handled).countP Event.registers ≤ 1 ∧
    (∀ pre e post, events handled = pre ++ e :: post → e.isWorker = true →
      ∃ register, .registerWorker register true ∈ pre) ∧
    (∀ one ∈ handled, (one.msg.type.isSilent = true → replies one.events = []) ∧
      (one.msg.type.isSilent = false → ∃ body, replies one.events = [(one.msg.requestId, body)])) ∧
    (∀ pre one post, handled = pre ++ one :: post →
      (∃ requestId message, (requestId, .error message) ∈ replies one.events) → post = []) ∧
    (∀ (i : ℕ) (one : Handled R H M), handled[i]? = some one → ∃ turn : Turn R H M,
      turns[i]? = some turn ∧ one.msg = turn.msg ∧ ∀ e ∈ one.events, turn.Gives e) := by
  intro session handled
  obtain ⟨last, hlast⟩ := follows_serve session hbinds
  have hsplit : ∀ {pre e post}, events handled = pre ++ e :: post → ∃ before after,
      run Seen.next session.seen pre = some before ∧ before.next e = some after ∧
      run Seen.next after post = some last := by
    intro pre e post h
    rw [h] at hlast
    obtain ⟨before, hbefore, hrest⟩ := run_append.mp hlast
    obtain ⟨after, hafter, hpost⟩ := run_cons.mp hrest
    exact ⟨before, after, hbefore, hafter, hpost⟩
  refine ⟨?_, ?_, ?_, ?_, replies_serve session hbinds, ?_, fun i one => gives_serve session⟩
  · intro pre register ok post h
    obtain ⟨before, after, hpre, hnext, -⟩ := hsplit h
    refine (authenticated_run hpre (Seen.next_registerWorker hnext).1).imp_right ?_
    rintro ⟨e, he, hok⟩
    obtain ⟨token, rfl⟩ := Event.eq_of_authenticates hok
    exact ⟨token, he⟩
  · intro pre register post h
    obtain ⟨before, after, -, hnext, hpost⟩ := hsplit h
    exact failed_run hpost (Seen.next_registerWorker hnext).2
  · have hcount : (events handled).countP Event.registers + _ = _ := registered_run hlast
    have hle := last.registered.toNat_le
    omega
  · intro pre e post h he
    obtain ⟨before, after, hpre, hnext, -⟩ := hsplit h
    have hcount := registered_run hpre
    rw [Seen.registered_of_worker hnext he, show session.seen.registered = false from rfl] at hcount
    have hpos : 0 < pre.countP Event.registers := by
      rw [Bool.toNat_true, Bool.toNat_false] at hcount
      omega
    obtain ⟨e', he', hok⟩ := countP_pos_iff.mp hpos
    obtain ⟨register, rfl⟩ := Event.eq_of_registers hok
    exact ⟨register, he'⟩
  · rintro pre one post h ⟨requestId, message, herror⟩
    exact last_serve session hbinds h herror

end

/-- A worker authenticates, registers and sends a heartbeat; its second registration is refused. -/
theorem disciplined_duplicate :
    let turn : ControlMessage Unit Unit Unit → Turn Unit Unit Unit := fun msg =>
      { msg, authenticated := .ok ("key", some 7), registered := (.ok ⟨"w", 1, 2⟩, ⟨"w", 1, 2⟩),
        beat := .ok (), synced := .ok () }
    let turns := [turn { type := .auth, requestId := "1", auth := some "sk-key" },
      turn { type := .register, requestId := "2", register := some () },
      turn { type := .heartbeat, requestId := "3", heartbeat := some () },
      turn { type := .register, requestId := "4", register := some () },
      turn { type := .modelsSync, requestId := "5", modelsSync := some () }]
    let handled := serveControlStream (newGatewaySession none "") turns
    (∀ turn ∈ turns, turn.Binds) ∧ handled.length = 4 ∧
      (events handled).countP Event.registers ≤ 1 := by
  intro turn turns handled
  have hbinds : ∀ turn ∈ turns, turn.Binds := by simp [turns, turn, Turn.Binds]
  exact ⟨hbinds, by decide, (disciplined none "" turns hbinds).2.2.1⟩

/-! ### The registry of the hub -/

section
open Hub.Groups Hub.Registry Hub.Frames Hub.Effects
variable {dir : Directory} {sql : Sql} {now : ℤ} {hub : State} {s : ℕ}

@[simp] def hubBinding (hub : State) (s : ℕ) : Binding :=
  ⟨(hub.sessions s).ns, (hub.sessions s).workerId, (hub.sessions s).channelId⟩

def errorText : RegistryError → String
  | .text message => message
  | .controlPlane _ message => message
  | .database text => text

def hubRegistered (dir : Directory) (sql : Sql) (now : ℤ) (hub : State) (s : ℕ)
    (msg : RegisterMessage) :
    Except String Binding × Binding :=
  match registerWorker dir sql now hub s msg with
  | (.error err, hub) => (.error (errorText err), hubBinding hub s)
  | (.ok result, hub) => (.ok ⟨result.ns, result.workerId, result.channelId⟩, hubBinding hub s)

lemma hubRegistered_binds (hwf : WellFormed hub.db) (msg : RegisterMessage) {result : Binding}
    (h : (hubRegistered dir sql now hub s msg).1 = .ok result) :
    (hubRegistered dir sql now hub s msg).2.workerId ≠ 0 := by
  unfold hubRegistered at h ⊢
  rcases hregister : registerWorker dir sql now hub s msg with ⟨err | registered, hub'⟩
  · rw [hregister] at h
    cases h
  · obtain ⟨plan, snap, db, ⟨-, -, -, hread, hwrite⟩, rfl⟩ := registerWorker_ok hregister
    obtain ⟨-, -, hworker, -⟩ := frame_upsertWrite hwf (fits_upsertRead hwf hread) hwrite
    simpa [bindChannel, bindSession] using hworker

/-- A heartbeat or a list of models leaves the worker of its session alone. -/
lemma hubBinding_kept (hub : State) (s : ℕ) (beat : HeartbeatMessage)
    (modelsSync : ModelsSyncMessage) :
    hubBinding (updateHeartbeat sql now hub s beat).2 s = hubBinding hub s ∧
      hubBinding (syncModels dir sql now hub s modelsSync).2 s = hubBinding hub s := by
  constructor
  · unfold updateHeartbeat
    split
    · rfl
    split
    · rfl
    · simp [heartbeatSession]
  · unfold syncModels
    dsimp only
    split
    · rfl
    split
    · rfl
    split
    · rfl
    split
    · simp [syncSession]
    · simp [syncSession]

end

end Tokilake.Core.ControlLoop
