import Tokilake.Gateway.Registry

/-! # Registration over the control stream

The Rust gateway has two handlers of register messages, and `Backend` is what they differ in.
`answered` and `answers` are histories.

* `step`: one message of a session, or its release. -/

namespace Tokilake.Gateway.Control

open Lib Gateway.Registry
open Core.Slots (int32)

/-! ### The session manager -/

structure WorkerInfo where
  workerId : ℤ
  channelId : ℤ
  ns : String
  group : String
  models : List String
  backendType : String
  status : ℤ
  deriving DecidableEq

abbrev Entries (κ : Type) [DecidableEq κ] := AList fun _ : κ => ℕ

def claimNamespace (byNamespace : Entries String) (session : ℕ) (ns : String) :
    Except String (Entries String) :=
  match byNamespace.lookup ns with
  | some holder =>
    if holder ≠ session then .error "namespace already connected" else .ok byNamespace
  | none => .ok (byNamespace.insert ns session)

def bindChannel (byChannelId : Entries ℤ) (session : ℕ) (old : Option WorkerInfo)
    (info : WorkerInfo) : Entries ℤ :=
  let byChannelId := match old with
    | some old =>
      if old.channelId ≠ 0 ∧ old.channelId ≠ info.channelId then byChannelId.erase old.channelId
      else byChannelId
    | none => byChannelId
  byChannelId.insert info.channelId session

def releaseEntry {κ : Type} [DecidableEq κ] (entries : Entries κ) (session : ℕ)
    (k : κ) : Entries κ :=
  if entries.lookup k = some session then entries.erase k else entries

def releaseNamespace (byNamespace : Entries String) (session : ℕ) :
    Option WorkerInfo → Entries String
  | none => byNamespace
  | some info => if info.ns ≠ "" then releaseEntry byNamespace session info.ns else byNamespace

def releaseChannel (byChannelId : Entries ℤ) (session : ℕ) : Option WorkerInfo → Entries ℤ
  | none => byChannelId
  | some info =>
    if info.channelId ≠ 0 then releaseEntry byChannelId session info.channelId else byChannelId

/-! ### The handlers -/

inductive Reply
  | ack (message ns : String) (workerId channelId : ℤ)
  | error (code message : String)
  deriving DecidableEq

@[simp] def Reply.isError : Reply → Bool
  | .error _ _ => true
  | .ack _ _ _ _ => false

structure Backend (ρ : Type) where
  authText : String
  againText : String
  missing : Option Reply
  start : ρ → RegisterRequest → Except Reply (ρ × ℤ)
  finish : ρ → RegisterRequest → ℤ → ρ
  boundGroup : String → String
  drop : ρ → Option WorkerInfo → ρ
  missing_error : ∀ reply ∈ missing, reply.isError
  start_error : ∀ store req reply, start store req = .error reply → reply.isError
  start_named : ∀ store req r, start store req = .ok r → req.ns ≠ ""

def api : Backend ChannelIndex where
  authText := "auth required"
  againText := "already handled"
  missing := none
  start := fun index req =>
    if Text.trimSpace req.ns = "" then .error (.error "namespace_required" "namespace is required")
    else .ok (index, int32 (int32 index.channelCount + 1))
  finish := fun index req channelId => index.upsert (workerChannel channelId req)
  boundGroup := effectiveGroup
  drop := fun index info => match info with
    | some info => index.remove info.channelId
    | none => index
  missing_error := by simp
  start_error := by
    intro index req reply h
    split_ifs at h
    cases h
    rfl
  start_named := by
    intro index req r h hns
    rw [hns, if_pos (by decide)] at h
    cases h

def server : Backend Memory where
  authText := "authentication is required"
  againText := "register message already handled"
  missing := some (.error "register_payload_missing" "register payload is required")
  start := fun m req =>
    match m.registerWorker req with
    | .error text => .error (.error "register_failed" ("protocol error: " ++ text))
    | .ok m' => .ok (m', m.nextId)
  finish := fun m _ _ => m
  boundGroup := id
  drop := fun m info => m.cleanupWorker ((info.map WorkerInfo.workerId).getD 0)
  missing_error := by simp
  start_error := by
    intro m req reply h
    cases hm : m.registerWorker req with
    | error text =>
      rw [hm] at h
      cases h
      rfl
    | ok m' =>
      rw [hm] at h
      cases h
  start_named := by
    intro m req r h hns
    have hblank : Text.trimSpace req.ns = "" := by rw [hns]; decide
    rw [Memory.registerWorker, if_pos hblank] at h
    cases h

inductive Phase
  | started
  | stored
  | bound
  deriving DecidableEq

structure Handler where
  req : RegisterRequest
  phase : Phase
  channelId : ℤ
  contested : Bool

structure Session where
  authenticated : Bool
  registered : Bool := false
  info : Option WorkerInfo := none
  handler : Option Handler := none
  answered : Option String := none

structure Answer where
  session : ℕ
  contested : Bool
  reply : Reply
  deriving DecidableEq

structure State (ρ : Type) where
  store : ρ
  byNamespace : Entries String := ∅
  byChannelId : Entries ℤ := ∅
  sessions : ℕ → Option Session := fun _ => none
  nextId : ℕ := 1
  answers : List Answer := []

variable {ρ : Type}

variable (s : State ρ)

def State.getByNamespace (ns : String) : Option ℕ := s.byNamespace.lookup ns

def State.getByChannelId (channelId : ℤ) : Option ℕ := s.byChannelId.lookup channelId

def State.setSession (id : ℕ) (session : Option Session) : State ρ :=
  { s with sessions := Function.update s.sessions id session }

def State.reply (id : ℕ) (contested : Bool) (reply : Reply) : State ρ :=
  { s with answers := s.answers ++ [⟨id, contested, reply⟩] }

def State.held (id : ℕ) (ns : String) : Bool :=
  (s.byNamespace.lookup ns).any fun holder => holder ≠ id && (s.sessions holder).isSome

def State.receive (b : Backend ρ) (s : State ρ) (id : ℕ) (session : Session)
    (req : Option RegisterRequest) : State ρ :=
  let contested := req.any fun req => s.held id req.ns
  if session.authenticated = false then
    s.reply id contested (.error "not_authenticated" b.authText)
  else if session.registered then
    s.reply id contested (.error "register_already_completed" b.againText)
  else match req with
    | none => match b.missing with
      | none => s
      | some reply => s.reply id contested reply
    | some req => match b.start s.store req with
      | .error reply => s.reply id contested reply
      | .ok (store, channelId) =>
        { s.setSession id (some { session with
            registered := true
            handler := some ⟨req, .started, channelId, contested⟩ }) with store := store }

def workerInfo (b : Backend ρ) (h : Handler) : WorkerInfo where
  workerId := h.channelId
  channelId := h.channelId
  ns := h.req.ns
  group := b.boundGroup h.req.group
  models := h.req.models
  backendType := h.req.backendType
  status := 1

def State.working (id : ℕ) (phase : Phase) : Option (Session × Handler) :=
  (s.sessions id).bind fun session =>
    session.handler.bind fun h => if h.phase = phase then some (session, h) else none

/-- The steps of all sessions; `outside` is whatever else changes the index or the registry. -/
inductive Label (ρ : Type)
  | connect (authenticated : Bool)
  | auth (id : ℕ)
  | register (id : ℕ) (req : Option RegisterRequest)
  | store (id : ℕ)
  | bind (id : ℕ)
  | claim (id : ℕ)
  | release (id : ℕ)
  | outside (store : ρ)

def step (b : Backend ρ) (s : State ρ) : Label ρ → Option (State ρ)
  | .connect authenticated =>
    some { s.setSession s.nextId (some { authenticated }) with nextId := s.nextId + 1 }
  | .auth id => (s.sessions id).map fun session =>
    s.setSession id (some { session with authenticated := true })
  -- a session handles one message after another
  | .register id req => (s.sessions id).bind fun session =>
    if session.handler.isSome then none else some (s.receive b id session req)
  | .store id => (s.working id .started).map fun p =>
    { s.setSession id (some { p.1 with handler := some { p.2 with phase := .stored } }) with
      store := b.finish s.store p.2.req p.2.channelId }
  | .bind id => (s.working id .stored).map fun p =>
    { s.setSession id (some { p.1 with
        info := some (workerInfo b p.2)
        handler := some { p.2 with phase := .bound } }) with
      byChannelId := bindChannel s.byChannelId id p.1.info (workerInfo b p.2) }
  -- the result of the claim is thrown away
  | .claim id => (s.working id .bound).map fun p =>
    { (s.setSession id (some { p.1 with handler := none, answered := some p.2.req.ns })).reply id
        p.2.contested (.ack "register_ok" p.2.req.ns p.2.channelId p.2.channelId) with
      byNamespace := (claimNamespace s.byNamespace id p.2.req.ns).toOption.getD s.byNamespace }
  | .release id => (s.sessions id).bind fun session =>
    if session.handler.isSome then none
    else some { s.setSession id none with
      store := b.drop s.store session.info
      byNamespace := releaseNamespace s.byNamespace id session.info
      byChannelId := releaseChannel s.byChannelId id session.info }
  | .outside store => some { s with store := store }

def init (store : ρ) : State ρ := { store := store }

/-! ### The promises -/

def State.Answered (id : ℕ) (ns : String) : Prop :=
  ∃ session, s.sessions id = some session ∧ session.answered = some ns

/-- Who was told `register_ok` has the namespace, and who asked for a taken one was told an error.
-/
structure Kept (s : State ρ) : Prop where
  returned : ∀ id ns, s.Answered id ns → s.getByNamespace ns = some id
  refused : ∀ answer ∈ s.answers, answer.contested = true → answer.reply.isError = true

def Free : Label ρ → Prop
  | .claim id => ∀ p, s.working id .bound = some p →
    p.2.contested = false ∧ s.held id p.2.req.ns = false
  | _ => True

end Tokilake.Gateway.Control
