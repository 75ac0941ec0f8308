import Tokilake.Hub.Effects
import Tokilake.Lib.Run

/-! # Sessions side by side

Each session goes through its control loop and its teardown, and others take steps between any two
of its own.

* `step`: one transaction, lock or write of one session. -/

namespace Tokilake.Hub.Lifecycle

open Lib.Text Hub.Groups Hub.Registry

inductive Phase
  | fresh
  | claimed (msg : RegisterMessage)
  | loaded (msg : RegisterMessage) (plan : RegisterResult) (snap : Snapshot)
  | committed (result : RegisterResult) (concurrencyLimit : ℤ)
  | failed
  | registered
  | beating (msg : HeartbeatMessage)
  | beaten (msg : HeartbeatMessage)
  | syncing (models : List String) (group hardwareInfo : String) (msg : ModelsSyncMessage)
  | ending
  | cleaning
  | cleaned
  | gone

structure World where
  hub : State
  phase : ℕ → Phase
  released : ℕ → Bool

def init (db : Db) (users : ℕ → ℤ) : World where
  hub := ⟨db, fun _ => none, fun _ => none, fun s => .fresh (users s)⟩
  phase := fun _ => .fresh
  released := fun _ => false

variable (w : World)

variable (s : ℕ)

def World.goto (hub : State) (p : Phase) : World :=
  { w with hub := hub, phase := Function.update w.phase s p }

def World.release (p : Phase) : World :=
  { hub := Registry.release w.hub s
    phase := Function.update w.phase s p
    released := Function.update w.released s true }

inductive Act
  | claim (s : ℕ) (msg : RegisterMessage)
  | load (s : ℕ) (dir : Directory)
  | commit (s : ℕ) (now : ℤ)
  | bind (s : ℕ)
  | abort (s : ℕ)
  | beatNode (s : ℕ) (now : ℤ) (msg : HeartbeatMessage)
  | beatChannel (s : ℕ)
  | beatSession (s : ℕ)
  | syncRead (s : ℕ) (dir : Directory) (msg : ModelsSyncMessage)
  | syncCommit (s : ℕ) (now : ℤ)
  | stop (s : ℕ)
  | cleanupRead (s : ℕ)
  | cleanupWrite (s : ℕ) (now : ℤ)
  | release (s : ℕ)

def Act.actor : Act → ℕ
  | .claim s _ | .load s _ | .commit s _ | .bind s | .abort s | .beatNode s _ _ | .beatChannel s
  | .beatSession s | .syncRead s _ _ | .syncCommit s _ | .stop s | .cleanupRead s
  | .cleanupWrite s _ | .release s => s

def claim (msg : RegisterMessage) : World :=
  if trimSpace msg.ns = "" then w.goto s w.hub .ending
  else match claimNamespace w.hub s (trimSpace msg.ns) with
  | .error _ => w.goto s w.hub .ending
  | .ok hub => w.goto s hub (.claimed msg)

def load (dir : Directory) (msg : RegisterMessage) : World :=
  match upsertPlan dir (w.hub.sessions s).userId msg with
  | .error _ => w.goto s w.hub .failed
  | .ok plan =>
    match upsertRead .ok w.hub.db (w.hub.sessions s).userId plan with
    | .error _ => w.goto s w.hub .failed
    | .ok snap => w.goto s w.hub (.loaded msg plan snap)

def commit (now : ℤ) (msg : RegisterMessage) (plan : RegisterResult)
    (snap : Snapshot) : World :=
  match upsertWrite .ok now w.hub.db (w.hub.sessions s).userId msg plan snap with
  | .error _ => w.goto s w.hub .failed
  | .ok (db, result) => w.goto s (w.hub.setDb db) (.committed result msg.concurrencyLimit)

def syncRead (dir : Directory) (msg : ModelsSyncMessage) : World :=
  match syncPlan dir (w.hub.sessions s) msg with
  | .error _ => w.goto s w.hub .ending
  | .ok (models, group) =>
    match Registry.syncRead .ok w.hub.db (w.hub.sessions s) with
    | .error _ => w.goto s w.hub .ending
    | .ok node => w.goto s w.hub
        (.syncing models group (msg.hardwareInfo.getD node.hardwareInfo) msg)

def syncCommit (now : ℤ) (models : List String) (group hardwareInfo : String)
    (msg : ModelsSyncMessage) : World :=
  match syncWrite .ok now w.hub.db (w.hub.sessions s) models group hardwareInfo with
  | .error _ => w.goto s w.hub .ending
  | .ok db => w.goto s ((w.hub.updateSession s (syncSession models group msg)).setDb db) .registered

def cleanupRead : World :=
  let session := w.hub.sessions s
  if session.workerId = 0 ∨ session.channelId = 0 then w.goto s w.hub .cleaned
  else match Registry.cleanupRead .ok w.hub.db session with
  | .ok true => w.goto s w.hub .cleaning
  | _ => w.goto s w.hub .cleaned

def step (a : Act) : Option World :=
  match a, w.phase a.actor with
  | .claim s msg, .fresh => some (claim w s msg)
  | .load s dir, .claimed msg => some (load w s dir msg)
  | .commit s now, .loaded msg plan snap => some (commit w s now msg plan snap)
  | .bind s, .committed result limit =>
    some (w.goto s (bindChannel w.hub s result limit) .registered)
  | .abort s, .failed => some (w.release s .ending)
  | .beatNode s now msg, .registered =>
    let session := w.hub.sessions s
    let db := w.hub.db.updateNode session.workerId (heartbeatNode now session msg)
    some (w.goto s (w.hub.setDb db) (.beating msg))
  | .beatChannel s, .beating msg =>
    let session := w.hub.sessions s
    let db := w.hub.db.updateChannel session.channelId (heartbeatChannel session msg)
    some (w.goto s (w.hub.setDb db) (.beaten msg))
  | .beatSession s, .beaten msg =>
    some (w.goto s (w.hub.updateSession s (heartbeatSession msg)) .registered)
  | .syncRead s dir msg, .registered => some (syncRead w s dir msg)
  | .syncCommit s now, .syncing models group hardwareInfo msg =>
    some (syncCommit w s now models group hardwareInfo msg)
  | .stop s, .fresh => some (w.goto s w.hub .ending)
  | .stop s, .registered => some (w.goto s w.hub .ending)
  | .cleanupRead s, .ending => some (cleanupRead w s)
  | .cleanupWrite s now, .cleaning =>
    some (w.goto s (w.hub.setDb (cleanupWrite now w.hub.db (w.hub.sessions s))) .cleaned)
  | .release s, .cleaned => some (w.release s .gone)
  | _, _ => none

end Tokilake.Hub.Lifecycle
