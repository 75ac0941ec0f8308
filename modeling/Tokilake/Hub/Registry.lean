import Tokilake.Hub.Groups
import Tokilake.Lib.Table

/-! # The worker registry of the hub

The state is the database, the two maps of the session manager and the sessions.  `Sql` says which
statements fail in a call.  Registration is split where the source reads and where it writes.

* `registerWorker`, `updateHeartbeat`, `syncModels`, `cleanupWorker`: the calls. -/

namespace Tokilake.Hub.Registry

open Lib.Text Lib.Table Hub.Groups Function

/-! ### Rows, sessions, messages -/

inductive ChannelStatus
  | unknown
  | enabled
  | manuallyDisabled
  | autoDisabled
  deriving DecidableEq

inductive WorkerStatus
  | unset
  | online
  | busy
  | offline
  deriving DecidableEq

structure Channel where
  id : ℕ
  type : ℕ
  key : String
  status : ChannelStatus
  name : String
  weight : Option ℕ
  createdTime : ℤ
  baseUrl : Option String
  models : String
  group : String
  deleted : Bool
  deriving DecidableEq

structure Node where
  id : ℕ
  providerId : ℤ
  ns : String
  nodeName : String
  status : WorkerStatus
  models : List String
  hardwareInfo : String
  lastHeartbeat : ℤ
  channelId : ℕ
  createdAt : ℤ
  updatedAt : ℤ
  deriving DecidableEq

structure UserGroup where
  symbol : String
  name : String
  ratio : ℕ
  isPublic : Bool
  enable : Bool
  deriving DecidableEq

structure Db where
  nodes : List Node
  channels : List Channel
  userGroups : List UserGroup
  nextNode : ℕ
  nextChannel : ℕ
  deriving DecidableEq

structure Session where
  userId : ℤ
  workerId : ℕ
  channelId : ℕ
  ns : String
  group : String
  backendType : String
  models : List String
  status : WorkerStatus
  concurrencyLimit : ℤ
  deriving DecidableEq

def Session.fresh (userId : ℤ) : Session := ⟨userId, 0, 0, "", "", "", [], .unset, 0⟩

structure State where
  db : Db
  byNamespace : String → Option ℕ
  byChannelId : ℕ → Option ℕ
  sessions : ℕ → Session

structure RegisterMessage where
  ns : String
  nodeName : String
  group : String
  models : List String
  hardwareInfo : Option String
  backendType : String
  concurrencyLimit : ℤ

structure HeartbeatMessage where
  status : ℤ
  nodeName : String
  hardwareInfo : Option String
  currentModels : List String
  concurrencyLimit : ℤ

structure ModelsSyncMessage where
  group : String
  models : List String
  hardwareInfo : Option String
  backendType : String
  concurrencyLimit : ℤ

structure RegisterResult where
  workerId : ℕ
  channelId : ℕ
  ns : String
  group : String
  models : List String
  backendType : String
  status : WorkerStatus
  deriving DecidableEq

/-! ### Small functions -/

def normalizeNodeName (ns nodeName : String) : String :=
  if trimSpace nodeName ≠ "" then trimSpace nodeName else trimSpace ns

def normalizeBackendType (backendType fallback : String) : String :=
  if trimSpace backendType ≠ "" then trimSpace backendType else trimSpace fallback

def normalizeWorkerStatus (status : ℤ) : WorkerStatus :=
  if status = 2 then .busy else if status = 3 then .offline else .online

def channelStatusFromWorkerStatus : WorkerStatus → ChannelStatus
  | .offline => .autoDisabled
  | _ => .enabled

def tokiameChannelName (ns nodeName : String) : String :=
  if trimSpace nodeName = "" ∨ trimSpace nodeName = trimSpace ns then "Tokiame/" ++ trimSpace ns
  else "Tokiame/" ++ trimSpace ns ++ " (" ++ trimSpace nodeName ++ ")"

def tokiameChannelBaseURL (ns : String) : String := "tokiame://" ++ trimSpace ns

def channelTypeTokiame : ℕ := 100

/-! ### The tables -/

inductive Stmt
  | findNode
  | findChannel
  | findGroup (symbol : String)
  | createGroup (symbol : String)
  | findGroupAgain (symbol : String)
  | saveChannel
  | saveNode
  | commit
  deriving DecidableEq

abbrev Sql := Stmt → Option String

def Sql.ok : Sql := fun _ => none

def exec (sql : Sql) (stmt : Stmt) : Except RegistryError Unit :=
  match sql stmt with
  | none => .ok ()
  | some err => .error (.database err)

variable (db : Db)

def Db.channel? (id : ℕ) : Option Channel :=
  (lookup Channel.id id db.channels).filter fun row => !row.deleted

def Db.node? (id : ℕ) : Option Node := lookup Node.id id db.nodes

/-- SQL compares the namespaces exactly, as SQLite and PostgreSQL do.  A MySQL collation that
ignores the case is outside of the model. -/
def Db.nodeByNamespace (ns : String) : Option Node := db.nodes.find? fun row => row.ns = ns

def Db.updateChannel (id : ℕ) (f : Channel → Channel) : Db :=
  { db with
    channels := update Channel.id id (fun row => if row.deleted then row else f row) db.channels }

def Db.updateNode (id : ℕ) (f : Node → Node) : Db :=
  { db with nodes := update Node.id id f db.nodes }

def Db.createChannel (row : Channel) : Db :=
  { db with
    channels := db.channels ++ [{ row with id := db.nextChannel }]
    nextChannel := db.nextChannel + 1 }

def Db.createNode (row : Node) : Db :=
  { db with nodes := db.nodes ++ [{ row with id := db.nextNode }], nextNode := db.nextNode + 1 }

def Db.setGroups (groups : List UserGroup) : Db := { db with userGroups := groups }

def Db.clash (id : ℕ) (ns : String) (channelId : ℕ) : Bool :=
  db.nodes.any fun row => row.id ≠ id && (row.ns = ns || row.channelId = channelId)

def ensureUserGroups (sql : Sql) : List String → List UserGroup →
    Except RegistryError (List UserGroup)
  | [], rows => .ok rows
  | item :: items, rows =>
    let group := trimSpace item
    if group = "" then ensureUserGroups sql items rows
    else match sql (.findGroup group) with
    | some err => .error (.database err)
    | none =>
      if rows.any fun row => row.symbol = group then ensureUserGroups sql items rows
      else match sql (.createGroup group), sql (.findGroupAgain group) with
      | none, _ => ensureUserGroups sql items (rows ++ [⟨group, group, 1, false, true⟩])
      -- the row was put there by another call in the meantime
      | some _, none => ensureUserGroups sql items rows
      | some err, some _ => .error (.database err)

/-! ### The session manager -/

def State.updateSession (hub : State) (s : ℕ) (f : Session → Session) : State :=
  { hub with sessions := update hub.sessions s (f (hub.sessions s)) }

def State.setDb (hub : State) (db : Db) : State := { hub with db := db }

section
variable (hub : State) (s : ℕ) (f : Session → Session) (db : Db)

@[simp] lemma State.updateSession_db : (hub.updateSession s f).db = hub.db := rfl

@[simp] lemma State.updateSession_self : (hub.updateSession s f).sessions s = f (hub.sessions s) :=
  update_self ..

lemma State.updateSession_ne {hub : State} {s s' : ℕ} {f : Session → Session} (h : s' ≠ s) :
    (hub.updateSession s f).sessions s' = hub.sessions s' := update_of_ne h ..

@[simp] lemma State.setDb_db : (hub.setDb db).db = db := rfl

@[simp] lemma State.setDb_sessions : (hub.setDb db).sessions = hub.sessions := rfl

end

def State.setNamespace (hub : State) (s : ℕ) (ns : String) : State :=
  { hub with
    byNamespace := update hub.byNamespace ns (some s)
    sessions := update hub.sessions s { hub.sessions s with ns := ns } }

def claimNamespace (hub : State) (s : ℕ) (ns : String) : Except RegistryError State :=
  if hub.byNamespace ns = none ∨ hub.byNamespace ns = some s then .ok (hub.setNamespace s ns)
  else .error (.text "namespace already connected")

def dropChannel (hub : State) (s channelId : ℕ) : ℕ → Option ℕ :=
  let old := (hub.sessions s).channelId
  if old ≠ 0 ∧ old ≠ channelId then update hub.byChannelId old none else hub.byChannelId

def bindSession (result : RegisterResult) (concurrencyLimit : ℤ) (session : Session) : Session :=
  { session with
    workerId := result.workerId
    channelId := result.channelId
    group := result.group
    models := result.models
    backendType := result.backendType
    status := result.status
    concurrencyLimit := concurrencyLimit }

def bindChannel (hub : State) (s : ℕ) (result : RegisterResult) (concurrencyLimit : ℤ) : State :=
  { hub with
    byChannelId := update (dropChannel hub s result.channelId) result.channelId (some s)
    sessions := update hub.sessions s
      (bindSession result concurrencyLimit (hub.sessions s)) }

def release (hub : State) (s : ℕ) : State :=
  let session := hub.sessions s
  { hub with
    byNamespace :=
      if session.ns ≠ "" ∧ hub.byNamespace session.ns = some s then
        update hub.byNamespace session.ns none
      else hub.byNamespace
    byChannelId :=
      if session.channelId ≠ 0 ∧ hub.byChannelId session.channelId = some s then
        update hub.byChannelId session.channelId none
      else hub.byChannelId }

/-! ### Registration -/

/-- What `upsertWorkerAndChannel` settles before its transaction; the ids are still open. -/
def upsertPlan (dir : Directory) (userId : ℤ) (msg : RegisterMessage) :
    Except RegistryError RegisterResult :=
  let models := normalizeModels msg.models
  if models = [] then .error (.text "at least one model is required")
  else match resolveAuthorizedGroup dir userId msg.group "" with
  | .error err => .error err
  | .ok group =>
    .ok ⟨0, 0, trimSpace msg.ns, group, models, normalizeBackendType msg.backendType "",
      .online⟩

structure Snapshot where
  node : Option Node
  channel : Option Channel

def loadOrCreateTokiameChannel (sql : Sql) (db : Db) (channelId : ℕ) :
    Except RegistryError (Option Channel) :=
  if channelId = 0 then .ok none
  else match exec sql .findChannel with
  | .error err => .error err
  | .ok () => .ok (db.channel? channelId)

def upsertRead (sql : Sql) (db : Db) (userId : ℤ) (plan : RegisterResult) :
    Except RegistryError Snapshot :=
  match exec sql .findNode with
  | .error err => .error err
  | .ok () =>
    let node := db.nodeByNamespace plan.ns
    if node.any fun row => row.providerId ≠ 0 && row.providerId ≠ userId then
      .error (.controlPlane "namespace_not_owned"
        ("namespace " ++ plan.ns ++ " is already owned by another user"))
    else match loadOrCreateTokiameChannel sql db ((node.map Node.channelId).getD 0) with
    | .error err => .error err
    | .ok channel => .ok ⟨node, channel⟩

def newChannel (now : ℤ) : Channel :=
  ⟨0, channelTypeTokiame, "", .unknown, "", some 1, now, none, "", "", false⟩

def channelColumns (plan : RegisterResult) (nodeName : String) (row : Channel) : Channel :=
  { row with
    type := channelTypeTokiame
    name := tokiameChannelName plan.ns nodeName
    baseUrl := some (tokiameChannelBaseURL plan.ns)
    models := join ',' plan.models
    group := plan.group
    status := channelStatusFromWorkerStatus plan.status }

def putChannel (now : ℤ) (plan : RegisterResult) (nodeName : String) (db : Db) :
    Option Channel → Db × ℕ
  | none => (db.createChannel (channelColumns plan nodeName (newChannel now)), db.nextChannel)
  | some row => (db.updateChannel row.id (channelColumns plan nodeName), row.id)

def newNode (now : ℤ) (ns : String) : Node := ⟨0, 0, ns, "", .offline, [], "", 0, 0, now, 0⟩

def nodeColumns (now userId : ℤ) (plan : RegisterResult) (nodeName : String)
    (hardwareInfo : String) (channelId : ℕ) (row : Node) : Node :=
  { row with
    providerId := userId
    nodeName := nodeName
    status := plan.status
    models := plan.models
    hardwareInfo := hardwareInfo
    lastHeartbeat := now
    channelId := channelId
    updatedAt := now }

def putNode (now userId : ℤ) (plan : RegisterResult) (nodeName : String)
    (hardwareInfo : Option String) (channelId : ℕ) (db : Db) : Option Node → Db × ℕ
  | none =>
    let columns := nodeColumns now userId plan nodeName (hardwareInfo.getD "") channelId
    (db.createNode (columns (newNode now plan.ns)), db.nextNode)
  | some row =>
    -- the text read before is written back if the message has none
    let columns := nodeColumns now userId plan nodeName
        (hardwareInfo.getD row.hardwareInfo) channelId
    (db.updateNode row.id columns, row.id)

def upsertWrite (sql : Sql) (now : ℤ) (db : Db) (userId : ℤ) (msg : RegisterMessage)
    (plan : RegisterResult) (snap : Snapshot) : Except RegistryError (Db × RegisterResult) :=
  let nodeName := normalizeNodeName msg.ns msg.nodeName
  match ensureUserGroups sql (split ',' (trimSpace plan.group)) db.userGroups with
  | .error err => .error err
  | .ok groups =>
    match exec sql .saveChannel with
    | .error err => .error err
    | .ok () =>
      let (db, channelId) := putChannel now plan nodeName (db.setGroups groups) snap.channel
      if db.clash ((snap.node.map Node.id).getD 0) plan.ns channelId then
        .error (.database "unique index")
      else match exec sql .saveNode, exec sql .commit with
      | .error err, _ => .error err
      | .ok (), .error err => .error err
      | .ok (), .ok () =>
        let (db, workerId) :=
          putNode now userId plan nodeName msg.hardwareInfo channelId db snap.node
        .ok (db, { plan with workerId := workerId, channelId := channelId })

def upsertWorkerAndChannel (dir : Directory) (sql : Sql) (now : ℤ) (db : Db) (userId : ℤ)
    (msg : RegisterMessage) : Except RegistryError (Db × RegisterResult) :=
  match upsertPlan dir userId msg with
  | .error err => .error err
  | .ok plan =>
    match upsertRead sql db userId plan with
    | .error err => .error err
    | .ok snap => upsertWrite sql now db userId msg plan snap

def registerWorker (dir : Directory) (sql : Sql) (now : ℤ) (hub : State) (s : ℕ)
    (msg : RegisterMessage) : Except RegistryError RegisterResult × State :=
  if trimSpace msg.ns = "" then (.error (.text "namespace is required"), hub)
  else match claimNamespace hub s (trimSpace msg.ns) with
  | .error err => (.error err, hub)
  | .ok hub =>
    match upsertWorkerAndChannel dir sql now hub.db (hub.sessions s).userId msg with
    | .error err => (.error err, release hub s)
    | .ok (db, result) => (.ok result, bindChannel (hub.setDb db) s result msg.concurrencyLimit)

/-! ### Heartbeats -/

def heartbeatModels (session : Session) (msg : HeartbeatMessage) : List String × Bool :=
  if msg.currentModels = [] then (session.models, false)
  else (normalizeModels msg.currentModels, normalizeModels msg.currentModels ≠ session.models)

def heartbeatNode (now : ℤ) (session : Session) (msg : HeartbeatMessage) (row : Node) : Node :=
  let (models, modelsChanged) := heartbeatModels session msg
  { row with
    status := normalizeWorkerStatus msg.status
    lastHeartbeat := now
    updatedAt := now
    nodeName := if msg.nodeName ≠ "" then trimSpace msg.nodeName else row.nodeName
    hardwareInfo := msg.hardwareInfo.getD row.hardwareInfo
    models := if modelsChanged then models else row.models }

def heartbeatChannel (session : Session) (msg : HeartbeatMessage) (row : Channel) : Channel :=
  let (models, modelsChanged) := heartbeatModels session msg
  { row with
    status := channelStatusFromWorkerStatus (normalizeWorkerStatus msg.status)
    models := if modelsChanged then join ',' models else row.models }

def heartbeatSession (msg : HeartbeatMessage) (session : Session) : Session :=
  let (models, modelsChanged) := heartbeatModels session msg
  { session with
    status := normalizeWorkerStatus msg.status
    concurrencyLimit :=
      if msg.concurrencyLimit > 0 then msg.concurrencyLimit else session.concurrencyLimit
    models := if modelsChanged then models else session.models }

def updateHeartbeat (sql : Sql) (now : ℤ) (hub : State) (s : ℕ) (msg : HeartbeatMessage) :
    Except RegistryError Unit × State :=
  let session := hub.sessions s
  match exec sql .saveNode with
  | .error err => (.error err, hub)
  | .ok () =>
    let hub := hub.setDb (hub.db.updateNode session.workerId (heartbeatNode now session msg))
    match exec sql .saveChannel with
    | .error err => (.error err, hub)
    | .ok () =>
      let hub := hub.setDb (hub.db.updateChannel session.channelId (heartbeatChannel session msg))
      (.ok (), hub.updateSession s (heartbeatSession msg))

/-! ### Model lists -/

def syncPlan (dir : Directory) (session : Session) (msg : ModelsSyncMessage) :
    Except RegistryError (List String × String) :=
  let models := normalizeModels msg.models
  if models = [] then .error (.text "at least one model is required")
  else match resolveAuthorizedGroup dir session.userId msg.group session.group with
  | .error err => .error err
  | .ok group => .ok (models, group)

def syncNode (now : ℤ) (models : List String) (hardwareInfo : String) (row : Node) : Node :=
  { row with
    models := models
    hardwareInfo := hardwareInfo
    lastHeartbeat := now
    updatedAt := now }

def syncChannel (session : Session) (models : List String) (group : String)
    (row : Channel) : Channel :=
  { row with
    models := join ',' models
    group := group
    status := channelStatusFromWorkerStatus session.status
    baseUrl := some (tokiameChannelBaseURL session.ns)
    type := channelTypeTokiame }

def syncSession (models : List String) (group : String) (msg : ModelsSyncMessage)
    (session : Session) : Session :=
  { session with
    models := models
    group := group
    backendType := normalizeBackendType msg.backendType session.backendType
    concurrencyLimit :=
      if msg.concurrencyLimit > 0 then msg.concurrencyLimit else session.concurrencyLimit }

def syncRead (sql : Sql) (db : Db) (session : Session) : Except RegistryError Node :=
  match exec sql .findChannel, db.channel? session.channelId with
  | .error err, _ => .error err
  | .ok (), none => .error (.database "record not found")
  | .ok (), some _ =>
    match exec sql .findNode, db.node? session.workerId with
    | .error err, _ => .error err
    | .ok (), none => .error (.database "record not found")
    | .ok (), some node => .ok node

def syncWrite (sql : Sql) (now : ℤ) (db : Db) (session : Session) (models : List String)
    (group : String) (hardwareInfo : String) : Except RegistryError Db :=
  match exec sql .saveNode with
  | .error err => .error err
  | .ok () =>
    match ensureUserGroups sql (split ',' (trimSpace group)) db.userGroups with
    | .error err => .error err
    | .ok groups =>
      match exec sql .saveChannel with
      | .error err => .error err
      | .ok () =>
        let db := (db.updateNode session.workerId
            (syncNode now models hardwareInfo)).setGroups groups
        .ok (db.updateChannel session.channelId (syncChannel session models group))

/-- The session fields are set before the commit, and stay set when it fails. -/
def syncModels (dir : Directory) (sql : Sql) (now : ℤ) (hub : State) (s : ℕ)
    (msg : ModelsSyncMessage) : Except RegistryError Unit × State :=
  let session := hub.sessions s
  match syncPlan dir session msg with
  | .error err => (.error err, hub)
  | .ok (models, group) =>
    match syncRead sql hub.db session with
    | .error err => (.error err, hub)
    | .ok node =>
      let hardwareInfo := msg.hardwareInfo.getD node.hardwareInfo
      match syncWrite sql now hub.db session models group hardwareInfo with
      | .error err => (.error err, hub)
      | .ok db =>
        let hub := hub.updateSession s (syncSession models group msg)
        match exec sql .commit with
        | .error err => (.error err, hub)
        | .ok () => (.ok (), hub.setDb db)

/-! ### Cleanup -/

def offlineNode (now : ℤ) (row : Node) : Node :=
  { row with status := .offline, lastHeartbeat := now, updatedAt := now }

def disabledChannel (row : Channel) : Channel := { row with status := .autoDisabled }

def cleanupRead (sql : Sql) (db : Db) (session : Session) : Except RegistryError Bool :=
  match exec sql .findNode with
  | .error err => .error err
  | .ok () =>
    if (db.node? session.workerId).isNone then .ok false
    else match exec sql .findChannel with
    | .error err => .error err
    | .ok () => .ok (db.channel? session.channelId).isSome

def cleanupWrite (now : ℤ) (db : Db) (session : Session) : Db :=
  (db.updateNode session.workerId (offlineNode now)).updateChannel session.channelId disabledChannel

def cleanupWorker (sql : Sql) (now : ℤ) (hub : State) (s : ℕ) : Except RegistryError Unit × State :=
  let session := hub.sessions s
  if session.workerId = 0 ∨ session.channelId = 0 then (.ok (), hub)
  else match cleanupRead sql hub.db session with
  | .error err => (.error err, hub)
  | .ok found =>
    match if found then exec sql .saveNode else .ok (),
      if found then exec sql .saveChannel else .ok (),
      exec sql .commit with
    | .error err, _, _ => (.error err, hub)
    | .ok (), .error err, _ => (.error err, hub)
    | .ok (), .ok (), .error err => (.error err, hub)
    | .ok (), .ok (), .ok () =>
      (.ok (), if found then hub.setDb (cleanupWrite now hub.db session) else hub)

end Tokilake.Hub.Registry
