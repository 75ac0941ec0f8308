import Tokilake.Hub.Registry

/-! # What the registry calls do to the database

One inversion lemma for each call: either the database stays as it is, or the call passed all checks
and made its writes.

* `registerWorker_cases`, `updateHeartbeat_cases`, `syncModels_cases`, `cleanupWorker_db`. -/

namespace Tokilake.Hub.Effects

open Lib.Text Lib.Table Hub.Groups Hub.Registry

/-! ### Rows -/

section
variable {db : Db} {c c' : ℕ}

structure KeepsChannel (f : Channel → Channel) : Prop where
  id : ∀ row, (f row).id = row.id
  deleted : ∀ row, (f row).deleted = row.deleted

variable {f : Channel → Channel}

lemma keeps_live (hf : KeepsChannel f) :
    KeepsChannel fun row => if row.deleted then row else f row where
  id := fun row => by split_ifs <;> simp [hf.id]
  deleted := fun row => by split_ifs <;> simp [hf.deleted]

lemma channel?_updateChannel_ne (hf : KeepsChannel f) (h : c' ≠ c) :
    (db.updateChannel c f).channel? c' = db.channel? c' := by
  rw [Db.channel?, Db.channel?, Db.updateChannel, lookup_update_ne (keeps_live hf).id h]

lemma channel?_updateChannel_self (hf : KeepsChannel f) :
    (db.updateChannel c f).channel? c = (db.channel? c).map f := by
  rw [Db.channel?, Db.channel?, Db.updateChannel, lookup_update_self (keeps_live hf).id]
  rcases lookup Channel.id c db.channels with _ | row
  · rfl
  · by_cases hd : row.deleted = true
    · simp [Option.filter, hd]
    · simp [Option.filter, hd, hf.deleted]

lemma id_of_channel? {row : Channel} (h : db.channel? c = some row) : row.id = c := by
  rw [Db.channel?, Option.filter_eq_some_iff] at h
  exact key_of_lookup h.1

lemma channel?_createChannel_ne {row : Channel} (h : c ≠ db.nextChannel) :
    (db.createChannel row).channel? c = db.channel? c := by
  unfold Db.channel? Db.createChannel
  rw [@lookup_insert_ne _ Channel.id _ _ _ fun he => h he.symm]

lemma mem_updateChannel {row : Channel}
    (h : row ∈ (db.updateChannel c f).channels) :
    row ∈ db.channels ∨ ∃ old ∈ db.channels, row = f old := by
  rcases mem_update.mp h with ⟨h, -⟩ | ⟨old, hold, -, he⟩
  · exact Or.inl h
  · split_ifs at he with hd
    · exact Or.inl (he ▸ hold)
    · exact Or.inr ⟨old, hold, he⟩

end

lemma keepsChannel_columns (plan : RegisterResult) (nodeName : String) :
    KeepsChannel (channelColumns plan nodeName) := ⟨fun _ => rfl, fun _ => rfl⟩

lemma keepsChannel_heartbeat (session : Session) (msg : HeartbeatMessage) :
    KeepsChannel (heartbeatChannel session msg) := ⟨fun _ => rfl, fun _ => rfl⟩

lemma keepsChannel_sync (session : Session) (models : List String) (group : String) :
    KeepsChannel (syncChannel session models group) := ⟨fun _ => rfl, fun _ => rfl⟩

lemma keepsChannel_disabled : KeepsChannel disabledChannel := ⟨fun _ => rfl, fun _ => rfl⟩

/-! ### The calls -/

section
variable {dir : Directory} {sql : Sql} {now : ℤ} {hub : State} {s : ℕ}

lemma upsertPlan_ok {userId : ℤ} {msg : RegisterMessage} {plan : RegisterResult}
    (h : upsertPlan dir userId msg = .ok plan) :
    normalizeModels msg.models ≠ [] ∧
      ∃ group, resolveAuthorizedGroup dir userId msg.group "" = .ok group ∧
      plan = ⟨0, 0, trimSpace msg.ns, group, normalizeModels msg.models,
        normalizeBackendType msg.backendType "", .online⟩ := by
  unfold upsertPlan at h
  by_cases hm : normalizeModels msg.models = []
  · rw [if_pos hm] at h; exact nomatch h
  rw [if_neg hm] at h
  rcases hg : resolveAuthorizedGroup dir userId msg.group "" with err | group
  · rw [hg] at h; exact nomatch h
  · rw [hg] at h
    exact ⟨hm, group, rfl, (Except.ok.inj h).symm⟩

lemma putNode_channels {userId : ℤ} {plan : RegisterResult} {nodeName : String}
    {hardwareInfo : Option String} {channelId workerId : ℕ} {db db' : Db} {node : Option Node}
    (h : putNode now userId plan nodeName hardwareInfo channelId db node = (db', workerId)) :
    db'.channels = db.channels ∧ db'.nextChannel = db.nextChannel := by
  cases node <;> obtain ⟨rfl, -⟩ := Prod.mk.inj h <;> exact ⟨rfl, rfl⟩

lemma upsertWrite_ok {db db' : Db} {userId : ℤ} {msg : RegisterMessage}
    {plan result : RegisterResult}
    {snap : Snapshot} (h : upsertWrite sql now db userId msg plan snap = .ok (db', result)) :
    ∃ groups mid channelId,
      putChannel now plan (normalizeNodeName msg.ns msg.nodeName) (db.setGroups groups)
        snap.channel = (mid, channelId) ∧
      mid.clash ((snap.node.map Node.id).getD 0) plan.ns channelId = false ∧
      ∃ workerId, putNode now userId plan (normalizeNodeName msg.ns msg.nodeName) msg.hardwareInfo
          channelId mid snap.node = (db', workerId) ∧
        result = { plan with workerId := workerId, channelId := channelId } := by
  unfold upsertWrite at h
  split at h
  · exact nomatch h
  next groups _ =>
  split at h
  · exact nomatch h
  rcases hput : putChannel now plan (normalizeNodeName msg.ns msg.nodeName)
    (db.setGroups groups) snap.channel with ⟨mid, channelId⟩
  simp only [hput] at h
  split at h
  · exact nomatch h
  next hclash =>
  split at h
  · exact nomatch h
  · exact nomatch h
  rcases hnode : putNode now userId plan (normalizeNodeName msg.ns msg.nodeName) msg.hardwareInfo
    channelId mid snap.node with ⟨last, workerId⟩
  rw [hnode] at h
  obtain ⟨rfl, rfl⟩ := Prod.mk.inj (Except.ok.inj h)
  exact ⟨groups, mid, channelId, hput, by simpa using hclash, workerId, hnode, rfl⟩

/-- It names a namespace that is free or its own, and the transaction comes to its commit. -/
def RegisterAccepted (dir : Directory) (sql : Sql) (now : ℤ) (hub : State) (s : ℕ)
    (msg : RegisterMessage) (plan : RegisterResult) (snap : Snapshot) (db : Db)
    (result : RegisterResult) : Prop :=
  let userId := (hub.sessions s).userId
  trimSpace msg.ns ≠ "" ∧
    (hub.byNamespace (trimSpace msg.ns) = none ∨ hub.byNamespace (trimSpace msg.ns) = some s) ∧
    upsertPlan dir userId msg = .ok plan ∧ upsertRead sql hub.db userId plan = .ok snap ∧
    upsertWrite sql now hub.db userId msg plan snap = .ok (db, result)

lemma claimNamespace_cases (hub : State) (s : ℕ) (ns : String) :
    ((hub.byNamespace ns = none ∨ hub.byNamespace ns = some s) ∧
      claimNamespace hub s ns = .ok (hub.setNamespace s ns)) ∨
    (¬ (hub.byNamespace ns = none ∨ hub.byNamespace ns = some s) ∧
      claimNamespace hub s ns = .error (.text "namespace already connected")) := by
  unfold claimNamespace
  split_ifs with h
  · exact Or.inl ⟨h, rfl⟩
  · exact Or.inr ⟨h, rfl⟩

lemma registerWorker_cases (dir : Directory) (sql : Sql) (now : ℤ) (hub : State) (s : ℕ)
    (msg : RegisterMessage) :
    (∃ plan snap db result, RegisterAccepted dir sql now hub s msg plan snap db result ∧
      registerWorker dir sql now hub s msg = (.ok result, bindChannel
        ((hub.setNamespace s (trimSpace msg.ns)).setDb db) s result msg.concurrencyLimit)) ∨
    ((∀ plan snap db result, ¬ RegisterAccepted dir sql now hub s msg plan snap db result) ∧
      ∃ err hub', registerWorker dir sql now hub s msg = (.error err, hub') ∧
        hub'.db = hub.db) := by
  unfold RegisterAccepted registerWorker
  split_ifs with hns
  · exact Or.inr ⟨fun _ _ _ _ h => h.1 hns, _, _, rfl, rfl⟩
  rcases claimNamespace_cases hub s (trimSpace msg.ns) with ⟨hfree, hclaim⟩ | ⟨htaken, hclaim⟩
  · -- the claim leaves the user of the session and the database alone
    simp only [hclaim, State.setNamespace, Function.update_self]
    unfold upsertWorkerAndChannel
    rcases hplan : upsertPlan dir (hub.sessions s).userId msg with err | plan
    · exact Or.inr ⟨fun _ _ _ _ h => (nomatch h.2.2.1), _, _, rfl, rfl⟩
    dsimp only
    rcases hread : upsertRead sql hub.db (hub.sessions s).userId plan with err | snap
    · refine Or.inr ⟨fun _ _ _ _ h => ?_, _, _, rfl, rfl⟩
      obtain rfl := Except.ok.inj h.2.2.1
      exact nomatch hread.symm.trans h.2.2.2.1
    dsimp only
    rcases hwrite : upsertWrite sql now hub.db (hub.sessions s).userId msg plan snap
      with err | ⟨db, result⟩
    · refine Or.inr ⟨fun _ _ _ _ h => ?_, _, _, rfl, rfl⟩
      obtain rfl := Except.ok.inj h.2.2.1
      obtain rfl := Except.ok.inj (hread.symm.trans h.2.2.2.1)
      exact nomatch hwrite.symm.trans h.2.2.2.2
    · exact Or.inl ⟨plan, snap, db, result, ⟨hns, hfree, rfl, hread, hwrite⟩, rfl⟩
  · rw [hclaim]
    exact Or.inr ⟨fun _ _ _ _ h => htaken h.2.1, _, _, rfl, rfl⟩

lemma registerWorker_ok {msg : RegisterMessage} {result : RegisterResult} {hub' : State}
    (h : registerWorker dir sql now hub s msg = (.ok result, hub')) :
    ∃ plan snap db, RegisterAccepted dir sql now hub s msg plan snap db result ∧
      hub' = bindChannel ((hub.setNamespace s (trimSpace msg.ns)).setDb db) s result
        msg.concurrencyLimit := by
  rcases registerWorker_cases dir sql now hub s msg with
    ⟨plan, snap, db, result, hacc, he⟩ | ⟨-, err, hub', he, -⟩
  · cases he.symm.trans h
    exact ⟨plan, snap, db, hacc, rfl⟩
  · cases he.symm.trans h

def heartbeatDb (now : ℤ) (db : Db) (session : Session) (msg : HeartbeatMessage) : Db :=
  (db.updateNode session.workerId (heartbeatNode now session msg)).updateChannel session.channelId
    (heartbeatChannel session msg)

lemma updateHeartbeat_cases (sql : Sql) (now : ℤ) (hub : State) (s : ℕ) (msg : HeartbeatMessage) :
    ((sql .saveNode = none ∧ sql .saveChannel = none) ∧ updateHeartbeat sql now hub s msg = (.ok (),
      (hub.setDb (heartbeatDb now hub.db (hub.sessions s) msg)).updateSession s
        (heartbeatSession msg))) ∨
    (¬ (sql .saveNode = none ∧ sql .saveChannel = none) ∧ ∃ err hub',
      updateHeartbeat sql now hub s msg = (.error err, hub') ∧
        hub'.db.channels = hub.db.channels) := by
  unfold updateHeartbeat exec
  rcases hn : sql .saveNode with _ | err
  · rcases hc : sql .saveChannel with _ | err
    · exact Or.inl ⟨⟨rfl, rfl⟩, rfl⟩
    · exact Or.inr ⟨by simp, _, _, rfl, rfl⟩
  · exact Or.inr ⟨by simp, _, _, rfl, rfl⟩

lemma updateHeartbeat_ok {msg : HeartbeatMessage} {hub' : State}
    (h : updateHeartbeat sql now hub s msg = (.ok (), hub')) :
    hub' = (hub.setDb (heartbeatDb now hub.db (hub.sessions s) msg)).updateSession s
      (heartbeatSession msg) := by
  rcases updateHeartbeat_cases sql now hub s msg with ⟨-, he⟩ | ⟨-, err, hub', he, -⟩
  · cases he.symm.trans h
    rfl
  · cases he.symm.trans h

def SyncAccepted (dir : Directory) (sql : Sql) (now : ℤ) (hub : State) (s : ℕ)
    (msg : ModelsSyncMessage) (models : List String) (group : String) (node : Node)
    (db : Db) : Prop :=
  let session := hub.sessions s
  syncPlan dir session msg = .ok (models, group) ∧ syncRead sql hub.db session = .ok node ∧
    syncWrite sql now hub.db session models group
      (msg.hardwareInfo.getD node.hardwareInfo) = .ok db ∧
    sql .commit = none

lemma syncModels_cases (dir : Directory) (sql : Sql) (now : ℤ) (hub : State) (s : ℕ)
    (msg : ModelsSyncMessage) :
    (∃ models group node db, SyncAccepted dir sql now hub s msg models group node db ∧
      syncModels dir sql now hub s msg =
        (.ok (), (hub.updateSession s (syncSession models group msg)).setDb db)) ∨
    ((∀ models group node db, ¬ SyncAccepted dir sql now hub s msg models group node db) ∧
      ∃ err hub', syncModels dir sql now hub s msg = (.error err, hub') ∧ hub'.db = hub.db) := by
  unfold SyncAccepted syncModels
  dsimp only
  rcases hplan : syncPlan dir (hub.sessions s) msg with err | ⟨models, group⟩
  · exact Or.inr ⟨fun _ _ _ _ h => (nomatch h.1), _, _, rfl, rfl⟩
  rcases hread : syncRead sql hub.db (hub.sessions s) with err | node
  · exact Or.inr ⟨fun _ _ _ _ h => (nomatch h.2.1), _, _, rfl, rfl⟩
  dsimp only
  rcases hwrite : syncWrite sql now hub.db (hub.sessions s) models group
    (msg.hardwareInfo.getD node.hardwareInfo) with err | db
  · refine Or.inr ⟨fun _ _ _ _ h => ?_, _, _, rfl, rfl⟩
    obtain ⟨rfl, rfl⟩ := Prod.mk.inj (Except.ok.inj h.1)
    obtain rfl := Except.ok.inj h.2.1
    exact nomatch hwrite.symm.trans h.2.2.1
  rcases hcommit : sql .commit with _ | err
  · refine Or.inl ⟨models, group, node, db, ⟨rfl, rfl, hwrite, rfl⟩, ?_⟩
    simp [exec, hcommit]
  · exact Or.inr ⟨fun _ _ _ _ h => (nomatch h.2.2.2), .database err,
      hub.updateSession s (syncSession models group msg), by simp [exec, hcommit], rfl⟩

lemma syncModels_ok {msg : ModelsSyncMessage} {hub' : State}
    (h : syncModels dir sql now hub s msg = (.ok (), hub')) :
    ∃ models group node db, SyncAccepted dir sql now hub s msg models group node db ∧
      hub' = (hub.updateSession s (syncSession models group msg)).setDb db := by
  rcases syncModels_cases dir sql now hub s msg with
    ⟨models, group, node, db, hacc, he⟩ | ⟨-, err, hub', he, -⟩
  · cases he.symm.trans h
    exact ⟨models, group, node, db, hacc, rfl⟩
  · cases he.symm.trans h

lemma syncWrite_ok {db db' : Db} {session : Session} {models : List String}
    {group hardwareInfo : String}
    (h : syncWrite sql now db session models group hardwareInfo = .ok db') : ∃ groups, db' =
      ((db.updateNode session.workerId
        (syncNode now models hardwareInfo)).setGroups groups).updateChannel
        session.channelId (syncChannel session models group) := by
  unfold syncWrite at h
  split at h
  · exact nomatch h
  split at h
  · exact nomatch h
  split at h
  · exact nomatch h
  exact ⟨_, (Except.ok.inj h).symm⟩

lemma syncPlan_ok {session : Session} {msg : ModelsSyncMessage} {models : List String}
    {group : String}
    (h : syncPlan dir session msg = .ok (models, group)) : models = normalizeModels msg.models ∧
      resolveAuthorizedGroup dir session.userId msg.group session.group = .ok group := by
  unfold syncPlan at h
  by_cases hm : normalizeModels msg.models = []
  · rw [if_pos hm] at h; exact nomatch h
  rw [if_neg hm] at h
  split at h
  · exact nomatch h
  next hg =>
    obtain ⟨rfl, rfl⟩ := Prod.mk.inj (Except.ok.inj h)
    exact ⟨rfl, hg⟩

def CleanupAccepted (sql : Sql) (hub : State) (s : ℕ) : Prop :=
  let session := hub.sessions s
  session.workerId ≠ 0 ∧ session.channelId ≠ 0 ∧ cleanupRead sql hub.db session = .ok true ∧
    sql .saveNode = none ∧ sql .saveChannel = none ∧ sql .commit = none

lemma cleanupWorker_db (sql : Sql) (now : ℤ) (hub : State) (s : ℕ) : (CleanupAccepted sql hub s ∧
      (cleanupWorker sql now hub s).2.db = cleanupWrite now hub.db (hub.sessions s)) ∨
    (¬ CleanupAccepted sql hub s ∧ (cleanupWorker sql now hub s).2.db = hub.db) := by
  unfold CleanupAccepted cleanupWorker
  dsimp only
  split_ifs with hbound
  · refine Or.inr ⟨fun h => ?_, rfl⟩
    exact hbound.elim h.1 h.2.1
  push Not at hbound
  rcases hread : cleanupRead sql hub.db (hub.sessions s) with err | found
  · exact Or.inr ⟨fun h => (nomatch h.2.2.1), rfl⟩
  cases found
  · refine Or.inr ⟨fun h => (nomatch h.2.2.1), ?_⟩
    unfold exec
    rcases sql .commit with _ | err <;> rfl
  · rcases hn : sql .saveNode with _ | err <;> rcases hc : sql .saveChannel with _ | err <;>
      rcases hcommit : sql .commit with _ | err <;> simp [exec, hn, hc, hcommit, hbound]

end

end Tokilake.Hub.Effects
