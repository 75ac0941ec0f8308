import Tokilake.Hub.Effects

/-! # Registry calls that fail

A call of the registry that returns an error should leave the rows and the session as they were.

* `atomic_iff`: when the calls do. -/

namespace Tokilake.Hub.Atomic

open Lib.Table Hub.Groups Hub.Registry

/-- The calls that write rows. -/
inductive Call
  | register (msg : RegisterMessage)
  | heartbeat (msg : HeartbeatMessage)
  | sync (msg : ModelsSyncMessage)

/-- Runs a call; a registration's result is left out. -/
def perform (dir : Directory) (sql : Sql) (now : ℤ) (hub : State) (s : ℕ) :
    Call → Except RegistryError Unit × State
  | .register msg =>
    let (result, hub') := registerWorker dir sql now hub s msg
    (result.map fun _ => (), hub')
  | .heartbeat msg => updateHeartbeat sql now hub s msg
  | .sync msg => syncModels dir sql now hub s msg

/-- The fields of a session that the calls write. -/
def fields (session : Session) : List String × String × WorkerStatus × String × ℤ :=
  (session.models, session.group, session.status, session.backendType, session.concurrencyLimit)

/-- Rows and session are as they were. -/
structure Kept (hub hub' : State) (s : ℕ) : Prop where
  nodes : hub'.db.nodes = hub.db.nodes
  channels : hub'.db.channels = hub.db.channels
  session : fields (hub'.sessions s) = fields (hub.sessions s)

/-- A call that fails has changed nothing. -/
def AllOrNothing (dir : Directory) (sql : Sql) (now : ℤ) (hub : State) (s : ℕ)
    (call : Call) : Prop :=
  ∀ err, (perform dir sql now hub s call).1 = .error err →
    Kept hub (perform dir sql now hub s call).2 s

/-- Not if a heartbeat's second update fails after a change, nor if a model list's commit does. -/
def Harmless (dir : Directory) (sql : Sql) (now : ℤ) (hub : State) (s : ℕ) : Call → Prop
  | .register _ => True
  | .heartbeat msg => sql .saveNode = none → sql .saveChannel ≠ none →
      ∀ row ∈ hub.db.nodes, row.id = (hub.sessions s).workerId →
        heartbeatNode now (hub.sessions s) msg row = row
  | .sync msg => sql .commit ≠ none → ∀ models group node db,
      syncPlan dir (hub.sessions s) msg = .ok (models, group) →
      syncRead sql hub.db (hub.sessions s) = .ok node →
      syncWrite sql now hub.db (hub.sessions s) models group
        (msg.hardwareInfo.getD node.hardwareInfo) = .ok db →
      fields (syncSession models group msg (hub.sessions s)) = fields (hub.sessions s)

variable {dir : Directory} {sql : Sql} {now : ℤ} {hub : State} {s : ℕ}

lemma Kept.refl (hub : State) (s : ℕ) : Kept hub hub s := ⟨rfl, rfl, rfl⟩

lemma kept_register (msg : RegisterMessage) : AllOrNothing dir sql now hub s (.register msg) := by
  intro err h
  simp only [perform, registerWorker] at h ⊢
  split_ifs at h ⊢ with hns
  · exact Kept.refl hub s
  rcases Effects.claimNamespace_cases hub s (Lib.Text.trimSpace msg.ns)
    with ⟨-, hclaim⟩ | ⟨-, hclaim⟩
  · -- the claim sets the namespace of the session, which is not taken back
    have hfields : fields ((hub.setNamespace s (Lib.Text.trimSpace msg.ns)).sessions s) =
        fields (hub.sessions s) := by simp [State.setNamespace, fields]
    rw [hclaim] at h ⊢
    dsimp only at h ⊢
    cases hupsert : upsertWorkerAndChannel dir sql now
        (hub.setNamespace s (Lib.Text.trimSpace msg.ns)).db
        ((hub.setNamespace s (Lib.Text.trimSpace msg.ns)).sessions s).userId msg with
    | error e => exact ⟨rfl, rfl, hfields⟩
    | ok r =>
      rw [hupsert] at h
      cases h
  · rw [hclaim]
    exact Kept.refl hub s

lemma update_eq_self_iff (k : ℕ) (f : Node → Node) (rows : List Node) :
    update Node.id k f rows = rows ↔ ∀ row ∈ rows, row.id = k → f row = row := by
  rw [update]
  nth_rewrite 2 [← List.map_id rows]
  rw [List.map_inj_left]
  refine forall₂_congr fun row _ => ?_
  by_cases hid : row.id = k <;> simp [hid]

lemma atomic_heartbeat (msg : HeartbeatMessage) : AllOrNothing dir sql now hub s (.heartbeat msg) ↔
    Harmless dir sql now hub s (.heartbeat msg) := by
  unfold AllOrNothing Harmless
  simp only [perform, updateHeartbeat, exec]
  cases hnode : sql .saveNode with
  | some e => simp [Kept.refl]
  | none =>
    cases hchannel : sql .saveChannel with
    | none => simp
    | some e =>
      simp only [reduceCtorEq, ne_eq, not_false_eq_true, forall_const, ← update_eq_self_iff]
      constructor
      · exact fun h => (h _ rfl).nodes
      · exact fun h _ _ => ⟨h, rfl, rfl⟩

lemma atomic_sync (msg : ModelsSyncMessage) : AllOrNothing dir sql now hub s (.sync msg) ↔
    Harmless dir sql now hub s (.sync msg) := by
  unfold AllOrNothing Harmless
  simp only [perform, syncModels]
  cases hplan : syncPlan dir (hub.sessions s) msg with
  | error e => simp [Kept.refl]
  | ok plan =>
    obtain ⟨models, group⟩ := plan
    cases hread : syncRead sql hub.db (hub.sessions s) with
    | error e => simp [Kept.refl]
    | ok node =>
      dsimp only
      cases hwrite : syncWrite sql now hub.db (hub.sessions s) models group
          (msg.hardwareInfo.getD node.hardwareInfo) with
      | error e =>
        refine iff_of_true (fun _ _ => Kept.refl hub s) ?_
        rintro - _ _ _ _ ⟨⟩ ⟨⟩ h
        rw [hwrite] at h
        cases h
      | ok db =>
        cases hcommit : sql .commit with
        | none => simp [exec, hcommit]
        | some e =>
          simp only [exec, hcommit, ne_eq, reduceCtorEq, not_false_eq_true, forall_const]
          constructor
          · rintro h _ _ _ _ ⟨⟩ ⟨⟩ -
            simpa using (h _ rfl).session
          · intro h _ _
            exact ⟨rfl, rfl, by simpa using h models group node db rfl rfl hwrite⟩

/-- **Which calls leave everything as it was when they fail.** -/
theorem atomic_iff (dir : Directory) (sql : Sql) (now : ℤ) (hub : State) (s : ℕ) (call : Call) :
    AllOrNothing dir sql now hub s call ↔ Harmless dir sql now hub s call := by
  cases call with
  | register msg => exact iff_of_true (kept_register msg) trivial
  | heartbeat msg => exact atomic_heartbeat msg
  | sync msg => exact atomic_sync msg

/-- One worker, registered and online. -/
def online : State where
  db := ⟨[⟨1, 7, "gpu", "gpu", .online, ["a"], "", 100, 1, 100, 100⟩],
    [⟨1, channelTypeTokiame, "", .enabled, "Tokiame/gpu", some 1, 100, none, "a",
      "default", false⟩],
    [], 2, 2⟩
  byNamespace := fun ns => if ns = "gpu" then some 0 else none
  byChannelId := fun id => if id = 1 then some 0 else none
  sessions := fun _ => ⟨7, 1, 1, "gpu", "default", "vllm", ["a"], .online, 4⟩

/-- Saving the channel fails. -/
def channelFails : Sql := fun stmt => if stmt = .saveChannel then some "lock wait timeout" else none

/-- The heartbeat of a worker that goes offline. -/
def goodbye : HeartbeatMessage := ⟨3, "", none, [], 0⟩

/-- The heartbeat returns an error, and the node is offline while its channel is enabled. -/
theorem goodbye_half_done :
    (∃ err hub', updateHeartbeat channelFails 200 online 0 goodbye = (.error err, hub') ∧
      hub'.db.nodes.map Node.status = [.offline] ∧
      hub'.db.channels.map Channel.status = [.enabled]) ∧
    ∀ dir, ¬ AllOrNothing dir channelFails 200 online 0 (.heartbeat goodbye) := by
  refine ⟨⟨_, _, rfl, rfl, rfl⟩, fun dir h => ?_⟩
  have hnodes : (updateHeartbeat channelFails 200 online 0 goodbye).2.db.nodes = online.db.nodes :=
    (h _ rfl).nodes
  exact absurd hnodes (by decide)

end Tokilake.Hub.Atomic
