import Tokilake.Hub.Effects
import Tokilake.Lib.Run

/-! # Channels that an administrator has disabled

A channel with status `manuallyDisabled` is meant to stay so until an administrator changes it, but
the calls of a worker write the status without looking at it (`Writes`).

* `manuallyDisabled_iff`: so it stays exactly until such a call. -/

namespace Tokilake.Hub.ManualDisable

open Lib.Run Lib.Table Hub.Groups Hub.Registry Option
  Hub.Effects

inductive Call
  | register (dir : Directory) (sql : Sql) (now : ℤ) (s : ℕ) (msg : RegisterMessage)
  | heartbeat (sql : Sql) (now : ℤ) (s : ℕ) (msg : HeartbeatMessage)
  | modelsSync (dir : Directory) (sql : Sql) (now : ℤ) (s : ℕ) (msg : ModelsSyncMessage)
  | cleanup (sql : Sql) (now : ℤ) (s : ℕ)
  | release (s : ℕ)

def Call.apply (hub : State) : Call → State
  | .register dir sql now s msg => (registerWorker dir sql now hub s msg).2
  | .heartbeat sql now s msg => (updateHeartbeat sql now hub s msg).2
  | .modelsSync dir sql now s msg => (syncModels dir sql now hub s msg).2
  | .cleanup sql now s => (cleanupWorker sql now hub s).2
  | .release s => Registry.release hub s

def step (hub : State) (call : Call) : Option State := some (call.apply hub)

def ManuallyDisabled (c : ℕ) (hub : State) : Prop :=
  ∃ row, hub.db.channel? c = some row ∧ row.status = .manuallyDisabled

/-- The call writes the status of channel `c`. -/
def Writes (c : ℕ) (hub : State) : Call → Prop
  | .register dir sql now s msg => ∃ plan snap db result,
      RegisterAccepted dir sql now hub s msg plan snap db result ∧ ∃ row ∈ snap.channel, row.id = c
  | .heartbeat sql _ s _ =>
      (hub.sessions s).channelId = c ∧ sql .saveNode = none ∧ sql .saveChannel = none
  | .modelsSync dir sql now s msg => (hub.sessions s).channelId = c ∧
      ∃ models group node db, SyncAccepted dir sql now hub s msg models group node db
  | .cleanup sql _ s => (hub.sessions s).channelId = c ∧ CleanupAccepted sql hub s
  | .release _ => False

section
variable {c : ℕ} {hub : State} {db : Db} {row : Channel}

lemma status_ne_manuallyDisabled (status : WorkerStatus) :
    channelStatusFromWorkerStatus status ≠ .manuallyDisabled := by
  cases status <;> simp [channelStatusFromWorkerStatus]

lemma channel?_createChannel_of_some {new : Channel} (h : db.channel? c = some row) :
    (db.createChannel new).channel? c = some row := by
  rw [Db.channel?, filter_eq_some_iff] at h
  unfold Db.channel? Db.createChannel lookup
  rw [List.find?_append]
  simp only [lookup] at h
  rw [h.1, some_or, filter_eq_some_iff]
  exact ⟨rfl, h.2⟩

lemma updateChannel_iff {d : ℕ} {f : Channel → Channel} (hf : KeepsChannel f)
    (hstatus : ∀ row, (f row).status ≠ .manuallyDisabled) (h : db.channel? c = some row)
    (hrow : row.status = .manuallyDisabled) :
    (∃ row, (db.updateChannel d f).channel? c = some row ∧ row.status = .manuallyDisabled) ↔
      d ≠ c := by
  constructor
  · rintro ⟨row', h', hrow'⟩ rfl
    rw [channel?_updateChannel_self hf, h, map_some, some.injEq] at h'
    exact hstatus row (h' ▸ hrow')
  · intro hne
    exact ⟨row, by rw [channel?_updateChannel_ne hf hne.symm, h], hrow⟩

lemma upsertWrite_iff {sql : Sql} {now userId : ℤ} {msg : RegisterMessage}
    {plan result : RegisterResult} {snap : Snapshot} {db' : Db}
    (hw : upsertWrite sql now db userId msg plan snap = .ok (db', result))
    (h : db.channel? c = some row) (hrow : row.status = .manuallyDisabled) :
    (∃ row, db'.channel? c = some row ∧ row.status = .manuallyDisabled) ↔
      ¬ ∃ row ∈ snap.channel, row.id = c := by
  obtain ⟨groups, mid, channelId, hmid, -, workerId, hlast, -⟩ := upsertWrite_ok hw
  have hchannel : db'.channel? c = mid.channel? c := by
    unfold Db.channel?
    rw [(putNode_channels hlast).1]
  rw [hchannel]
  have h' : (db.setGroups groups).channel? c = some row := h
  rcases hsnap : snap.channel with _ | old
  · rw [hsnap] at hmid
    obtain ⟨rfl, -⟩ := Prod.mk.inj hmid
    simp only [mem_def, reduceCtorEq, false_and, exists_false, not_false_eq_true, iff_true]
    exact ⟨row, channel?_createChannel_of_some h', hrow⟩
  · rw [hsnap] at hmid
    obtain ⟨rfl, -⟩ := Prod.mk.inj hmid
    rw [updateChannel_iff (keepsChannel_columns _ _)
      (fun _ => status_ne_manuallyDisabled _) h' hrow]
    simp

section

variable (hd : ManuallyDisabled c hub)
include hd

lemma registerWorker_iff (dir : Directory) (sql : Sql) (now : ℤ) (s : ℕ)
    (msg : RegisterMessage) : ManuallyDisabled c (Call.apply hub (.register dir sql now s msg)) ↔
      ¬ Writes c hub (.register dir sql now s msg) := by
  obtain ⟨row, hrow, hstatus⟩ := hd
  simp only [Call.apply, ManuallyDisabled, Writes]
  rcases registerWorker_cases dir sql now hub s msg with
    ⟨plan, snap, db, result, hacc, he⟩ | ⟨hno, err, hub', he, hdb⟩
  · rw [he]
    refine (upsertWrite_iff hacc.2.2.2.2 hrow hstatus).trans ?_
    constructor
    · rintro hspared ⟨plan', snap', db', result', hacc', hwrites⟩
      -- both descriptions of the accepted call read the same snapshot
      obtain rfl := Except.ok.inj (hacc.2.2.1.symm.trans hacc'.2.2.1)
      obtain rfl := Except.ok.inj (hacc.2.2.2.1.symm.trans hacc'.2.2.2.1)
      exact hspared hwrites
    · exact fun hspared hwrites => hspared ⟨plan, snap, db, result, hacc, hwrites⟩
  · rw [he, hdb]
    refine ⟨fun _ => ?_, fun _ => ⟨row, hrow, hstatus⟩⟩
    rintro ⟨plan, snap, db, result, hacc, -⟩
    exact hno plan snap db result hacc

lemma heartbeat_iff (sql : Sql) (now : ℤ) (s : ℕ)
    (msg : HeartbeatMessage) : ManuallyDisabled c (Call.apply hub (.heartbeat sql now s msg)) ↔
      ¬ Writes c hub (.heartbeat sql now s msg) := by
  obtain ⟨row, hrow, hstatus⟩ := hd
  simp only [Call.apply, ManuallyDisabled, Writes]
  rcases updateHeartbeat_cases sql now hub s msg with ⟨hok, he⟩ | ⟨hfail, err, hub', he, hdb⟩
  · have hiff : (∃ row, (heartbeatDb now hub.db (hub.sessions s) msg).channel? c = some row ∧
        row.status = .manuallyDisabled) ↔ (hub.sessions s).channelId ≠ c :=
      updateChannel_iff (keepsChannel_heartbeat _ _) (fun _ => status_ne_manuallyDisabled _) hrow
        hstatus
    rw [he]
    refine hiff.trans ?_
    simp [hok]
  · have hchannel : hub'.db.channel? c = some row := by
      rw [Db.channel?, hdb]
      exact hrow
    rw [he]
    exact ⟨fun _ h => hfail h.2, fun _ => ⟨row, hchannel, hstatus⟩⟩

lemma modelsSync_iff (dir : Directory) (sql : Sql) (now : ℤ) (s : ℕ)
    (msg : ModelsSyncMessage) :
    ManuallyDisabled c (Call.apply hub (.modelsSync dir sql now s msg)) ↔
      ¬ Writes c hub (.modelsSync dir sql now s msg) := by
  obtain ⟨row, hrow, hstatus⟩ := hd
  simp only [Call.apply, ManuallyDisabled, Writes]
  rcases syncModels_cases dir sql now hub s msg with
    ⟨models, group, node, db, hacc, he⟩ | ⟨hno, err, hub', he, hdb⟩
  · obtain ⟨groups, rfl⟩ := syncWrite_ok hacc.2.2.1
    have hrow' : ((hub.db.updateNode (hub.sessions s).workerId
        (syncNode now models
          (msg.hardwareInfo.getD node.hardwareInfo))).setGroups groups).channel? c =
        some row := hrow
    rw [he]
    refine (updateChannel_iff (keepsChannel_sync _ _ _)
      (fun _ => status_ne_manuallyDisabled _) hrow'
      hstatus).trans ?_
    exact ⟨fun hne h => hne h.1, fun h he => h ⟨he, models, group, node, _, hacc⟩⟩
  · rw [he, hdb]
    refine ⟨fun _ h => ?_, fun _ => ⟨row, hrow, hstatus⟩⟩
    obtain ⟨-, models, group, node, db, hacc⟩ := h
    exact hno models group node db hacc

lemma cleanup_iff (sql : Sql) (now : ℤ) (s : ℕ) :
    ManuallyDisabled c (Call.apply hub (.cleanup sql now s)) ↔
      ¬ Writes c hub (.cleanup sql now s) := by
  obtain ⟨row, hrow, hstatus⟩ := hd
  simp only [Call.apply, ManuallyDisabled, Writes]
  rcases cleanupWorker_db sql now hub s with ⟨hacc, hdb⟩ | ⟨hno, hdb⟩
  · have hiff : (∃ row, (cleanupWrite now hub.db (hub.sessions s)).channel? c = some row ∧
        row.status = .manuallyDisabled) ↔ (hub.sessions s).channelId ≠ c :=
      updateChannel_iff keepsChannel_disabled (fun _ => by simp [disabledChannel]) hrow hstatus
    rw [hdb, hiff]
    simp [hacc]
  · rw [hdb]
    exact ⟨fun _ h => hno h.2, fun _ => ⟨row, hrow, hstatus⟩⟩

lemma apply_iff (call : Call) : ManuallyDisabled c (call.apply hub) ↔ ¬ Writes c hub call := by
  cases call with
  | register dir sql now s msg => exact registerWorker_iff hd dir sql now s msg
  | heartbeat sql now s msg => exact heartbeat_iff hd sql now s msg
  | modelsSync dir sql now s msg => exact modelsSync_iff hd dir sql now s msg
  | cleanup sql now s => exact cleanup_iff hd sql now s
  | release s => exact ⟨fun _ h => h, fun _ => hd⟩

end

end

/-- **Staying disabled**: exactly if no call of the run writes the status of `c`. -/
theorem manuallyDisabled_iff (c : ℕ) (hub : State) (calls : List Call)
    (hd : ManuallyDisabled c hub) :
    Stays step (ManuallyDisabled c) hub calls ↔
      Along step (fun hub call => ¬ Writes c hub call) hub calls := by
  refine stays_iff_along (fun hub call => ⟨_, rfl⟩) ?_ hd
  intro hub call hub' hd h
  cases h
  exact apply_iff hd call

def disabledHub : State where
  db :=
    { nodes := [⟨1, 7, "w", "w", .online, ["m"], "", 0, 1, 0, 0⟩]
      channels := [⟨1, channelTypeTokiame, "", .manuallyDisabled, "Tokiame/w", some 1, 0,
        some "tokiame://w", "m", "default", false⟩]
      userGroups := []
      nextNode := 2
      nextChannel := 2 }
  byNamespace := fun ns => if ns = "w" then some 0 else none
  byChannelId := fun c => if c = 1 then some 0 else none
  sessions := fun s => if s = 0 then ⟨7, 1, 1, "w", "default", "", ["m"], .online, 0⟩ else .fresh 7

/-- A heartbeat of another session, and one that fails, leave the channel disabled. -/
theorem manuallyDisabled_iff_failed : Stays step (ManuallyDisabled 1) disabledHub
      [.heartbeat .ok 5 1 ⟨1, "", none, [], 0⟩,
        .heartbeat (fun _ => some "locked") 6 0 ⟨1, "", none, [], 0⟩] := by
  refine (manuallyDisabled_iff 1 disabledHub _ ⟨_, rfl, rfl⟩).mpr ⟨?_, ?_⟩
  · rintro ⟨h, -⟩
    exact absurd h (by decide)
  · rintro hub h
    refine ⟨?_, fun _ _ => trivial⟩
    rintro ⟨-, h, -⟩
    exact nomatch h

/-- **A heartbeat enables a disabled channel.** -/
theorem heartbeat_enables : ManuallyDisabled 1 disabledHub ∧
      ¬ ManuallyDisabled 1 (Call.apply disabledHub (.heartbeat .ok 5 0 ⟨1, "", none, [], 0⟩)) ∧
      ∃ row, (Call.apply disabledHub (.heartbeat .ok 5 0 ⟨1, "", none, [], 0⟩)).db.channel? 1 =
        some row ∧
        row.status = .enabled := by
  refine ⟨⟨_, rfl, rfl⟩, ?_, _, rfl, rfl⟩
  rintro ⟨row, hrow, hstatus⟩
  cases hrow
  exact nomatch hstatus

end Tokilake.Hub.ManualDisable
