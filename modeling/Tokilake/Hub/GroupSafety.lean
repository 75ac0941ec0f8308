import Tokilake.Hub.Effects

/-! # Channel groups stay within the user's grants

`GroupWritten` says what a successful call leaves in the channel table: the live row of the bound
channel has a group that the user is authorized for at the time of the call, also where the stored
group was fed back, and every other row is as before. `groups_authorized` states it for
`registerWorker` and `syncModels`, with the failed calls, which write nothing. -/

namespace Tokilake.Hub.GroupSafety

open Lib.Text Lib.Table Hub.Groups Hub.Registry Hub.Effects

/-- The channel table after a call that wrote the group of channel `c`. A deleted row is not
written. -/
structure GroupWritten (dir : Directory) (userId : ℤ) (c : ℕ)
    (rows rows' : List Channel) : Prop where
  bound : ∀ row ∈ rows', row.id = c → row.deleted = false → AuthorizedGroup dir userId row.group
  others : ∀ row ∈ rows', row.id ≠ c ∨ row.deleted = true → row ∈ rows

section
variable {dir : Directory} {userId : ℤ} {c : ℕ} {rows : List Channel}

lemma groupWritten_update {f : Channel → Channel} (hkeep : KeepsChannel f)
    (hauth : ∀ row, AuthorizedGroup dir userId (f row).group) :
    GroupWritten dir userId c rows
      (update Channel.id c (fun row => if row.deleted then row else f row) rows) := by
  refine ⟨fun row hrow hid hlive => ?_, fun row hrow hother => ?_⟩
  · rcases mem_update.mp hrow with ⟨-, hne⟩ | ⟨old, -, -, rfl⟩
    · exact absurd hid hne
    · split_ifs at hlive ⊢ with hdeleted
      · exact absurd hdeleted (by simp [hlive])
      · exact hauth old
  · rcases mem_update.mp hrow with ⟨hold, -⟩ | ⟨old, hold, hid, rfl⟩
    · exact hold
    · split_ifs at hother ⊢ with hdeleted
      · exact hold
      · rw [hkeep.id, hkeep.deleted] at hother
        exact absurd hother (by simp [hid, hdeleted])

lemma groupWritten_append {row : Channel} (hids : ∀ r ∈ rows, r.id < c) (hid : row.id = c)
    (hlive : row.deleted = false) (hauth : AuthorizedGroup dir userId row.group) :
    GroupWritten dir userId c rows (rows ++ [row]) := by
  refine ⟨fun r hr hr' _ => ?_, fun r hr hother => ?_⟩
  · rcases List.mem_append.mp hr with hold | hnew
    · exact absurd hr' (hids r hold).ne
    · rwa [List.mem_singleton.mp hnew]
  · rcases List.mem_append.mp hr with hold | hnew
    · exact hold
    · rw [List.mem_singleton.mp hnew] at hother
      exact absurd hother (by simp [hid, hlive])

lemma groupWritten_upsertWrite {sql : Sql} {now user : ℤ} {msg : RegisterMessage} {db db' : Db}
    {plan result : RegisterResult} {snap : Snapshot}
    (hids : ∀ row ∈ db.channels, row.id < db.nextChannel)
    (hauth : AuthorizedGroup dir userId plan.group)
    (h : upsertWrite sql now db user msg plan snap = .ok (db', result)) :
    GroupWritten dir userId result.channelId db.channels db'.channels := by
  obtain ⟨groups, mid, c, hmid, -, workerId, hlast, rfl⟩ := upsertWrite_ok h
  rw [(putNode_channels hlast).1]
  cases hchannel : snap.channel with
  | none =>
    rw [hchannel] at hmid
    obtain ⟨rfl, rfl⟩ := Prod.mk.inj hmid
    exact groupWritten_append hids rfl rfl hauth
  | some row =>
    rw [hchannel] at hmid
    obtain ⟨rfl, rfl⟩ := Prod.mk.inj hmid
    exact groupWritten_update (keepsChannel_columns ..) fun _ => hauth

end

/-- **Groups are authorized**, for a user whose primary group is a single group: what
`resolveAuthorizedGroup` returns, and what a successful registration or model sync leaves in the row
of its channel. The ids of a table are below its auto-increment counter. -/
theorem groups_authorized (dir : Directory) (userId : ℤ)
    (hprimary : ∀ item, IsPrimary dir userId item → ',' ∉ item.toList) :
    (∀ requested fallback group, resolveAuthorizedGroup dir userId requested fallback = .ok group →
      AuthorizedGroup dir userId group) ∧
    ∀ (sql : Sql) (now : ℤ) (hub : State) (s : ℕ), (hub.sessions s).userId = userId →
      (∀ row ∈ hub.db.channels, row.id < hub.db.nextChannel) →
      (∀ msg hub', (∀ result, registerWorker dir sql now hub s msg = (.ok result, hub') →
          GroupWritten dir userId result.channelId hub.db.channels hub'.db.channels) ∧
        ∀ err, registerWorker dir sql now hub s msg = (.error err, hub') → hub'.db = hub.db) ∧
      ∀ msg hub', (syncModels dir sql now hub s msg = (.ok (), hub') →
          GroupWritten dir userId (hub.sessions s).channelId hub.db.channels hub'.db.channels) ∧
        ∀ err, syncModels dir sql now hub s msg = (.error err, hub') → hub'.db = hub.db := by
  refine ⟨fun _ _ _ h => resolveAuthorizedGroup_ok hprimary h, fun sql now hub s hs hids =>
    ⟨fun msg hub' => ?_, fun msg hub' => ?_⟩⟩
  · rcases registerWorker_cases dir sql now hub s msg with
      ⟨plan, snap, db, result, ⟨-, -, hplan, -, hwrite⟩, he⟩ | ⟨-, err, hub'', he, hdb⟩
    · refine ⟨fun result' h => ?_, fun err h => (by cases he.symm.trans h)⟩
      cases he.symm.trans h
      rw [hs] at hplan
      obtain ⟨-, group, hgroup, hp⟩ := upsertPlan_ok hplan
      have hauth : AuthorizedGroup dir userId plan.group := by
        rw [hp]
        exact resolveAuthorizedGroup_ok hprimary hgroup
      exact groupWritten_upsertWrite hids hauth hwrite
    · refine ⟨fun result h => (by cases he.symm.trans h), fun err' h => ?_⟩
      obtain ⟨-, rfl⟩ := Prod.mk.inj (he.symm.trans h)
      exact hdb
  · rcases syncModels_cases dir sql now hub s msg with
      ⟨models, group, node, db, ⟨hplan, -, hwrite, -⟩, he⟩ | ⟨-, err, hub'', he, hdb⟩
    · refine ⟨fun h => ?_, fun err h => (by cases he.symm.trans h)⟩
      cases he.symm.trans h
      obtain ⟨-, hgroup⟩ := syncPlan_ok hplan
      obtain ⟨groups, rfl⟩ := syncWrite_ok hwrite
      rw [hs] at hgroup
      exact groupWritten_update (keepsChannel_sync ..) fun _ =>
        resolveAuthorizedGroup_ok hprimary hgroup
    · refine ⟨fun h => (by cases he.symm.trans h), fun err' h => ?_⟩
      obtain ⟨-, rfl⟩ := Prod.mk.inj (he.symm.trans h)
      exact hdb

def vipDirectory : Directory where
  userGroup := fun _ => .ok " default"
  grants := fun _ => .ok [⟨"vip", by decide⟩]

/-- What the user asks for is normalized and authorized. -/
theorem groups_authorized_vip :
    resolveAuthorizedGroup vipDirectory 7 "vip ,, default,vip" "" = .ok "default,vip" ∧
      AuthorizedGroup vipDirectory 7 "default,vip" := by
  have hprimary : ∀ item, IsPrimary vipDirectory 7 item → ',' ∉ item.toList := by
    rintro item ⟨userGroup, h, rfl⟩
    rw [← Except.ok.inj h]
    decide
  have hresolve : resolveAuthorizedGroup vipDirectory 7 "vip ,, default,vip" "" =
      .ok "default,vip" := by
    decide
  exact ⟨hresolve, (groups_authorized vipDirectory 7 hprimary).1 _ _ _ hresolve⟩

end Tokilake.Hub.GroupSafety
