import Tokilake.Lib.Table
import Tokilake.Lib.Text

/-! # Private groups

There is one grant row for each group and user, written by a generic upsert.  What is asked of other
tables, the clock and the errors of the database are given by `World`.

* `mem_upsert`: what the upsert leaves. -/

namespace Tokilake.PrivateGroup.Store

open Lib.Table Lib.Text

/-! ### Rows -/

structure Group where
  id : ℕ
  ownerUserId : ℕ
  groupSlug : String
  enabled : Bool := true
  deleted : Bool := false
  deriving DecidableEq

inductive Role
  | owner
  | member
  deriving DecidableEq

inductive Source
  | create
  | invite
  | admin
  deriving DecidableEq

structure Grant where
  groupId : ℕ
  userId : ℕ
  role : Role
  source : Source
  sourceRef : String
  grantedBy : ℕ
  expiresAt : ℤ
  revokedAt : ℤ := 0
  deriving DecidableEq

inductive CodeStatus
  | enabled
  | disabled
  deriving DecidableEq

def CodeStatus.ofInt (n : ℤ) : Option CodeStatus :=
  if n = 1 then some .enabled else if n = 2 then some .disabled else none

structure InviteCode where
  id : ℕ
  groupId : ℕ
  codeHash : String
  createdBy : ℕ
  status : CodeStatus := .enabled
  maxUses : ℤ
  usedCount : ℤ := 0
  expiresAt : ℤ
  deriving DecidableEq

structure Db where
  groups : List Group := []
  grants : List Grant := []
  codes : List InviteCode := []
  deriving DecidableEq

/-- What the operations find outside the three tables, and the error of their write. -/
structure World where
  now : ℤ
  symbolExists : String → Bool
  tokenReference : String → Bool
  channelReference : String → Bool
  hash : String → String
  fault : Option String

def World.commit {α : Type} (w : World) (a : α) : Except String α :=
  match w.fault with
  | some e => .error e
  | none => .ok a

/-! ### Grants -/

def Grant.isFor (groupId userId : ℕ) (g : Grant) : Bool := g.groupId = groupId && g.userId = userId

def findGrant (grants : List Grant) (groupId userId : ℕ) : Option Grant :=
  grants.find? (Grant.isFor groupId userId)

def upsert (grants : List Grant) (grant : Grant) : List Grant :=
  if (findGrant grants grant.groupId grant.userId).isSome then
    grants.map fun g => if g.isFor grant.groupId grant.userId then grant else g
  else grants ++ [grant]

def Grant.active (g : Grant) (now : ℤ) : Bool :=
  g.revokedAt = 0 && (g.expiresAt = 0 || now ≤ g.expiresAt)

def revoke (grants : List Grant) (groupId userId : ℕ) (now : ℤ) : List Grant :=
  grants.map fun g =>
    if g.isFor groupId userId && g.revokedAt = 0 then { g with revokedAt := now } else g

lemma isFor_iff {g : Grant} {groupId userId : ℕ} :
    g.isFor groupId userId = true ↔ g.groupId = groupId ∧ g.userId = userId := by
  simp [Grant.isFor]

lemma mem_upsert {grants : List Grant} {grant g : Grant} : g ∈ upsert grants grant ↔
      g = grant ∨ (g ∈ grants ∧ g.isFor grant.groupId grant.userId = false) := by
  unfold upsert
  split_ifs with hfind
  · obtain ⟨old, hold⟩ := Option.isSome_iff_exists.mp hfind
    have hmem := List.mem_of_find?_eq_some hold
    have hfor := List.find?_some hold
    rw [List.mem_map]
    constructor
    · rintro ⟨g', hg', rfl⟩
      split_ifs with h
      · exact Or.inl rfl
      · exact Or.inr ⟨hg', by simpa using h⟩
    · rintro (rfl | ⟨hg, h⟩)
      · exact ⟨old, hmem, by simp [hfor]⟩
      · exact ⟨g, hg, by simp [h]⟩
  · have hnone : ∀ g ∈ grants, g.isFor grant.groupId grant.userId = false := by
      simpa [findGrant] using hfind
    rw [List.mem_append, List.mem_singleton]
    constructor
    · rintro (h | h)
      · exact Or.inr ⟨h, hnone g h⟩
      · exact Or.inl h
    · rintro (h | h)
      · exact Or.inr h
      · exact Or.inl h.1

/-! ### Groups -/

def getPrivateGroup (db : Db) (userId groupId : ℕ) (isAdmin : Bool) : Except String Group :=
  if isAdmin then
    if groupId = 0 then .error "invalid private group id"
    else match lookup Group.id groupId (db.groups.filter fun g => !g.deleted) with
      | some g => .ok g
      | none => .error "record not found"
  else
    if groupId = 0 ∨ userId = 0 then .error "invalid private group lookup params"
    else match lookup Group.id groupId
        (db.groups.filter fun g => !g.deleted && g.ownerUserId = userId) with
      | some g => .ok g
      | none => .error "record not found"

def slugPattern (slug : String) : Bool :=
  3 ≤ slug.length && slug.length ≤ 64 && slug.toList.all fun c => c.isLower || c.isDigit || c = '-'

variable (w : World)

def validatePrivateGroupSlug (db : Db) (slug : String) (excludeGroupId : ℕ) :
    Except String String :=
  let slug := trimSpace (toLower slug)
  if slugPattern slug = false then
    .error "分组名只能包含小写字母、数字和连字符，长度需在 3-64 之间"
  else if slug = "auto" ∨ slug = "default" then .error "该分组名为保留分组"
  else if w.symbolExists slug then .error "该分组名已被系统分组占用"
  else if db.groups.any fun g => !g.deleted && g.groupSlug = slug then
    match getPrivateGroup db 0 excludeGroupId true with
    | .ok g => if g.groupSlug = slug then .ok slug else .error "该分组名已存在"
    | .error _ => .error "该分组名已存在"
  else .ok slug

/-! ### Operations -/

def createPrivateGroup (db : Db) (ownerUserId : ℕ) (groupSlug : String) :
    Except String (Group × Db) := do
  let slug ← validatePrivateGroupSlug w db groupSlug 0
  if db.groups.any fun g => g.groupSlug = slug then .error "UNIQUE constraint failed"
  else
    let group : Group := { id := db.groups.length + 1, ownerUserId, groupSlug := slug }
    let grant : Grant :=
      { groupId := group.id, userId := ownerUserId, role := .owner, source := .create,
        sourceRef := "group:" ++ toString group.id, grantedBy := ownerUserId, expiresAt := 0 }
    w.commit (group, { db with groups := db.groups ++ [group], grants := upsert db.grants grant })

def renamePrivateGroup (db : Db) (userId groupId : ℕ) (newSlug : String)
    (isAdmin : Bool) : Except String (Group × Db) := do
  let group ← getPrivateGroup db userId groupId isAdmin
  let slug ← validatePrivateGroupSlug w db newSlug group.id
  if w.tokenReference group.groupSlug then .error "该分组仍被令牌引用，请先解绑相关令牌"
  else if w.channelReference group.groupSlug then
    .error "该分组仍被渠道引用，请先调整 TOKIAME_GROUP 或渠道分组"
  else if db.groups.any fun g => g.id ≠ group.id && g.groupSlug = slug then
    .error "UNIQUE constraint failed"
  else
    let group := { group with groupSlug := slug }
    w.commit (group, { db with groups := update Group.id group.id (fun _ => group) db.groups })

def deletePrivateGroup (db : Db) (userId groupId : ℕ) (isAdmin : Bool) : Except String Db := do
  let group ← getPrivateGroup db userId groupId isAdmin
  if w.tokenReference group.groupSlug then .error "该分组仍被令牌引用，请先解绑相关令牌"
  else if w.channelReference group.groupSlug then
    .error "该分组仍被渠道引用，请先调整 TOKIAME_GROUP 或渠道分组"
  else
    w.commit
      { groups := update Group.id group.id (fun g => { g with deleted := true }) db.groups
        grants := db.grants.map fun g =>
          if g.groupId = group.id ∧ g.revokedAt = 0 then { g with revokedAt := w.now } else g
        codes := db.codes.map fun c =>
          if c.groupId = group.id then { c with status := .disabled } else c }

def createPrivateGroupInviteCode (db : Db) (userId groupId : ℕ) (code : String)
    (maxUses expiresAt : ℤ) (isAdmin : Bool) : Except String (InviteCode × Db) := do
  if maxUses ≤ 0 then .error "邀请码使用次数必须大于 0"
  else if expiresAt ≠ 0 ∧ expiresAt < w.now then .error "邀请码过期时间无效"
  else
    let group ← getPrivateGroup db userId groupId isAdmin
    if db.codes.any fun c => c.codeHash = w.hash code then .error "UNIQUE constraint failed"
    else
      let row : InviteCode :=
        { id := db.codes.length + 1, groupId := group.id, codeHash := w.hash code,
          createdBy := userId, maxUses, expiresAt }
      w.commit (row, { db with codes := db.codes ++ [row] })

variable (code : InviteCode)

def InviteCode.usable (now : ℤ) : Except String Unit :=
  if code.status ≠ .enabled then .error "邀请码不可用"
  else if code.expiresAt ≠ 0 ∧ code.expiresAt < now then .error "邀请码已过期"
  else if 0 < code.maxUses ∧ code.maxUses ≤ code.usedCount then .error "邀请码已达到使用上限"
  else .ok ()

def InviteCode.withStatus (status : CodeStatus) : InviteCode := { code with status }

def InviteCode.use : InviteCode :=
  { code with
    usedCount := code.usedCount + 1
    status := if 0 < code.maxUses ∧ code.maxUses ≤ code.usedCount + 1 then .disabled
      else code.status }

def InviteCode.grant (userId : ℕ) : Grant :=
  { groupId := code.groupId, userId, role := .member, source := .invite,
    sourceRef := "invite_code:" ++ toString code.id, grantedBy := code.createdBy, expiresAt := 0 }

def redeemPrivateGroupInviteCode (db : Db) (code : String) (userId : ℕ) :
    Except String (Bool × Db) := do
  if code = "" then .error "邀请码不能为空"
  else if userId = 0 then .error "无效的用户"
  else match db.codes.find? fun c => c.codeHash = w.hash code with
    | none => .error "无效的邀请码"
    | some row =>
      row.usable w.now
      match lookup Group.id row.groupId (db.groups.filter fun g => !g.deleted) with
      | none => .error "分组不存在"
      | some group =>
        if group.enabled = false then .error "分组不可用"
        else if ((findGrant db.grants row.groupId userId).any fun g => g.active w.now) then
          .ok (false, db)
        else
          w.commit (true, { db with
            grants := upsert db.grants (row.grant userId)
            codes := update InviteCode.id row.id (fun _ => row.use) db.codes })

def updatePrivateGroupInviteCodeStatus (db : Db) (userId groupId codeId : ℕ) (status : ℤ)
    (isAdmin : Bool) : Except String (InviteCode × Db) := do
  match CodeStatus.ofInt status with
  | none => .error "无效的邀请码状态"
  | some status =>
    let group ← getPrivateGroup db userId groupId isAdmin
    if codeId = 0 then .error "invalid private group invite code id"
    else match lookup InviteCode.id codeId db.codes with
      | none => .error "record not found"
      | some row =>
        if row.groupId ≠ group.id then .error "邀请码不属于该分组"
        else
          let row := row.withStatus status
          w.commit (row, { db with codes := update InviteCode.id row.id (fun _ => row) db.codes })

def grantPrivateGroupMemberByAdmin (db : Db) (actorUserId targetUserId groupId : ℕ)
    (expiresAt : ℤ) : Except String (Grant × Db) := do
  if expiresAt ≠ 0 ∧ expiresAt < w.now then .error "成员过期时间无效"
  else
    let group ← getPrivateGroup db actorUserId groupId true
    if group.enabled = false then .error "分组不可用"
    else
      let grant : Grant :=
        { groupId, userId := targetUserId, role := .member, source := .admin,
          sourceRef := "admin:" ++ toString actorUserId, grantedBy := actorUserId, expiresAt }
      w.commit (grant, { db with grants := upsert db.grants grant })

def revokePrivateGroupMember (db : Db) (actorUserId groupId targetUserId : ℕ)
    (isAdmin : Bool) : Except String Db := do
  let _ ← getPrivateGroup db actorUserId groupId isAdmin
  match findGrant db.grants groupId targetUserId with
  | none => .error "record not found"
  | some grant =>
    if grant.role = .owner then .error "不能撤销组主权限"
    else if grant.revokedAt ≠ 0 then .error "成员权限已被撤销"
    else w.commit { db with grants := revoke db.grants groupId targetUserId w.now }

end Tokilake.PrivateGroup.Store
