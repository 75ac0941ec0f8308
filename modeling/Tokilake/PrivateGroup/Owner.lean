import Tokilake.Lib.Run
import Tokilake.PrivateGroup.Store
import Mathlib.Tactic.Linarith

/-! # The owner's grant

A group is created with a grant for its owner, an ordinary row that the generic upsert can rewrite.

* `owned_iff`: when every group keeps the owner's grant. -/

namespace Tokilake.PrivateGroup.Owner

open Lib.Run Lib.Table PrivateGroup.Store List

/-! ### Runs -/

inductive Op
  | create (ownerUserId : ℕ) (groupSlug : String)
  | rename (userId groupId : ℕ) (newSlug : String) (isAdmin : Bool)
  | delete (userId groupId : ℕ) (isAdmin : Bool)
  | createInviteCode (userId groupId : ℕ) (code : String) (maxUses expiresAt : ℤ) (isAdmin : Bool)
  | updateInviteCode (userId groupId codeId : ℕ) (status : ℤ) (isAdmin : Bool)
  | redeem (code : String) (userId : ℕ)
  | grantByAdmin (actorUserId targetUserId groupId : ℕ) (expiresAt : ℤ)
  | revokeMember (actorUserId groupId targetUserId : ℕ) (isAdmin : Bool)
  deriving DecidableEq

def apply (w : World) (db : Db) : Op → Except String Db
  | .create o slug => (createPrivateGroup w db o slug).map Prod.snd
  | .rename u g slug admin => (renamePrivateGroup w db u g slug admin).map Prod.snd
  | .delete u g admin => deletePrivateGroup w db u g admin
  | .createInviteCode u g code uses exp admin =>
    (createPrivateGroupInviteCode w db u g code uses exp admin).map Prod.snd
  | .updateInviteCode u g c status admin =>
    (updatePrivateGroupInviteCodeStatus w db u g c status admin).map Prod.snd
  | .redeem code u => (redeemPrivateGroupInviteCode w db code u).map Prod.snd
  | .grantByAdmin a t g exp => (grantPrivateGroupMemberByAdmin w db a t g exp).map Prod.snd
  | .revokeMember a g t admin => revokePrivateGroupMember w db a g t admin

def step (db : Db) (e : World × Op) : Option Db :=
  match apply e.1 db e.2 with
  | .ok db' => some db'
  | .error _ => some db

/-! ### What the operations do when they succeed -/

section
variable {w : World} {db db' : Db}

lemma commit_ok {α : Type} {a b : α} (h : w.commit a = .ok b) : w.fault = none ∧ b = a := by
  unfold World.commit at h
  split at h
  · cases h
  · next hf => cases h; exact ⟨hf, rfl⟩

lemma map_ok {α : Type} {r : Except String (α × Db)} (h : r.map Prod.snd = .ok db') :
    ∃ a, r = .ok (a, db') := by
  cases r with
  | error e => cases h
  | ok p => cases h; exact ⟨p.1, rfl⟩

lemma bind_ok {α β : Type} {r : Except String α} {f : α → Except String β} {b : β}
    (h : (r >>= f) = .ok b) : ∃ a, r = .ok a ∧ f a = .ok b := by
  cases r with
  | error e => cases h
  | ok a => exact ⟨a, rfl, h⟩

lemma getPrivateGroup_ok {userId groupId : ℕ} {isAdmin : Bool} {g : Group}
    (h : getPrivateGroup db userId groupId isAdmin = .ok g) :
    g ∈ db.groups ∧ g.id = groupId ∧ g.deleted = false := by
  have hfound : ∀ {p : Group → Bool}, (∀ g, p g = true → g.deleted = false) →
      lookup Group.id groupId (db.groups.filter p) = some g →
      g ∈ db.groups ∧ g.id = groupId ∧ g.deleted = false := by
    intro p hp hl
    have hmem := mem_filter.mp (mem_of_find?_eq_some hl)
    exact ⟨hmem.1, key_of_lookup hl, hp g hmem.2⟩
  unfold getPrivateGroup at h
  split_ifs at h
  · split at h
    · next hl => cases h; exact hfound (fun g hg => by simpa using hg) hl
    · cases h
  · split at h
    · next hl => cases h; exact hfound (fun g hg => by simp_all) hl
    · cases h

def owns (grant : Grant) (group : Group) : Prop :=
  (grant.groupId = group.id ∧ grant.userId = group.ownerUserId) ∧
    grant.role = .owner ∧ grant.revokedAt = 0 ∧ grant.expiresAt = 0

inductive Change (w : World) (db : Db) : Op → List Group → List Grant → Prop
  | keep (op : Op) (h : ∀ a t g exp, op ≠ .grantByAdmin a t g exp) :
      Change w db op db.groups db.grants
  | create (o : ℕ) (slug : String) (group : Group) (grant : Grant)
      (hid : group.id = db.groups.length + 1) (hg : owns grant group) :
      Change w db (.create o slug) (db.groups ++ [group]) (upsert db.grants grant)
  | rename (u g : ℕ) (newSlug : String) (admin : Bool) (group : Group) (slug : String)
      (hmem : group ∈ db.groups) : Change w db (.rename u g newSlug admin)
        (update Group.id group.id (fun _ => { group with groupSlug := slug }) db.groups) db.grants
  | delete (u g : ℕ) (admin : Bool) (group : Group) (now : ℤ) : Change w db (.delete u g admin)
        (update Group.id group.id (fun g => { g with deleted := true }) db.groups)
        (db.grants.map fun g =>
          if g.groupId = group.id ∧ g.revokedAt = 0 then { g with revokedAt := now } else g)
  | redeem (code : String) (u : ℕ) (grant : Grant)
      (hfree : ∀ old, findGrant db.grants grant.groupId grant.userId = some old →
        old.active w.now = false) : Change w db (.redeem code u) db.groups (upsert db.grants grant)
  | grant (a t g : ℕ) (exp : ℤ) (group : Group) (grant : Grant)
      (hgroup : getPrivateGroup db a g true = .ok group) (henabled : group.enabled = true)
      (hexp : exp = 0 ∨ w.now ≤ exp) (hfault : w.fault = none)
      (hfor : grant.groupId = g ∧ grant.userId = t) (hrole : grant.role = .member) :
      Change w db (.grantByAdmin a t g exp) db.groups (upsert db.grants grant)
  | revoke (a g t : ℕ) (admin : Bool) (now : ℤ)
      (hrole : ∀ old, findGrant db.grants g t = some old → old.role ≠ .owner) :
      Change w db (.revokeMember a g t admin) db.groups (revoke db.grants g t now)

lemma apply_change {op : Op} (h : apply w db op = .ok db') :
    Change w db op db'.groups db'.grants := by
  unfold apply at h
  cases op with
  | create o slug =>
    obtain ⟨group, h⟩ := map_ok h
    obtain ⟨slug', -, h⟩ := bind_ok h
    split_ifs at h
    obtain ⟨-, h⟩ := commit_ok h
    cases h
    exact .create o slug _ _ rfl ⟨⟨rfl, rfl⟩, rfl, rfl, rfl⟩
  | rename u g newSlug admin =>
    obtain ⟨group', h⟩ := map_ok h
    obtain ⟨group, hgroup, h⟩ := bind_ok h
    obtain ⟨slug, -, h⟩ := bind_ok h
    split_ifs at h
    obtain ⟨-, h⟩ := commit_ok h
    cases h
    exact .rename u g newSlug admin group slug (getPrivateGroup_ok hgroup).1
  | delete u g admin =>
    obtain ⟨group, -, h⟩ := bind_ok h
    split_ifs at h
    obtain ⟨-, rfl⟩ := commit_ok h
    exact .delete u g admin group w.now
  | createInviteCode u g code uses exp admin =>
    obtain ⟨row, h⟩ := map_ok h
    unfold createPrivateGroupInviteCode at h
    split_ifs at h
    · obtain ⟨group, -, h⟩ := bind_ok h
      cases h
    obtain ⟨group, -, h⟩ := bind_ok h
    obtain ⟨-, h⟩ := commit_ok h
    cases h
    exact .keep _ (by simp)
  | updateInviteCode u g c status admin =>
    obtain ⟨row, h⟩ := map_ok h
    unfold updatePrivateGroupInviteCodeStatus at h
    split at h
    · cases h
    obtain ⟨group, -, h⟩ := bind_ok h
    split_ifs at h
    split at h
    · cases h
    split_ifs at h
    obtain ⟨-, h⟩ := commit_ok h
    cases h
    exact .keep _ (by simp)
  | redeem code u =>
    obtain ⟨created, h⟩ := map_ok h
    unfold redeemPrivateGroupInviteCode at h
    split_ifs at h
    split at h
    · cases h
    next row hrow =>
    obtain ⟨-, -, h⟩ := bind_ok h
    split at h
    · cases h
    next group hgroup =>
    split_ifs at h with henabled hactive
    · cases h; exact .keep _ (by simp)
    obtain ⟨-, h⟩ := commit_ok h
    cases h
    refine .redeem code u (row.grant u) fun old hold => ?_
    have hold : findGrant db.grants row.groupId u = some old := hold
    simpa [hold] using hactive
  | grantByAdmin a t g exp =>
    obtain ⟨grant, h⟩ := map_ok h
    unfold grantPrivateGroupMemberByAdmin at h
    split_ifs at h with hexp
    obtain ⟨group, hgroup, h⟩ := bind_ok h
    split_ifs at h with henabled
    obtain ⟨hfault, h⟩ := commit_ok h
    cases h
    refine .grant a t g exp group _ hgroup (by simpa using henabled) ?_ hfault ⟨rfl, rfl⟩ rfl
    by_cases h0 : exp = 0
    · exact Or.inl h0
    · exact Or.inr (not_lt.mp fun hlt => hexp ⟨h0, hlt⟩)
  | revokeMember a g t admin =>
    obtain ⟨group, -, h⟩ := bind_ok h
    split at h
    · cases h
    next old hold =>
    split_ifs at h with hrole hrev
    obtain ⟨-, rfl⟩ := commit_ok h
    refine .revoke a g t admin w.now fun old' hold' => ?_
    obtain rfl := Option.some.inj (hold.symm.trans hold')
    exact hrole

/-! ### The keys of the tables -/

def grantKey (g : Grant) : ℕ × ℕ := (g.groupId, g.userId)

structure Wf (groups : List Group) (grants : List Grant) : Prop where
  keyed : Keyed Group.id groups
  le_length : ∀ g ∈ groups, g.id ≤ groups.length
  unique : (grants.map grantKey).Nodup

lemma findGrant_of_mem {grants : List Grant} (h : (grants.map grantKey).Nodup) {g : Grant}
    (hg : g ∈ grants) : findGrant grants g.groupId g.userId = some g := by
  unfold findGrant
  cases hf : grants.find? (Grant.isFor g.groupId g.userId) with
  | none =>
    have := find?_eq_none.mp hf g hg
    simp [Grant.isFor] at this
  | some g' =>
    have hkey := isFor_iff.mp (find?_some hf)
    have heq : grantKey g' = grantKey g := Prod.ext hkey.1 hkey.2
    rw [inj_on_of_nodup_map h (mem_of_find?_eq_some hf) hg heq]

lemma unique_upsert {grants : List Grant} (h : (grants.map grantKey).Nodup) (grant : Grant) :
    ((upsert grants grant).map grantKey).Nodup := by
  unfold upsert
  split_ifs with hfind
  · have hsame : (grants.map fun g => if g.isFor grant.groupId grant.userId then grant else g).map
        grantKey = grants.map grantKey := by
      rw [map_map]
      refine map_congr_left fun g _ => ?_
      rw [Function.comp_apply]
      split_ifs with hfor
      · obtain ⟨h1, h2⟩ := isFor_iff.mp hfor
        exact Prod.ext h1.symm h2.symm
      · rfl
    rw [hsame]
    exact h
  · rw [map_append, nodup_append]
    refine ⟨h, by simp, fun a ha b hb hab => ?_⟩
    obtain ⟨g, hg, rfl⟩ := mem_map.mp ha
    simp only [map_cons, map_nil, mem_singleton] at hb
    have hkey := hab.trans hb
    simp only [grantKey, Prod.mk.injEq] at hkey
    refine hfind ?_
    rw [← hkey.1, ← hkey.2, findGrant_of_mem h hg]
    rfl

lemma unique_map {grants : List Grant} (h : (grants.map grantKey).Nodup) {f : Grant → Grant}
    (hf : ∀ g, grantKey (f g) = grantKey g) : ((grants.map f).map grantKey).Nodup := by
  have hsame : (grants.map f).map grantKey = grants.map grantKey := by
    rw [map_map]
    exact map_congr_left fun g _ => hf g
  rw [hsame]
  exact h

lemma ids_update {groups : List Group} {k : ℕ} {f : Group → Group} (hk : Keyed Group.id groups)
    (hle : ∀ g ∈ groups, g.id ≤ groups.length) (hf : ∀ g, g.id = k → (f g).id = k) :
    Keyed Group.id (update Group.id k f groups) ∧
      ∀ g ∈ update Group.id k f groups, g.id ≤ (update Group.id k f groups).length := by
  have hids : (update Group.id k f groups).map Group.id = groups.map Group.id :=
    map_key_update_of hf
  refine ⟨by rw [Keyed, hids]; exact hk, fun g hg => ?_⟩
  have hmem : g.id ∈ groups.map Group.id := by
    rw [← hids]
    exact mem_map_of_mem hg
  obtain ⟨old, hold, heq⟩ := mem_map.mp hmem
  rw [update, length_map, ← heq]
  exact hle old hold

lemma wf_change {op : Op} {groups : List Group} {grants : List Grant} (hwf : Wf db.groups db.grants)
    (h : Change w db op groups grants) : Wf groups grants := by
  obtain ⟨hkeyed, hle, hunique⟩ := hwf
  cases h with
  | keep op hop => exact ⟨hkeyed, hle, hunique⟩
  | create o slug group grant hid hg =>
    refine ⟨keyed_insert hkeyed fun old hold => ?_, fun g hg => ?_, unique_upsert hunique grant⟩
    · have := hle old hold
      omega
    · rw [length_append, length_singleton]
      rcases mem_append.mp hg with hg | hg
      · have := hle g hg
        omega
      · obtain rfl := mem_singleton.mp hg
        omega
  | rename u g newSlug admin group slug hmem =>
    obtain ⟨h1, h2⟩ := ids_update hkeyed hle (f := fun _ => { group with groupSlug := slug })
      fun g hg => rfl
    exact ⟨h1, h2, hunique⟩
  | delete u g admin group now =>
    obtain ⟨h1, h2⟩ := ids_update hkeyed hle (f := fun g => { g with deleted := true })
      fun g hg => hg
    exact ⟨h1, h2, unique_map hunique fun g => by split_ifs <;> rfl⟩
  | redeem _ _ grant | grant _ _ _ _ _ grant => exact ⟨hkeyed, hle, unique_upsert hunique grant⟩
  | revoke a g t admin now hrole =>
    exact ⟨hkeyed, hle, unique_map hunique fun g => by split_ifs <;> rfl⟩

/-! ### The owners' grants -/

def Owned (groups : List Group) (grants : List Grant) : Prop :=
  ∀ g ∈ groups, g.deleted = false → ∃ grant ∈ grants, owns grant g

lemma owned_of {grants' : List Grant} (ho : Owned db.groups db.grants)
    (h : ∀ g ∈ db.groups, g.deleted = false → ∀ grant ∈ db.grants, owns grant g → grant ∈ grants') :
    Owned db.groups grants' := by
  intro g hg hlive
  obtain ⟨grant, hgrant, howns⟩ := ho g hg hlive
  exact ⟨grant, h g hg hlive grant hgrant howns, howns⟩

lemma owned_create {group : Group} {grant : Grant} (hwf : Wf db.groups db.grants)
    (ho : Owned db.groups db.grants) (hid : group.id = db.groups.length + 1)
    (hg : owns grant group) :
    Owned (db.groups ++ [group]) (upsert db.grants grant) := by
  intro g hg' hlive
  rcases mem_append.mp hg' with hold | hnew
  · obtain ⟨old, hold', howns⟩ := ho g hold hlive
    refine ⟨old, mem_upsert.mpr (Or.inr ⟨hold', ?_⟩), howns⟩
    -- the ids of older groups are smaller
    have hle := hwf.le_length g hold
    rw [← Bool.not_eq_true, isFor_iff, howns.1.1, hg.1.1]
    omega
  · obtain rfl := mem_singleton.mp hnew
    exact ⟨grant, mem_upsert.mpr (Or.inl rfl), hg⟩

lemma owned_rename {group : Group} (slug : String) (hmem : group ∈ db.groups)
    (ho : Owned db.groups db.grants) :
    Owned (update Group.id group.id (fun _ => { group with groupSlug := slug }) db.groups)
      db.grants := by
  intro g hg hlive
  rcases mem_update.mp hg with ⟨hold, -⟩ | ⟨-, -, -, rfl⟩
  · exact ho g hold hlive
  · exact ho group hmem hlive

lemma owned_delete {group : Group} (now : ℤ) (ho : Owned db.groups db.grants) :
    Owned (update Group.id group.id (fun g => { g with deleted := true }) db.groups)
      (db.grants.map fun g =>
        if g.groupId = group.id ∧ g.revokedAt = 0 then { g with revokedAt := now } else g) := by
  intro g hg hlive
  rcases mem_update.mp hg with ⟨hold, hne⟩ | ⟨old, -, -, rfl⟩
  · obtain ⟨grant, hgrant, howns⟩ := ho g hold hlive
    refine ⟨grant, mem_map.mpr ⟨grant, hgrant, if_neg fun h => hne ?_⟩, howns⟩
    exact howns.1.1.symm.trans h.1
  · cases hlive

lemma owned_redeem {grant : Grant} (hwf : Wf db.groups db.grants) (ho : Owned db.groups db.grants)
    (hfree : ∀ old, findGrant db.grants grant.groupId grant.userId = some old →
      old.active w.now = false) : Owned db.groups (upsert db.grants grant) := by
  refine owned_of ho fun g hg hlive old hold howns => mem_upsert.mpr (Or.inr ⟨hold, ?_⟩)
  by_contra hfor
  rw [Bool.not_eq_false, isFor_iff] at hfor
  have hfound : findGrant db.grants grant.groupId grant.userId = some old := by
    rw [← hfor.1, ← hfor.2]
    exact findGrant_of_mem hwf.unique hold
  have := hfree old hfound
  simp [Grant.active, howns.2.2.1, howns.2.2.2] at this

lemma owned_revoke {g t : ℕ} (now : ℤ) (hwf : Wf db.groups db.grants)
    (ho : Owned db.groups db.grants)
    (hrole : ∀ old, findGrant db.grants g t = some old → old.role ≠ .owner) :
    Owned db.groups (revoke db.grants g t now) := by
  refine owned_of ho fun group hg hlive old hold howns => mem_map.mpr ⟨old, hold, if_neg ?_⟩
  intro h
  rw [Bool.and_eq_true, isFor_iff] at h
  refine hrole old ?_ howns.2.1
  rw [← h.1.1, ← h.1.2]
  exact findGrant_of_mem hwf.unique hold

lemma owned_grant {a g t : ℕ} {group : Group} {grant : Grant} (hwf : Wf db.groups db.grants)
    (ho : Owned db.groups db.grants) (hgroup : getPrivateGroup db a g true = .ok group)
    (hfor : grant.groupId = g ∧ grant.userId = t) (hrole : grant.role = .member) :
    Owned db.groups (upsert db.grants grant) ↔ t ≠ group.ownerUserId := by
  obtain ⟨hmem, hid, hlive⟩ := getPrivateGroup_ok hgroup
  constructor
  · rintro howned rfl
    obtain ⟨old, hold, howns⟩ := howned group hmem hlive
    rcases mem_upsert.mp hold with rfl | ⟨-, hnot⟩
    · rw [howns.2.1] at hrole
      cases hrole
    · rw [← Bool.not_eq_true, isFor_iff] at hnot
      exact hnot ⟨howns.1.1.trans (hid.trans hfor.1.symm), howns.1.2.trans hfor.2.symm⟩
  · intro hne
    refine owned_of ho fun group' hg' hlive' old hold howns => mem_upsert.mpr (Or.inr ⟨hold, ?_⟩)
    by_contra hold'
    rw [Bool.not_eq_false, isFor_iff] at hold'
    -- the two groups have one id, so they are the same
    have hsame : group'.id = group.id := by rw [← howns.1.1, hold'.1, hfor.1, hid]
    obtain rfl := inj_on_of_nodup_map hwf.keyed hg' hmem hsame
    exact hne (by rw [← hfor.2, ← hold'.2, howns.1.2])

/-! ### Runs that keep the owners' grants -/

def Careful (db : Db) (e : World × Op) : Prop :=
  ∀ a t g exp, e.2 = .grantByAdmin a t g exp → e.1.fault = none → (exp = 0 ∨ e.1.now ≤ exp) →
    ∀ group, getPrivateGroup db a g true = .ok group → group.enabled = true → t ≠ group.ownerUserId

lemma grantByAdmin_ok {a t g : ℕ} {exp : ℤ} {group : Group} (hfault : w.fault = none)
    (hexp : exp = 0 ∨ w.now ≤ exp) (hgroup : getPrivateGroup db a g true = .ok group)
    (henabled : group.enabled = true) : ∃ db', apply w db (.grantByAdmin a t g exp) = .ok db' := by
  have hvalid : ¬(exp ≠ 0 ∧ exp < w.now) := by omega
  have hlive : ¬group.enabled = false := by simp [henabled]
  simp only [apply, grantPrivateGroupMemberByAdmin, if_neg hvalid, hgroup, bind, Except.bind,
    if_neg hlive, World.commit, hfault]
  exact ⟨_, rfl⟩

lemma owned_step {e : World × Op} (hwf : Wf db.groups db.grants) (ho : Owned db.groups db.grants)
    (h : step db e = some db') : Owned db'.groups db'.grants ↔ Careful db e := by
  obtain ⟨w, op⟩ := e
  unfold step at h
  split at h
  · next db'' happly =>
    obtain rfl := Option.some.inj h
    have hchange := apply_change happly
    generalize db''.groups = groups at hchange
    generalize db''.grants = grants at hchange
    cases hchange with
    | keep op hop => exact iff_of_true ho fun a t g exp heq => absurd heq (hop a t g exp)
    | create o slug group grant hid hg =>
      exact iff_of_true (owned_create hwf ho hid hg) fun _ _ _ _ heq => by cases heq
    | rename u g newSlug admin group slug hmem =>
      exact iff_of_true (owned_rename slug hmem ho) fun _ _ _ _ heq => by cases heq
    | delete u g admin group now =>
      exact iff_of_true (owned_delete now ho) fun _ _ _ _ heq => by cases heq
    | redeem code u grant hfree =>
      exact iff_of_true (owned_redeem hwf ho hfree) fun _ _ _ _ heq => by cases heq
    | revoke a g t admin now hrole =>
      exact iff_of_true (owned_revoke now hwf ho hrole) fun _ _ _ _ heq => by cases heq
    | grant a t g exp group grant hgroup henabled hexp hfault hfor hrole =>
      rw [owned_grant hwf ho hgroup hfor hrole]
      constructor
      · rintro hne a' t' g' exp' heq - - group' hgroup' -
        cases heq
        obtain rfl := Except.ok.inj (hgroup.symm.trans hgroup')
        exact hne
      · exact fun hcareful => hcareful a t g exp rfl hfault hexp group hgroup henabled
  · next err happly =>
    cases h
    refine iff_of_true ho ?_
    rintro a t g exp rfl hfault hexp group hgroup henabled
    obtain ⟨db', hok⟩ := grantByAdmin_ok hfault hexp hgroup henabled
    rw [happly] at hok
    cases hok

lemma wf_step {e : World × Op} (hwf : Wf db.groups db.grants) (h : step db e = some db') :
    Wf db'.groups db'.grants := by
  unfold step at h
  split at h
  · next db'' happly =>
    cases h
    exact wf_change hwf (apply_change happly)
  · cases h
    exact hwf

lemma step_total (db : Db) (e : World × Op) : ∃ db', step db e = some db' := by
  unfold step
  split
  · exact ⟨_, rfl⟩
  · exact ⟨_, rfl⟩

end

/-- **The owners keep their grants** exactly if no administrator's grant is for the owner. -/
theorem owned_iff (es : List (World × Op)) :
    Stays step (fun db => Owned db.groups db.grants) {} es ↔ Along step Careful {} es := by
  refine stays_iff_along_of_invariant (J := fun db => Wf db.groups db.grants)
    (of_total step_total) wf_step owned_step ⟨?_, ?_, ?_⟩ ?_
  · exact nodup_nil
  · intro g hg
    cases hg
  · exact nodup_nil
  · intro g hg
    cases hg

/-- An administrator grants the owner access until 2000: the grant becomes a member's. -/
theorem owner_demoted : let w : World :=
      { now := 1000, symbolExists := fun _ => false, tokenReference := fun _ => false,
        channelReference := fun _ => false, hash := id, fault := none }
    (run step {} [(w, .create 7 "team"), (w, .grantByAdmin 1 7 1 2000)]).map (·.grants) = some [
        { groupId := 1, userId := 7, role := .member, source := .admin, sourceRef := "admin:1",
          grantedBy := 1, expiresAt := 2000 }] := by
  decide

end Tokilake.PrivateGroup.Owner
