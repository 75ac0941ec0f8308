import Tokilake.Lib.Calls
import Tokilake.PrivateGroup.Store
import Mathlib.Tactic.Linarith

/-! # Invite codes under concurrent calls

A redemption locks the row of the code until its transaction ends; a status update reads it without
a lock and later saves the whole row.  Each statement is one step.

* `redeem_alone`: a redemption with no other call in between is that of `Store`;
* `advance_trans`: what one statement can do to the row and its lock;
* `counted_iff`: the uses are counted exactly if every row that is saved has the stored count;
* `redeemed_past_limit`: a code for one use that is redeemed twice. -/

namespace Tokilake.PrivateGroup.Invite

open Lib.Run Lib.Calls Lib.Table PrivateGroup.Store

/-! ### The statements of the calls -/

structure Tables where
  code : Locked InviteCode
  groups : List Group
  grants : List Grant
  deriving DecidableEq

def Tables.setOwner (db : Tables) (owner : Option ℕ) : Tables :=
  { db with code := ⟨db.code.value, owner⟩ }

def Tables.store (db : Tables) (row : InviteCode) : Tables := { db with code := ⟨row, none⟩ }

inductive Op
  | redeem (code : String) (userId : ℕ)
  | updateStatus (ownerUserId groupId codeId : ℕ) (status : ℤ) (isAdmin : Bool)
  deriving DecidableEq

/-- How a statement ends: it is run, the clock reading `now`, or it fails. -/
inductive Outcome
  | done (now : ℤ)
  | error (text : String)
  deriving DecidableEq

inductive Phase
  | selecting (code : String) (userId : ℕ)
  | locked (userId : ℕ) (row : InviteCode) (now : ℤ)
  | granting (userId : ℕ) (row : InviteCode) (now : ℤ)
  | upserting (userId : ℕ) (row : InviteCode)
  | saving (userId : ℕ) (row : InviteCode)
  | committing (userId : ℕ) (row : InviteCode) (created : Bool)
  | redeemed (created : Bool)
  | reading (ownerUserId groupId codeId : ℕ) (status : CodeStatus) (isAdmin : Bool)
  | fetching (group : Group) (codeId : ℕ) (status : CodeStatus)
  | storing (row : InviteCode)
  | updated (row : InviteCode)
  | failed (error : String)
  deriving DecidableEq

def start : Op → Phase
  | .redeem code userId =>
    if code = "" then .failed "邀请码不能为空"
    else if userId = 0 then .failed "无效的用户"
    else .selecting code userId
  | .updateStatus u g c status admin =>
    match CodeStatus.ofInt status with
    | none => .failed "无效的邀请码状态"
    | some status => .reading u g c status admin

def advance (hash : String → String) (i : ℕ) (db : Tables) (c : Phase) :
    Outcome → Option (Tables × Phase)
  | .done now =>
    match c with
    | .selecting code u =>
      if db.code.value.codeHash ≠ hash code then some (db, .failed "无效的邀请码")
      else if db.code.owner = none then
        match db.code.value.usable now with
        | .error e => some (db, .failed e)
        | .ok () => some (db.setOwner (some i), .locked u db.code.value now)
      else none
    | .locked u row t =>
      match lookup Group.id row.groupId (db.groups.filter fun g => !g.deleted) with
      | none => some (db.setOwner none, .failed "分组不存在")
      | some group =>
        if group.enabled = false then some (db.setOwner none, .failed "分组不可用")
        else some (db, .granting u row t)
    | .granting u row t =>
      if (findGrant db.grants row.groupId u).any fun g => g.active t then
        some (db, .committing u row false)
      else some (db, .upserting u row)
    | .upserting u row => some (db, .saving u row)
    | .saving u row => some (db, .committing u row true)
    -- what the transaction has written is seen by the others from here on
    | .committing u row created =>
      if created then
        some ({ db.store row.use with grants := upsert db.grants (row.grant u) }, .redeemed true)
      else some (db.setOwner none, .redeemed false)
    | .reading u g codeId status admin =>
      match getPrivateGroup { groups := db.groups } u g admin with
      | .error e => some (db, .failed e)
      | .ok group => some (db, .fetching group codeId status)
    | .fetching group codeId status =>
      if codeId = 0 then some (db, .failed "invalid private group invite code id")
      else if db.code.value.id ≠ codeId then some (db, .failed "record not found")
      else if db.code.value.groupId ≠ group.id then some (db, .failed "邀请码不属于该分组")
      else some (db, .storing (db.code.value.withStatus status))
    | .storing row => if db.code.owner = none then some (db.store row, .updated row) else none
    | .redeemed _ | .updated _ | .failed _ => none
  -- a statement that fails ends the transaction and frees its lock
  | .error text =>
    match c with
    | .selecting _ _ => some (db, .failed "无效的邀请码")
    | .locked _ _ _ => some (db.setOwner none, .failed "分组不存在")
    | .granting _ _ _ | .upserting _ _ | .saving _ _ | .committing _ _ _ =>
      some (db.setOwner none, .failed text)
    | .reading _ _ _ _ _ | .fetching _ _ _ | .storing _ => some (db, .failed text)
    | .redeemed _ | .updated _ | .failed _ => none

/-- Groups and grants are written by others, and deleting the group disables its codes. -/
inductive Elsewhere
  | write (groups : List Group) (grants : List Grant)
  | disable
  deriving DecidableEq

def elsewhere (db : Tables) : Elsewhere → Option Tables
  | .write groups grants => some ⟨db.code, groups, grants⟩
  | .disable =>
    if db.code.owner = none then some (db.store (db.code.value.withStatus .disabled)) else none

def invite (hash : String → String) : System Tables Phase Op Outcome Elsewhere :=
  ⟨start, advance hash, elsewhere⟩

/-! ### A redemption alone -/

/-- What the call has returned, with the tables it leaves behind. -/
def returned (db : Tables) : Phase → Option (Except String (Bool × Db))
  | .redeemed created => some (.ok (created, ⟨db.groups, db.grants, [db.code.value]⟩))
  | .failed error => some (.error error)
  | _ => none

/-- Statement by statement and with no other call, a redemption does what `Store` says. -/
theorem redeem_alone (w : World) (hw : w.fault = none) (i : ℕ) {db : Tables}
    (hfree : db.code.owner = none) (code : String) (userId : ℕ) :
    ∃ n db' c', run (fun (db, c) o => advance w.hash i db c o) (db, start (.redeem code userId))
        (List.replicate n (.done w.now)) = some (db', c') ∧
      returned db' c' = some (redeemPrivateGroupInviteCode w
        ⟨db.groups, db.grants, [db.code.value]⟩ code userId) := by
  unfold redeemPrivateGroupInviteCode start
  by_cases hcode : code = ""
  · exact ⟨0, db, _, rfl, by simp [hcode, returned]⟩
  by_cases huser : userId = 0
  · exact ⟨0, db, _, rfl, by simp [hcode, huser, returned]⟩
  simp only [hcode, huser, if_false]
  by_cases hhash : db.code.value.codeHash = w.hash code
  swap
  · exact ⟨1, db, .failed "无效的邀请码", by simp [run, advance, hhash], by simp [hhash, returned]⟩
  cases husable : db.code.value.usable w.now with
  | error e =>
    exact ⟨1, db, .failed e, by simp [run, advance, hhash, hfree, husable],
      by simp [bind, Except.bind, hhash, husable, returned]⟩
  | ok u =>
    cases hgroup : lookup Group.id db.code.value.groupId (db.groups.filter fun g => !g.deleted) with
    | none =>
      exact ⟨2, db.setOwner none, .failed "分组不存在",
        by simp [run, advance, hhash, hfree, husable, hgroup, Tables.setOwner],
        by simp [bind, Except.bind, hhash, husable, hgroup, returned]⟩
    | some group =>
      by_cases henabled : group.enabled = false
      · exact ⟨2, db.setOwner none, .failed "分组不可用",
          by simp [run, advance, hhash, hfree, husable, hgroup, henabled, Tables.setOwner],
          by simp [bind, Except.bind, hhash, husable, hgroup, henabled, returned]⟩
      by_cases hactive : (findGrant db.grants db.code.value.groupId userId).any fun g =>
        g.active w.now
      · exact ⟨4, db.setOwner none, .redeemed false,
          by simp [run, advance, hhash, hfree, husable, hgroup, henabled, hactive, Tables.setOwner],
          by simp [bind, Except.bind, hhash, husable, hgroup, henabled, hactive, returned,
            Tables.setOwner]⟩
      · exact ⟨6, { db.store db.code.value.use with
            grants := upsert db.grants (db.code.value.grant userId) }, .redeemed true,
          by simp [run, advance, hhash, hfree, husable, hgroup, henabled, hactive, Tables.setOwner,
            Tables.store],
          by simp [bind, Except.bind, hhash, husable, hgroup, henabled, hactive, returned,
            Tables.store, World.commit, hw,
            update]⟩

/-! ### What a statement can do -/

def Phase.holds : Phase → Option InviteCode
  | .locked _ row _ | .granting _ row _ | .upserting _ row | .saving _ row
  | .committing _ row _ => some row
  | .selecting _ _ | .redeemed _ | .reading _ _ _ _ _ | .fetching _ _ _ | .storing _ | .updated _
  | .failed _ => none

def Phase.stores : Phase → Option InviteCode
  | .storing row => some row
  | _ => none

def Phase.created : Phase → Bool
  | .redeemed created => created
  | _ => false

inductive Trans (i : ℕ) (db : Tables) (c : Phase) : Outcome → Tables → Phase → Prop
  | idle (o : Outcome) (c' : Phase) (h : c.holds = none) (h' : c'.holds = none)
      (hcreated : c.created = false) (hcreated' : c'.created = false) (hstores : c'.stores = none)
      (ho : c.stores ≠ none → ∃ text, o = .error text) : Trans i db c o db c'
  | lock (now : ℤ) (u : ℕ) (h : c.holds = none) (hcreated : c.created = false)
      (hstores : c.stores = none) (hfree : db.code.owner = none)
      (husable : db.code.value.usable now = .ok ()) :
      Trans i db c (.done now) (db.setOwner (some i)) (.locked u db.code.value now)
  | proceed (now : ℤ) (row : InviteCode) (c' : Phase) (h : c.holds = some row)
      (h' : c'.holds = some row) : Trans i db c (.done now) db c'
  | release (o : Outcome) (row : InviteCode) (c' : Phase) (h : c.holds = some row)
      (h' : c'.holds = none) (hcreated' : c'.created = false) (hstores : c'.stores = none) :
      Trans i db c o (db.setOwner none) c'
  | commit (now : ℤ) (u : ℕ) (row : InviteCode) (h : c.holds = some row) : Trans i db c (.done now)
        { db.store row.use with grants := upsert db.grants (row.grant u) } (.redeemed true)
  | fetch (now : ℤ) (status : CodeStatus) (h : c.holds = none) (hcreated : c.created = false)
      (hstores : c.stores = none) :
      Trans i db c (.done now) db (.storing (db.code.value.withStatus status))
  | store (now : ℤ) (row : InviteCode) (h : c = .storing row) (hfree : db.code.owner = none) :
      Trans i db c (.done now) (db.store row) (.updated row)

lemma advance_trans {hash : String → String} {i : ℕ} {db db' : Tables} {c c' : Phase} {o : Outcome}
    (h : advance hash i db c o = some (db', c')) : Trans i db c o db' c' := by
  cases o with
  | done now =>
    cases c with
    | selecting code u =>
      dsimp only [advance] at h
      split_ifs at h with hhash hfree
      · cases h; exact .idle _ _ rfl rfl rfl rfl rfl (absurd rfl)
      · split at h
        · cases h; exact .idle _ _ rfl rfl rfl rfl rfl (absurd rfl)
        · next husable => cases h; exact .lock now u rfl rfl rfl hfree husable
    | locked u row t =>
      dsimp only [advance] at h
      split at h
      · cases h; exact .release _ row _ rfl rfl rfl rfl
      · split_ifs at h
        · cases h; exact .release _ row _ rfl rfl rfl rfl
        · cases h; exact .proceed now row _ rfl rfl
    | granting u row t =>
      dsimp only [advance] at h
      split_ifs at h <;> cases h <;> exact .proceed now row _ rfl rfl
    | upserting u row | saving u row => cases h; exact .proceed now row _ rfl rfl
    | committing u row created =>
      cases created with
      | true => cases h; exact .commit now u row rfl
      | false => cases h; exact .release _ row _ rfl rfl rfl rfl
    | reading u g codeId status admin =>
      dsimp only [advance] at h
      split at h <;> cases h <;> exact .idle _ _ rfl rfl rfl rfl rfl (absurd rfl)
    | fetching group codeId status =>
      dsimp only [advance] at h
      split_ifs at h
      · cases h; exact .idle _ _ rfl rfl rfl rfl rfl (absurd rfl)
      · cases h; exact .idle _ _ rfl rfl rfl rfl rfl (absurd rfl)
      · cases h; exact .idle _ _ rfl rfl rfl rfl rfl (absurd rfl)
      · cases h; exact .fetch now status rfl rfl rfl
    | storing row =>
      dsimp only [advance] at h
      split_ifs at h with hfree
      cases h
      exact .store now row rfl hfree
    | redeemed | updated | failed => cases h
  | error text =>
    cases c with
    | selecting | reading | fetching | storing =>
      cases h; exact .idle _ _ rfl rfl rfl rfl rfl fun _ => ⟨text, rfl⟩
    | locked u row | granting u row | upserting u row | saving u row | committing u row =>
      cases h; exact .release _ row _ rfl rfl rfl rfl
    | redeemed | updated | failed => cases h

/-! ### The assertion of each call -/

section
variable {hash : String → String} {m : ℤ} {i j : ℕ} {db db' : Tables} {c c' d : Phase} {o : Outcome}

/-- A redemption with the lock has what is stored; a row to be saved has the same limit. -/
def Assert (m : ℤ) (i : ℕ) (db : Tables) (c : Phase) : Prop :=
  (∀ row, c.holds = some row → db.code = ⟨row, some i⟩ ∧ row.usedCount < m) ∧
    ∀ row, c.stores = some row → row.maxUses = m

lemma assert_none (h : c.holds = none) (hs : c.stores = none) : Assert m i db c := by
  constructor
  · intro row hrow
    rw [h] at hrow
    cases hrow
  · intro row hrow
    rw [hs] at hrow
    cases hrow

lemma stores_of_holds {row : InviteCode} (h : c.holds = some row) : c.stores = none := by
  cases c with
  | storing => cases h
  | _ => rfl

lemma created_of_holds {row : InviteCode} (h : c.holds = some row) : c.created = false := by
  cases c with
  | redeemed => cases h
  | _ => rfl

lemma lt_of_usable {code : InviteCode} {now : ℤ} (hm : 0 < code.maxUses)
    (h : code.usable now = .ok ()) : code.usedCount < code.maxUses := by
  unfold InviteCode.usable at h
  split_ifs at h with h1 h2 h3
  by_contra hlt
  exact h3 ⟨hm, not_lt.mp hlt⟩

lemma own_step (hm : 0 < m) (hI : db.code.value.maxUses = m) (hc : Assert m i db c)
    (h : Trans i db c o db' c') : db'.code.value.maxUses = m ∧ Assert m i db' c' := by
  cases h with
  | idle o c' h h' hcreated hcreated' hstores ho | release o row c' h h' hcreated' hstores =>
    exact ⟨hI, assert_none h' hstores⟩
  | lock now u h hcreated hstores hfree husable =>
    have hlt : db.code.value.usedCount < m := by
      rw [← hI] at hm ⊢
      exact lt_of_usable hm husable
    refine ⟨hI, fun row hrow => ?_, fun row hrow => by cases hrow⟩
    cases hrow
    exact ⟨rfl, hlt⟩
  | proceed now row c' h h' =>
    refine ⟨hI, fun row' hrow' => ?_, fun row' hrow' => ?_⟩
    · obtain rfl := Option.some.inj (h'.symm.trans hrow')
      exact hc.1 row h
    · rw [stores_of_holds h'] at hrow'
      cases hrow'
  | commit now u row h =>
    have hrow : db.code.value = row := by rw [(hc.1 row h).1]
    refine ⟨?_, assert_none rfl rfl⟩
    rw [hrow] at hI
    exact hI
  | fetch now status h hcreated hstores =>
    refine ⟨hI, fun row hrow => (by cases hrow), fun row hrow => ?_⟩
    cases hrow
    exact hI
  | store now row h hfree => exact ⟨hc.2 row (by rw [h]; rfl), assert_none rfl rfl⟩

lemma assert_of (hd : Assert m j db d) (h : db.code.owner = some j → db'.code = db.code) :
    Assert m j db' d := by
  refine ⟨fun row hrow => ?_, hd.2⟩
  obtain ⟨hcode, hlt⟩ := hd.1 row hrow
  rw [h (by rw [hcode])]
  exact ⟨hcode, hlt⟩

lemma other_step (hc : Assert m i db c) (hd : Assert m j db d) (hij : i ≠ j)
    (h : Trans i db c o db' c') : Assert m j db' d := by
  have hfree : ∀ {db'' : Tables}, db.code.owner = none → Assert m j db'' d := by
    intro db'' hnone
    refine assert_of hd fun hj => ?_
    rw [hnone] at hj
    cases hj
  have hmine : ∀ {db'' : Tables} {row : InviteCode}, c.holds = some row → Assert m j db'' d := by
    intro db'' row hrow
    refine assert_of hd fun hj => ?_
    rw [(hc.1 row hrow).1] at hj
    exact absurd (Option.some.inj hj) hij
  cases h with
  | idle | proceed | fetch => exact hd
  | lock now u h hcreated hstores hnone husable | store now row h hnone => exact hfree hnone
  | release o row c' h h' hcreated' hstores | commit now u row h => exact hmine h

lemma start_quiet (op : Op) :
    (start op).holds = none ∧ (start op).stores = none ∧ (start op).created = false := by
  cases op with
  | redeem code u =>
    unfold start
    dsimp only
    split_ifs <;> exact ⟨rfl, rfl, rfl⟩
  | updateStatus u g c status admin =>
    unfold start
    dsimp only
    split <;> exact ⟨rfl, rfl, rfl⟩

lemma stable (hm : 0 < m) :
    Stable (invite hash) (fun db => db.code.value.maxUses = m) (Assert m) where
  start op _ := assert_none (start_quiet op).1 (start_quiet op).2.1
  own hI hc h := own_step hm hI hc (advance_trans h)
  other _ hc hd hij h := other_step hc hd hij (advance_trans h)
  env {db e db'} hI h := by
    cases e with
    | write groups grants =>
      cases h
      exact ⟨hI, fun hc => hc⟩
    | disable =>
      simp only [invite, elsewhere] at h
      split_ifs at h with hfree
      cases h
      refine ⟨hI, fun hc => assert_of hc fun hj => ?_⟩
      rw [hfree] at hj
      cases hj

end

/-! ### The count of the uses -/

def redemptions (p : Pool Tables Phase) : ℕ := p.calls.countP Phase.created

def Counted (m : ℤ) (p : Pool Tables Phase) : Prop :=
  p.shared.code.value.usedCount = redemptions p ∧ (redemptions p : ℤ) ≤ m

def Fresh (p : Pool Tables Phase) : Event Op Outcome Elsewhere → Prop
  | .move i (.done _) => ∀ row, p.calls[i]? = some (.storing row) → p.shared.code.owner = none →
      row.usedCount = p.shared.code.value.usedCount
  | _ => True

structure Setup where
  code : InviteCode
  groups : List Group
  grants : List Grant
  unused : code.usedCount = 0
  limited : 0 < code.maxUses

def Setup.init (s : Setup) : Pool Tables Phase := ⟨⟨⟨s.code, none⟩, s.groups, s.grants⟩, []⟩

section
variable {hash : String → String} {m : ℤ} {p p' : Pool Tables Phase}

lemma counted_of (hp : Counted m p) (hn : redemptions p' = redemptions p)
    (hu : p'.shared.code.value.usedCount = p.shared.code.value.usedCount) : Counted m p' := by
  rw [Counted, hn, hu]
  exact hp

lemma fresh_of {i : ℕ} {c : Phase} {o : Outcome} (hc : p.calls[i]? = some c)
    (h : c.stores ≠ none → ∃ text, o = .error text) : Fresh p (.move i o) := by
  cases o with
  | error text => trivial
  | done now =>
    intro row hrow
    obtain rfl := Option.some.inj (hc.symm.trans hrow)
    obtain ⟨text, htext⟩ := h (by simp [Phase.stores])
    cases htext

lemma counted_move {i : ℕ} {o : Outcome} {c c' : Phase} {db' : Tables} (hL : Each (Assert m) p)
    (hp : Counted m p) (hc : p.calls[i]? = some c) (h : Trans i p.shared c o db' c') :
    Counted m ⟨db', p.calls.set i c'⟩ ↔ Fresh p (.move i o) := by
  have hcount := countP_set Phase.created hc c'
  -- the steps that neither create a grant nor change the stored count
  have hquiet : c.created = false → c'.created = false →
      db'.code.value.usedCount = p.shared.code.value.usedCount →
        Counted m ⟨db', p.calls.set i c'⟩ := by
    intro h1 h2 hu
    rw [h1, h2] at hcount
    exact counted_of hp (Nat.add_right_cancel hcount) hu
  cases h with
  | idle o c' h h' hcreated hcreated' hstores ho =>
    exact iff_of_true (hquiet hcreated hcreated' rfl) (fresh_of hc ho)
  | lock now u h hcreated hstores hfree husable | fetch now status h hcreated hstores =>
    exact iff_of_true (hquiet hcreated rfl rfl) (fresh_of hc (absurd hstores))
  | proceed now row c' h h' =>
    exact iff_of_true (hquiet (created_of_holds h) (created_of_holds h') rfl)
      (fresh_of hc (absurd (stores_of_holds h)))
  | release o row c' h h' hcreated' hstores =>
    exact iff_of_true (hquiet (created_of_holds h) hcreated' rfl)
      (fresh_of hc (absurd (stores_of_holds h)))
  | commit now u row h =>
    refine iff_of_true ?_ (fresh_of hc (absurd (stores_of_holds h)))
    obtain ⟨hcode, hlt⟩ := (hL i c hc).1 row h
    have hrow : row.usedCount = redemptions p := by
      have := hp.1
      rw [hcode] at this
      exact this
    have hn : redemptions ⟨{ p.shared.store row.use with
        grants := upsert p.shared.grants (row.grant u) }, p.calls.set i (.redeemed true)⟩ =
          redemptions p + 1 := by
      have h0 := created_of_holds h
      rw [h0] at hcount
      exact hcount
    rw [Counted, hn]
    have hused : row.use.usedCount = row.usedCount + 1 := rfl
    constructor
    · show row.use.usedCount = _
      omega
    · push_cast
      omega
  | store now row h hfree =>
    subst h
    have hn : redemptions ⟨p.shared.store row, p.calls.set i (.updated row)⟩ = redemptions p :=
      Nat.add_right_cancel hcount
    have hfresh : Fresh p (.move i (.done now)) ↔
        row.usedCount = p.shared.code.value.usedCount := by
      constructor
      · exact fun hf => hf row hc hfree
      · rintro heq row' hrow' -
        obtain rfl := Phase.storing.inj (Option.some.inj (hc.symm.trans hrow'))
        exact heq
    rw [hfresh, Counted, hn, hp.1]
    exact ⟨fun h => h.1, fun h => ⟨h, hp.2⟩⟩

lemma counted_step {e : Event Op Outcome Elsewhere} (hL : Each (Assert m) p) (hp : Counted m p)
    (h : (invite hash).step p e = some p') : Counted m p' ↔ Fresh p e := by
  cases e with
  | arrive op =>
    cases h
    have hnew : ((invite hash).start op).created = false := (start_quiet op).2.2
    refine iff_of_true (counted_of hp ?_ rfl) trivial
    simp [redemptions, hnew]
  | move i o =>
    obtain ⟨c, db', c', hc, ha, rfl⟩ := step_move.mp h
    exact counted_move hL hp hc (advance_trans ha)
  | env e =>
    obtain ⟨db', he, rfl⟩ := step_env.mp h
    refine iff_of_true (counted_of hp rfl ?_) trivial
    cases e with
    | write groups grants => cases he; rfl
    | disable =>
      simp only [invite, elsewhere] at he
      split_ifs at he
      cases he
      rfl

lemma fresh_of_none {e : Event Op Outcome Elsewhere} (h : (invite hash).step p e = none) :
    Fresh p e := by
  cases e with
  | arrive op | env e => trivial
  | move i o =>
    cases o with
    | error text => trivial
    | done now =>
      intro row hrow hfree
      simp [System.step, hrow, invite, advance, hfree] at h

end

/-- **The uses of a code are counted** exactly if status updates save the count that is stored. -/
theorem counted_iff (hash : String → String) (s : Setup) (es : List (Event Op Outcome Elsewhere)) :
    Stays (invite hash).step (Counted s.code.maxUses) s.init es ↔
      Along (invite hash).step Fresh s.init es := by
  refine stays_iff_along_of_invariant
    (J := fun p => p.shared.code.value.maxUses = s.code.maxUses ∧ Each (Assert s.code.maxUses) p)
    fresh_of_none (fun hJ h => (stable s.limited).step hJ h) (fun hJ hp h => counted_step hJ.2 hp h)
    ⟨rfl, fun i c hc => by cases hc⟩ ⟨s.unused, Int.le_of_lt s.limited⟩

/-- A code for one use, redeemed between the read and the save of a status update, is redeemed
again. -/
theorem redeemed_past_limit : let s : Setup :=
      { code :=
          { id := 1, groupId := 1, codeHash := "h", createdBy := 7, maxUses := 1, expiresAt := 0 }
        groups := [{ id := 1, ownerUserId := 7, groupSlug := "team" }], grants := []
        unused := rfl, limited := by decide }
    let turn (i : ℕ) : Event Op Outcome Elsewhere := .move i (.done 1000)
    (run (invite fun _ => "h").step s.init
      ([.arrive (.updateStatus 7 1 1 1 false), turn 0, turn 0] ++
        (.arrive (.redeem "code" 8) :: List.replicate 6 (turn 1)) ++ [turn 0] ++
        (.arrive (.redeem "code" 9) :: List.replicate 6 (turn 2)))).map
        (fun p => (p.calls.drop 1, p.shared.code.value.usedCount, p.shared.code.value.maxUses)) =
      some ([.redeemed true, .redeemed true], 1, 1) := by
  decide

end Tokilake.PrivateGroup.Invite
