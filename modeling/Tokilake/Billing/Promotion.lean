import Mathlib.Data.List.Nodup
import Mathlib.Tactic.Linarith

/-! # Promotion to a user group

`CheckAndUpgradeUserGroup` moves a user to the group whose range has the cumulative recharge.  Both
its callers, `Redeem` and `PaymentCallback`, have raised the quota by then and pass the amount once
more, so a recharge counts twice.  Amounts are exact: a `float64` holds every integer below `2^53`.

* `target_spec`: the loop finds a group with the amount and the highest min;
* `ends_iff`: where the user ends, and when that is right for the amount with the recharge counted
  once;
* `vip_too_early`: a first recharge of one unit reaches a group that needs two. -/

namespace Tokilake.Billing.Promotion

/-- The columns of a user that the promotion reads and writes. -/
structure User where
  quota : ℤ
  usedQuota : ℤ
  group : String
  deriving DecidableEq

/-- A row of `user_groups`; a `max` of 0 is no upper bound. -/
structure UserGroup where
  symbol : String
  min : ℤ
  max : ℤ
  promotion : Bool := true
  enable : Bool := true
  deriving DecidableEq

/-- The range of the group has the amount. -/
def UserGroup.has (quotaPerUnit : ℚ) (amount : ℤ) (g : UserGroup) : Prop :=
  g.min * quotaPerUnit ≤ amount ∧ (g.max = 0 ∨ amount < g.max * quotaPerUnit)

instance (quotaPerUnit : ℚ) (amount : ℤ) : DecidablePred (UserGroup.has quotaPerUnit amount) :=
  fun _ => inferInstanceAs (Decidable (_ ∧ _))

/-- The statements of `CheckAndUpgradeUserGroup` that may fail. -/
inductive Stmt
  | readUser
  | readGroups
  | updateGroup
  deriving DecidableEq

/-- The loop over the groups: a later one is taken only if its min is higher. -/
def target (quotaPerUnit : ℚ) (amount : ℤ) : Option UserGroup → List UserGroup → Option UserGroup
  | best, [] => best
  | best, g :: groups =>
    if g.has quotaPerUnit amount ∧ ∀ t ∈ best, t.min < g.min then
      target quotaPerUnit amount (some g) groups
    else target quotaPerUnit amount best groups

/-- The groups that a user can rise to. -/
def promotionGroups (groups : List UserGroup) : List UserGroup :=
  groups.filter fun g => g.promotion && g.enable

def checkAndUpgradeUserGroup (quotaPerUnit : ℚ) (fails : Stmt → Option String)
    (groups : List UserGroup) (user : User) (rechargeAmount : ℤ) : Except String User :=
  match fails .readUser, fails .readGroups with
  | some e, _ => .error e
  | none, some e => .error e
  | none, none =>
    let cumulativeAmount := user.quota + user.usedQuota + rechargeAmount
    match target quotaPerUnit cumulativeAmount none (promotionGroups groups) with
    | none => .ok user
    | some g =>
      if g.symbol = user.group then .ok user
      else match fails .updateGroup with
        | some e => .error e
        | none => .ok { user with group := g.symbol }

/-- The two ways in which quota is bought. -/
inductive Route
  | redeem
  | paymentCallback
  deriving DecidableEq

/-- The quota is raised, then the group is looked for.  A callback stops at a negative amount. -/
def recharge (quotaPerUnit : ℚ) (fails : Stmt → Option String) (groups : List UserGroup)
    (user : User) (via : Route) (amount : ℤ) : Option User :=
  if via = .paymentCallback ∧ amount < 0 then none
  else
    let user := { user with quota := user.quota + amount }
    match checkAndUpgradeUserGroup quotaPerUnit fails groups user amount with
    | .ok user => some user
    | .error _ => some user

/-! ### The group that is looked for -/

section
variable {quotaPerUnit : ℚ} {amount : ℤ} {groups : List UserGroup} {user user' : User}

/-- A group with the amount such that none with it has a higher min. -/
structure Selected (quotaPerUnit : ℚ) (amount : ℤ) (groups : List UserGroup) (g : UserGroup) :
    Prop where
  mem : g ∈ groups
  has : g.has quotaPerUnit amount
  highest : ∀ g' ∈ groups, g'.has quotaPerUnit amount → g'.min ≤ g.min

lemma target_spec (quotaPerUnit : ℚ) (amount : ℤ) (groups : List UserGroup)
    (best : Option UserGroup) : (target quotaPerUnit amount best groups = best ∧
      ∀ g ∈ groups, g.has quotaPerUnit amount → ∃ t ∈ best, g.min ≤ t.min) ∨
    ∃ g, target quotaPerUnit amount best groups = some g ∧ Selected quotaPerUnit amount groups g ∧
      ∀ t ∈ best, t.min < g.min := by
  induction groups generalizing best with
  | nil => exact .inl ⟨rfl, nofun⟩
  | cons g groups ih =>
    rw [target]
    split_ifs with hbetter
    · right
      rcases ih (some g) with ⟨heq, hall⟩ | ⟨g', heq, hg', hlt⟩
      · refine ⟨g, heq, ⟨List.mem_cons_self, hbetter.1, ?_⟩, hbetter.2⟩
        rintro g' hmem hhas
        rcases List.mem_cons.mp hmem with rfl | hmem
        · exact le_rfl
        · obtain ⟨t, ht, hle⟩ := hall g' hmem hhas
          cases ht
          exact hle
      · have hlt' : g.min < g'.min := hlt g rfl
        refine ⟨g', heq, ⟨List.mem_cons_of_mem g hg'.mem, hg'.has, ?_⟩, fun t ht =>
          (hbetter.2 t ht).trans hlt'⟩
        rintro g'' hmem hhas
        rcases List.mem_cons.mp hmem with rfl | hmem
        · exact hlt'.le
        · exact hg'.highest g'' hmem hhas
    · -- the group is not better than the best one so far
      have hworse : g.has quotaPerUnit amount → ∃ t ∈ best, g.min ≤ t.min := by
        intro hhas
        by_contra hnone
        exact hbetter ⟨hhas, fun t ht => not_le.mp fun hle => hnone ⟨t, ht, hle⟩⟩
      rcases ih best with ⟨heq, hall⟩ | ⟨g', heq, hg', hlt⟩
      · refine .inl ⟨heq, fun g' hmem hhas => ?_⟩
        rcases List.mem_cons.mp hmem with rfl | hmem
        · exact hworse hhas
        · exact hall g' hmem hhas
      · refine .inr ⟨g', heq, ⟨List.mem_cons_of_mem g hg'.mem, hg'.has, ?_⟩, hlt⟩
        rintro g'' hmem hhas
        rcases List.mem_cons.mp hmem with rfl | hmem
        · obtain ⟨t, ht, hle⟩ := hworse hhas
          exact hle.trans (hlt t ht).le
        · exact hg'.highest g'' hmem hhas

/-! ### The group the user ends in -/

/-- The user ends in a group that is selected for the amount, or keeps the old one if none is. -/
def Ends (quotaPerUnit : ℚ) (amount : ℤ) (groups : List UserGroup) (before after : String) : Prop :=
  (∃ g, Selected quotaPerUnit amount groups g ∧ after = g.symbol) ∨
    ((∀ g ∈ groups, ¬ g.has quotaPerUnit amount) ∧ after = before)

/-- The group that is written. -/
def groupFor (quotaPerUnit : ℚ) (amount : ℤ) (groups : List UserGroup) (before : String) : String :=
  ((target quotaPerUnit amount none groups).map UserGroup.symbol).getD before

lemma ends_groupFor (before : String) :
    Ends quotaPerUnit amount groups before (groupFor quotaPerUnit amount groups before) := by
  rcases target_spec quotaPerUnit amount groups none with
    ⟨heq, hall⟩ | ⟨g, heq, hg, -⟩
  · refine .inr ⟨fun g hmem hhas => ?_, by rw [groupFor, heq]; rfl⟩
    obtain ⟨t, ht, -⟩ := hall g hmem hhas
    cases ht
  · exact .inl ⟨g, hg, by rw [groupFor, heq]; rfl⟩

lemma group_of_recharge {via : Route} {r : ℤ}
    (h : recharge quotaPerUnit (fun _ => none) groups user via r = some user') :
    user'.group = groupFor quotaPerUnit (user.quota + user.usedQuota + r + r)
      (promotionGroups groups)
      user.group := by
  have hamount : user.quota + r + user.usedQuota + r = user.quota + user.usedQuota + r + r := by
    omega
  simp only [recharge, checkAndUpgradeUserGroup, hamount] at h
  rw [groupFor]
  split_ifs at h
  cases htarget : target quotaPerUnit (user.quota + user.usedQuota + r + r) none
      (promotionGroups groups) with
  | none =>
    rw [htarget] at h
    cases h
    rfl
  | some g =>
    rw [htarget] at h
    by_cases hsame : g.symbol = user.group
    · simp only [hsame, if_true] at h
      cases h
      exact hsame.symm
    · simp only [hsame, if_false] at h
      cases h
      rfl

/-! ### One amount for the other -/

/-- No end of the group's range lies between the two amounts. -/
def UserGroup.Together (quotaPerUnit : ℚ) (a b : ℤ) (g : UserGroup) : Prop :=
  (a < g.min * quotaPerUnit ↔ b < g.min * quotaPerUnit) ∧
    (g.max ≠ 0 → (a < g.max * quotaPerUnit ↔ b < g.max * quotaPerUnit))

variable {a b : ℤ} {g g' : UserGroup} {before after : String}

lemma has_iff_of_together (h : g.Together quotaPerUnit a b) :
    g.has quotaPerUnit a ↔ g.has quotaPerUnit b := by
  obtain ⟨hmin, hmax⟩ := h
  refine and_congr ?_ ?_
  · rw [← not_lt, ← not_lt, hmin]
  · by_cases hzero : g.max = 0
    · simp [hzero]
    · rw [hmax hzero]

lemma ends_of_together (h : ∀ g ∈ groups, g.Together quotaPerUnit a b)
    (hends : Ends quotaPerUnit b groups before after) :
    Ends quotaPerUnit a groups before after := by
  have hhas : ∀ g ∈ groups, (g.has quotaPerUnit a ↔ g.has quotaPerUnit b) := fun g hg =>
    has_iff_of_together (h g hg)
  rcases hends with ⟨g, hg, hafter⟩ | ⟨hnone, hafter⟩
  · refine .inl ⟨g, ⟨hg.mem, (hhas g hg.mem).mpr hg.has, fun g' hmem hhas' => ?_⟩, hafter⟩
    exact hg.highest g' hmem ((hhas g' hmem).mp hhas')
  · exact .inr ⟨fun g hmem hhas' => hnone g hmem ((hhas g hmem).mp hhas'), hafter⟩

/-- With different mins, only one group is selected. -/
lemma Selected.unique (hmin : (groups.map UserGroup.min).Nodup)
    (hg : Selected quotaPerUnit amount groups g) (hg' : Selected quotaPerUnit amount groups g') :
    g = g' :=
  List.inj_on_of_nodup_map hmin hg.mem hg'.mem
    (le_antisymm (hg'.highest g hg.mem hg.has) (hg.highest g' hg'.mem hg'.has))

/-- The same group is selected for both amounts, or the user is already in the one that is selected
for one of them, and none has the other. -/
def SameEnd (quotaPerUnit : ℚ) (a b : ℤ) (groups : List UserGroup) (before : String) : Prop :=
  (∀ g, Selected quotaPerUnit a groups g ↔ Selected quotaPerUnit b groups g) ∨
    ∃ g, g.symbol = before ∧
      ((Selected quotaPerUnit a groups g ∧ ∀ g ∈ groups, ¬ g.has quotaPerUnit b) ∨
        (Selected quotaPerUnit b groups g ∧ ∀ g ∈ groups, ¬ g.has quotaPerUnit a))

lemma not_selected (h : ∀ g ∈ groups, ¬ g.has quotaPerUnit amount) :
    ¬ Selected quotaPerUnit amount groups g := fun hg => h g hg.mem hg.has

lemma ends_iff_sameEnd (hmin : (groups.map UserGroup.min).Nodup)
    (hsymbol : (groups.map UserGroup.symbol).Nodup)
    (hends : Ends quotaPerUnit b groups before after) :
    Ends quotaPerUnit a groups before after ↔ SameEnd quotaPerUnit a b groups before := by
  constructor
  · intro hright
    rcases hends with ⟨g, hg, rfl⟩ | ⟨hnone, rfl⟩
    · rcases hright with ⟨g', hg', hsame⟩ | ⟨hnone', hsame⟩
      · obtain rfl := List.inj_on_of_nodup_map hsymbol hg.mem hg'.mem hsame
        refine .inl fun other => ⟨fun h => ?_, fun h => ?_⟩
        · rwa [h.unique hmin hg']
        · rwa [h.unique hmin hg]
      · exact .inr ⟨g, hsame, .inr ⟨hg, hnone'⟩⟩
    · rcases hright with ⟨g', hg', hsame⟩ | ⟨hnone', -⟩
      · exact .inr ⟨g', hsame.symm, .inl ⟨hg', hnone⟩⟩
      · exact .inl fun g => iff_of_false (not_selected hnone') (not_selected hnone)
  · rintro (hsame | ⟨g, rfl, ⟨hg, hnone⟩ | ⟨hg, hnone⟩⟩)
    · rcases hends with ⟨g, hg, rfl⟩ | ⟨hnone, rfl⟩
      · exact .inl ⟨g, (hsame g).mpr hg, rfl⟩
      · have hother : Ends quotaPerUnit a groups after _ := ends_groupFor after
        rcases hother with ⟨g, hg, -⟩ | ⟨hnone', -⟩
        · exact absurd ((hsame g).mp hg) (not_selected hnone)
        · exact .inr ⟨hnone', rfl⟩
    · rcases hends with ⟨g', hg', -⟩ | ⟨-, rfl⟩
      · exact absurd hg' (not_selected hnone)
      · exact .inl ⟨g, hg, rfl⟩
    · rcases hends with ⟨g', hg', rfl⟩ | ⟨hnone', -⟩
      · exact .inr ⟨hnone, by rw [hg'.unique hmin hg]⟩
      · exact absurd hg (not_selected hnone')

/-- **The recharge counts twice.** The user ends where the amount with `r` counted twice leads.
That is right for the amount with `r` counted once if no end of a range lies between the two, and
with different mins and symbols exactly if both amounts lead to the same group. -/
theorem ends_iff {via : Route} {r : ℤ}
    (h : recharge quotaPerUnit (fun _ => none) groups user via r = some user') :
    let amount := user.quota + user.usedQuota + r
    let available := promotionGroups groups
    Ends quotaPerUnit (amount + r) available user.group user'.group ∧
    ((∀ g ∈ available, g.Together quotaPerUnit amount (amount + r)) →
      Ends quotaPerUnit amount available user.group user'.group) ∧
    ((available.map UserGroup.min).Nodup → (available.map UserGroup.symbol).Nodup →
      (Ends quotaPerUnit amount available user.group user'.group ↔
        SameEnd quotaPerUnit amount (amount + r) available user.group)) := by
  intro amount available
  have hends : Ends quotaPerUnit (amount + r) available user.group user'.group := by
    rw [group_of_recharge h]
    exact ends_groupFor user.group
  exact ⟨hends, fun htogether => ends_of_together htogether hends,
    fun hmin hsymbol => ends_iff_sameEnd hmin hsymbol hends⟩

end

def vip : UserGroup where
  symbol := "vip"
  min := 2
  max := 0

lemma vip_recharge (quota : ℤ) (h : 0 ≤ quota) :
    recharge 500000 (fun _ => none) [vip] ⟨quota, 0, "default"⟩ .redeem 500000 =
      some ⟨quota + 500000, 0, "vip"⟩ := by
  have hhas : vip.has 500000 (quota + 500000 + 0 + 500000) := by
    have hquota : (0 : ℚ) ≤ quota := by exact_mod_cast h
    refine ⟨?_, .inl rfl⟩
    push_cast [vip]
    linarith
  have htarget : target 500000 (quota + 500000 + 0 + 500000) none [vip] = some vip := by
    rw [target, if_pos ⟨hhas, nofun⟩]
    rfl
  have hgroups : promotionGroups [vip] = [vip] := rfl
  have hsymbol : vip.symbol ≠ "default" := by decide
  simp only [recharge, checkAndUpgradeUserGroup, hgroups, htarget, hsymbol, if_false]
  rfl

/-- A first recharge of one unit makes a user one of them. -/
theorem vip_too_early :
    ∃ user', recharge 500000 (fun _ => none) [vip] ⟨0, 0, "default"⟩ .redeem 500000 = some user' ∧
      user'.group = "vip" ∧ ¬ Ends 500000 (0 + 0 + 500000) [vip] "default" user'.group := by
  have hhas : ¬ vip.has 500000 (0 + 0 + 500000) := by norm_num [vip, UserGroup.has]
  refine ⟨_, vip_recharge 0 le_rfl, rfl, ?_⟩
  rintro (⟨g, hg, -⟩ | ⟨-, hsame⟩)
  · exact hhas (List.mem_singleton.mp hg.mem ▸ hg.has)
  · exact absurd hsame (by decide)

/-- With two units before, the third makes no difference. -/
theorem ends_vip : Ends 500000 2000000 [vip] "default" "vip" ∧
    Ends 500000 1500000 [vip] "default" "vip" ∧ SameEnd 500000 1500000 2000000 [vip] "default" := by
  obtain ⟨hends, htogether, hiff⟩ := ends_iff (vip_recharge 1000000 (by decide))
  have hright : Ends 500000 1500000 [vip] "default" "vip" := by
    refine htogether fun g hg => ?_
    rw [List.mem_singleton.mp hg]
    norm_num [UserGroup.Together, vip]
  exact ⟨hends, hright, (hiff (List.nodup_singleton _) (List.nodup_singleton _)).mp hright⟩

end Tokilake.Billing.Promotion
